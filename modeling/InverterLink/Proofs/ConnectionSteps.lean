import InverterLink.Proofs.CallSteps

/-!
# Everything that a step of a connection can do

`Transition` lists it once, with all guards, for each of those who work on a connection: the
receiver and the device behind it, the decoder, the control loop, the tasks that watch a
subscription, the reporter, calls and filters, and users. What a step keeps is then a matter of
cases on `Transition`, and nothing else has to look into the steps themselves.
-/

namespace InverterLink.Proofs
open Connection

/-- The receiver looks whether the connection is cancelled before it goes on. -/
def heeds : ReceiverPhase → Bool
  | .reading _ | .redialing _ | .dialing _ | .pausing _ _ => true
  | _ => false

/-- What the receiver holds and has not handed over. -/
def inHand : ReceiverPhase → List Inbound
  | .forwarding _ bytes => [.chunk bytes]
  | .announcing _ => [.restart]
  | _ => []

/-- The queue of the reporter after it was told something. -/
def told (s : State) (item : Status) : List Status :=
  if s.reporter then s.status ++ [item] else s.status

/-- There is room for a status, unless nobody wants it. -/
def Tellable (s : State) : Prop := s.reporter = true → s.status.length < statusCapacity

/-- Where a failed dial sends the receiver. -/
inductive Paused (s : State) (b : Backoff) (draw : Draw) : ReceiverPhase → Prop where
  | sleeps (b' : Backoff) (delay : Duration) (asked : b.next s.now draw = (b', .ok (some delay))) :
    Paused s b draw (.pausing b' (s.now + delay.nanos))
  | givesUp (b' : Backoff) (asked : b.next s.now draw = (b', .ok none)) :
    Paused s b draw (.redialing (b'.reset s.now))
  | breaks (b' : Backoff) (fault : Fault) (asked : b.next s.now draw = (b', .error fault)) :
    Paused s b draw (.broken fault)

/-- What the receiver does in a step, by itself or because a dial or a read comes to its end. -/
inductive ReceiverStep (s : State) : Action → State → List Event → Prop where
  | calledOff (draw : Draw) (phase : heeds s.receiver = true) (cancelled : s.cancelled = true) :
    ReceiverStep s (.stepReceiver draw) { s with receiver := .closing } []
  /-- A call has given the socket up. -/
  | loses (draw : Draw) (k : SocketId) (phase : s.receiver = .reading k)
    (cancelled : s.cancelled = false) (gone : k ∈ s.released) :
    ReceiverStep s (.stepReceiver draw)
      { s with receiver := .redialing (.begin s.config.backoff s.now) } []
  | forwards (draw : Draw) (k : SocketId) (bytes : List UInt8)
    (phase : s.receiver = .forwarding k bytes) (decoder : s.decoder ≠ .stopped)
    (room : s.inbound.length < inboundCapacity) :
    ReceiverStep s (.stepReceiver draw)
      { s with inbound := s.inbound ++ [.chunk bytes], receiver := .acknowledging k } []
  | announces (draw : Draw) (k : SocketId) (phase : s.receiver = .announcing k)
    (decoder : s.decoder ≠ .stopped) (room : s.inbound.length < inboundCapacity) :
    ReceiverStep s (.stepReceiver draw)
      { s with inbound := s.inbound ++ [.restart], receiver := .reading k } []
  /-- There is no decoder that takes what the receiver holds. -/
  | refused (draw : Draw) (item : Inbound) (hand : inHand s.receiver = [item])
    (decoder : s.decoder = .stopped) :
    ReceiverStep s (.stepReceiver draw) { s with receiver := .closing } []
  | acknowledges (draw : Draw) (k : SocketId) (phase : s.receiver = .acknowledging k)
    (room : Tellable s) :
    ReceiverStep s (.stepReceiver draw)
      { s with status := told s .received, receiver := .reading k } []
  | disconnects (draw : Draw) (error : LinkError) (phase : s.receiver = .disconnecting error)
    (writer : s.writer = none) :
    ReceiverStep s (.stepReceiver draw)
      { s with
        live := none
        connected := false
        released := s.live.toList ++ s.released
        receiver := .reporting error }
      (s.live.toList.map .released)
  | reports (draw : Draw) (error : LinkError) (phase : s.receiver = .reporting error)
    (room : Tellable s) :
    ReceiverStep s (.stepReceiver draw)
      { s with
        status := told s (.failed error)
        receiver := .redialing (.begin s.config.backoff s.now) }
      []
  | dials (draw : Draw) (b : Backoff) (phase : s.receiver = .redialing b)
    (cancelled : s.cancelled = false) :
    ReceiverStep s (.stepReceiver draw) { s with receiver := .dialing b } [.dialStarted s.now]
  | installs (draw : Draw) (phase : s.receiver = .installing) (writer : s.writer = none) :
    ReceiverStep s (.stepReceiver draw)
      { s with
        sockets := s.sockets + 1
        live := some s.sockets
        connected := true
        receiver := .announcing s.sockets }
      [.installed s.sockets]
  | excuses (draw : Draw) (b : Backoff) (error : LinkError) (next : ReceiverPhase)
    (phase : s.receiver = .excusing b error) (room : Tellable s) (paused : Paused s b draw next) :
    ReceiverStep s (.stepReceiver draw)
      { s with status := told s (.failed error), receiver := next } []
  | wakes (draw : Draw) (b : Backoff) (deadline : Instant)
    (phase : s.receiver = .pausing b deadline) (cancelled : s.cancelled = false)
    (due : deadline ≤ s.now) :
    ReceiverStep s (.stepReceiver draw) { s with receiver := .redialing b } []
  | closes (draw : Draw) (phase : s.receiver = .closing) (writer : s.writer = none) :
    ReceiverStep s (.stepReceiver draw)
      { s with
        live := none
        connected := false
        released := s.live.toList ++ s.released
        receiver := .stopped }
      (s.live.toList.map .released)
  | connects (b : Backoff) (phase : s.receiver = .dialing b) (cancelled : s.cancelled = false) :
    ReceiverStep s (.dialed (.ok ())) { s with receiver := .installing } []
  | misses (b : Backoff) (error : LinkError) (phase : s.receiver = .dialing b)
    (cancelled : s.cancelled = false) :
    ReceiverStep s (.dialed (.error error)) { s with receiver := .excusing b error }
      [.dialFailed error]
  | reads (k : SocketId) (chunk : List UInt8) (phase : s.receiver = .reading k)
    (unclosed : s.isClosed k = false) (nonempty : chunk ≠ []) (most : chunk.length ≤ readLimit) :
    ReceiverStep s (.read (.bytes chunk)) { s with receiver := .forwarding k chunk } [.read k chunk]
  | fails (k : SocketId) (result : ReadResult) (error : LinkError) (phase : s.receiver = .reading k)
    (unclosed : s.isClosed k = false) (failure : result.error? = some error) :
    ReceiverStep s (.read result) { s with receiver := .disconnecting error } [.readFailed k error]

/-- What the decoder makes of an item. -/
def handle (parser : Decoder) : Inbound → Decoder × List Datagram
  | .restart => (parser.reset, [])
  | .chunk bytes => parser.decode bytes

/-- What the decoder does in a step. -/
inductive DecoderStep (s : State) : State → List Event → Prop where
  | calledOff (phase : s.decoder = .idle) (cancelled : s.cancelled = true) :
    DecoderStep s s.stopDecoder []
  | takes (item : Inbound) (rest : List Inbound) (phase : s.decoder = .idle)
    (cancelled : s.cancelled = false) (inbound : s.inbound = item :: rest) :
    DecoderStep s
      { s with
        inbound := rest
        parser := (handle s.parser item).1
        decoder := State.publishing (handle s.parser item).2 }
      []
  /-- The receiver is over, and nothing more will come. -/
  | ends (phase : s.decoder = .idle) (cancelled : s.cancelled = false) (inbound : s.inbound = [])
    (final : s.receiver.isOver = true) : DecoderStep s s.stopDecoder []
  | rests (phase : s.decoder = .publishing []) : DecoderStep s { s with decoder := .idle } []
  | publishes (d : Datagram) (rest : List Datagram) (b : Broker Datagram)
    (phase : s.decoder = .publishing (d :: rest)) (offer : s.broker.offer d = (b, .accepted)) :
    DecoderStep s { s with broker := b, decoder := State.publishing rest } [.published d]
  /-- The control loop has stopped. -/
  | refused (d : Datagram) (rest : List Datagram) (phase : s.decoder = .publishing (d :: rest))
    (loop : s.broker.phase = .stopped) : DecoderStep s s.stopDecoder []

/-- A task that watches a subscription of its own, its feed. -/
inductive Watcher where
  | cacheKeeper
  | logger
  deriving DecidableEq

namespace Watcher

def action : Watcher → Action
  | cacheKeeper => .stepCacheKeeper
  | logger => .stepLogger

def feed (s : State) : Watcher → Option SubscriberId
  | cacheKeeper => s.cacheFeed
  | logger => s.logFeed

/-- The cache after the task has seen a datagram. -/
def cache (s : State) (d : Datagram) : Watcher → Cache
  | cacheKeeper => if d.isResponse then s.cache.put d s.now else s.cache
  | logger => s.cache

/-- What can be seen of a datagram that the task sees. -/
def shows (d : Datagram) : Watcher → List Event
  | cacheKeeper => if d.isResponse then [.stored d] else []
  | logger => [.logged d]

end Watcher

/-- A task has no more to look for in a subscription. -/
def Exhausted (s : State) (id : SubscriberId) : Prop :=
  s.cancelled = true ∨ unread s.broker id = [] ∧ s.broker.isFed id = false

/-- What a task that watches a subscription does in a step: it takes a datagram, or it ends. -/
inductive WatcherStep (s : State) (w : Watcher) : State → List Event → Prop where
  | takes (id : SubscriberId) (d : Datagram) (rest : List Datagram) (feed : w.feed s = some id)
    (cancelled : s.cancelled = false) (queue : unread s.broker id = d :: rest) :
    WatcherStep s w { s with broker := (s.broker.receive id).1, cache := w.cache s d } (w.shows d)
  | ends (id : SubscriberId) (feed : w.feed s = some id) (why : Exhausted s id) :
    WatcherStep s w
      { s with
        broker := s.broker.release id
        cacheFeed := if w = .cacheKeeper then none else s.cacheFeed
        logFeed := if w = .logger then none else s.logFeed }
      []

/-- What the reporter does in a step. -/
inductive ReporterStep (s : State) : State → List Event → Prop where
  | calledOff (running : s.reporter = true) (cancelled : s.cancelled = true) :
    ReporterStep s s.stopReporter []
  | hears (rest : List Status) (running : s.reporter = true) (cancelled : s.cancelled = false)
    (status : s.status = .received :: rest) :
    ReporterStep s { s with status := rest, lastReceived := some s.now } []
  | passesOn (error : LinkError) (rest : List Status) (running : s.reporter = true)
    (cancelled : s.cancelled = false) (status : s.status = .failed error :: rest) :
    ReporterStep s { s with status := rest }
      (if s.settings.reportsErrors then [.reported error] else [])
  /-- The receiver is over, and nothing more will come. -/
  | ends (running : s.reporter = true) (cancelled : s.cancelled = false) (status : s.status = [])
    (final : s.receiver.isOver = true) : ReporterStep s s.stopReporter []

/-- Everything that a step of a connection can do. -/
inductive Transition (s : State) : Action → State → List Event → Prop where
  | receiver {action : Action} {s' : State} {events : List Event}
    (step : ReceiverStep s action s' events) : Transition s action s' events
  | decoder {s' : State} {events : List Event} (step : DecoderStep s s' events) :
    Transition s .stepDecoder s' events
  | loop (b : Broker Datagram) (turn : Turn Datagram)
    (turns : s.broker.turn s.cancelled = some (b, turn)) :
    Transition s .stepBroker { s with broker := b } [.turned turn]
  | watcher (w : Watcher) {action : Action} {s' : State} {events : List Event}
    (own : action = w.action) (step : WatcherStep s w s' events) : Transition s action s' events
  | reporter {s' : State} {events : List Event} (step : ReporterStep s s' events) :
    Transition s .stepReporter s' events
  | call {n : CallId} {c : Call} {action : Action} {s' : State} {events : List Event}
    (current : s.calls[n]? = some c) (move : CallMove s n c action s' events) :
    Transition s action s' events
  | filter {n : CallId} {c : Call} {f : Filter} {s' : State} {events : List Event}
    (current : s.calls[n]? = some c) (filter : c.filter = some f) (running : f.running = true)
    (move : FilterMove s n c f s' events) : Transition s (.stepFilter n) s' events
  | begin (job : Job) :
    Transition s (.call job) { s with calls := s.calls ++ [{ job, phase := job.first }] }
      [.called s.calls.length]
  | subscribe :
    Transition s .subscribe { s with broker := s.broker.subscribe.1 }
      [.subscribed s.broker.queues.length]
  | unsubscribe (id : SubscriberId) (held : s.isUserHeld id = true) :
    Transition s (.unsubscribe id) { s with broker := s.broker.release id } []
  | receive (id : SubscriberId) (held : s.isUserHeld id = true)
    (ready : (s.broker.receive id).2 ≠ .waiting) :
    Transition s (.receive id) { s with broker := (s.broker.receive id).1 }
      [.received id (s.broker.receive id).2]
  | shutdown : Transition s .shutdown { s with cancelled := true } []
  | cancelParent :
    Transition s .cancelParent { s with parentCancelled := true, cancelled := true } []
  | wait (time : Instant) (later : s.now ≤ time) :
    Transition s (.wait time) { s with now := time } []

section Receiver

variable {s s' : State} {events : List Event} {draw : Draw}

lemma forall_released (s : State) {P : Event → Prop} (h : ∀ k, P (.released k)) :
    ∀ e ∈ s.live.toList.map Event.released, P e := by
  intro e he
  obtain ⟨k, -, rfl⟩ := List.mem_map.mp he
  exact h k

lemma pushInbound_cases {item : Inbound} {taken : Bool}
    (h : s.pushInbound item = some (s', taken)) :
    (s.decoder = .stopped ∧ s' = s ∧ taken = false) ∨
      (s.decoder ≠ .stopped ∧ s.inbound.length < inboundCapacity ∧
        s' = { s with inbound := s.inbound ++ [item] } ∧ taken = true) := by
  unfold State.pushInbound at h
  split at h
  · rename_i hdecoder
    cases h
    exact .inl ⟨hdecoder, rfl, rfl⟩
  · rename_i hdecoder
    split at h
    · rename_i hroom
      cases h
      exact .inr ⟨hdecoder, hroom, rfl, rfl⟩
    · cases h

lemma pushStatus_cases {item : Status} (h : s.pushStatus item = some s') :
    Tellable s ∧ s' = { s with status := told s item } := by
  unfold State.pushStatus at h
  by_cases hreporter : s.reporter = true
  · rw [if_neg (not_not.mpr hreporter)] at h
    split at h
    · rename_i hroom
      cases h
      exact ⟨fun _ => hroom, by rw [told, if_pos hreporter]⟩
    · cases h
  · rw [if_pos hreporter] at h
    cases h
    exact ⟨fun hn => absurd hn hreporter, by rw [told, if_neg hreporter]⟩

lemma pause_paused (s : State) (b : Backoff) (draw : Draw) :
    ∃ next, Paused s b draw next ∧ s.pause b draw = { s with receiver := next } := by
  rcases hn : b.next s.now draw with ⟨b', _ | _ | delay⟩
  · exact ⟨_, .breaks b' _ hn, by simp only [State.pause, hn]⟩
  · exact ⟨_, .givesUp b' hn, by simp only [State.pause, hn]⟩
  · exact ⟨_, .sleeps b' delay hn, by simp only [State.pause, hn]⟩

theorem receiverStep_stepReceiver (h : s.stepReceiver draw = some (s', events)) :
    ReceiverStep s (.stepReceiver draw) s' events := by
  cases hr : s.receiver with
  | reading k =>
    simp only [State.stepReceiver, hr] at h
    split at h
    · rename_i hcancelled
      cases h
      exact .calledOff draw (by rw [hr]; rfl) hcancelled
    · rename_i hcancelled
      split at h
      · rename_i hclosed
        cases h
        refine .loses draw k hr (by simpa using hcancelled) ?_
        simpa [State.isClosed, hcancelled] using hclosed
      · cases h
  | forwarding k bytes =>
    simp only [State.stepReceiver, hr, Option.map_eq_some_iff] at h
    obtain ⟨⟨s₁, taken⟩, hp, h⟩ := h
    rcases pushInbound_cases hp with ⟨hdecoder, rfl, rfl⟩ | ⟨hdecoder, hroom, rfl, rfl⟩
    · cases h
      exact .refused draw (.chunk bytes) (by rw [hr]; rfl) hdecoder
    · cases h
      exact .forwards draw k bytes hr hdecoder hroom
  | acknowledging k =>
    simp only [State.stepReceiver, hr, Option.map_eq_some_iff] at h
    obtain ⟨s₁, hp, h⟩ := h
    obtain ⟨hroom, rfl⟩ := pushStatus_cases hp
    cases h
    exact .acknowledges draw k hr hroom
  | disconnecting error =>
    simp only [State.stepReceiver, hr] at h
    split at h
    · cases h
    · rename_i hwriter
      cases h
      exact .disconnects draw error hr (by simpa using hwriter)
  | reporting error =>
    simp only [State.stepReceiver, hr, Option.map_eq_some_iff] at h
    obtain ⟨s₁, hp, h⟩ := h
    obtain ⟨hroom, rfl⟩ := pushStatus_cases hp
    cases h
    exact .reports draw error hr hroom
  | redialing b =>
    simp only [State.stepReceiver, hr] at h
    split at h
    · rename_i hcancelled
      cases h
      exact .calledOff draw (by rw [hr]; rfl) hcancelled
    · rename_i hcancelled
      cases h
      exact .dials draw b hr (by simpa using hcancelled)
  | dialing b =>
    simp only [State.stepReceiver, hr] at h
    split at h
    · rename_i hcancelled
      cases h
      exact .calledOff draw (by rw [hr]; rfl) hcancelled
    · cases h
  | installing =>
    simp only [State.stepReceiver, hr] at h
    split at h
    · cases h
    · rename_i hwriter
      cases h
      exact .installs draw hr (by simpa using hwriter)
  | announcing k =>
    simp only [State.stepReceiver, hr, Option.map_eq_some_iff] at h
    obtain ⟨⟨s₁, taken⟩, hp, h⟩ := h
    rcases pushInbound_cases hp with ⟨hdecoder, rfl, rfl⟩ | ⟨hdecoder, hroom, rfl, rfl⟩
    · cases h
      exact .refused draw .restart (by rw [hr]; rfl) hdecoder
    · cases h
      exact .announces draw k hr hdecoder hroom
  | excusing b error =>
    simp only [State.stepReceiver, hr, Option.map_eq_some_iff] at h
    obtain ⟨s₁, hp, h⟩ := h
    obtain ⟨hroom, rfl⟩ := pushStatus_cases hp
    obtain ⟨next, hpaused, he⟩ := pause_paused { s with status := told s (.failed error) } b draw
    rw [he] at h
    cases h
    refine .excuses draw b error next hr hroom ?_
    cases hpaused with
    | sleeps b' delay asked => exact .sleeps b' delay asked
    | givesUp b' asked => exact .givesUp b' asked
    | breaks b' fault asked => exact .breaks b' fault asked
  | pausing b deadline =>
    simp only [State.stepReceiver, hr] at h
    split at h
    · rename_i hcancelled
      cases h
      exact .calledOff draw (by rw [hr]; rfl) hcancelled
    · rename_i hcancelled
      split at h
      · rename_i hdue
        cases h
        exact .wakes draw b deadline hr (by simpa using hcancelled) hdue
      · cases h
  | closing =>
    simp only [State.stepReceiver, hr] at h
    split at h
    · cases h
    · rename_i hwriter
      cases h
      exact .closes draw hr (by simpa using hwriter)
  | stopped =>
    simp only [State.stepReceiver, hr] at h
    cases h
  | broken fault =>
    simp only [State.stepReceiver, hr] at h
    cases h

theorem receiverStep_dialed {result : LinkResult Unit} (h : s.dialed result = some (s', events)) :
    ReceiverStep s (.dialed result) s' events := by
  unfold State.dialed at h
  split at h
  · rename_i b hr hcancelled
    cases h
    exact .connects b hr hcancelled
  · rename_i b error hr hcancelled
    cases h
    exact .misses b error hr hcancelled
  · cases h

theorem receiverStep_read {result : ReadResult} (h : s.read result = some (s', events)) :
    ReceiverStep s (.read result) s' events := by
  unfold State.read at h
  split at h
  · rename_i k hr
    split at h
    · cases h
    · rename_i hclosed
      have hclosed : s.isClosed k = false := by simpa using hclosed
      split at h
      · rename_i chunk
        split at h
        · cases h
        · rename_i hchunk
          rw [not_or, Nat.not_lt] at hchunk
          cases h
          exact .reads k chunk hr hclosed hchunk.1 hchunk.2
      · cases h
        exact .fails k .endOfStream _ hr hclosed rfl
      · rename_i error
        cases h
        exact .fails k (.failed error) _ hr hclosed rfl
  · cases h

lemma live_of_heeds {r : ReceiverPhase} (h : heeds r = true) : r.isOver = false := by
  cases r with
  | stopped | broken => cases h
  | _ => rfl

lemma live_of_inHand {r : ReceiverPhase} {item : Inbound} (h : inHand r = [item]) :
    r.isOver = false := by
  cases r with
  | stopped | broken => cases h
  | _ => rfl

lemma live_receiver {action : Action} (h : ReceiverStep s action s' events) :
    s.receiver.isOver = false := by
  cases h with
  | calledOff draw phase => exact live_of_heeds phase
  | refused draw item hand => exact live_of_inHand hand
  | loses _ _ phase | forwards _ _ _ phase | announces _ _ phase | acknowledges _ _ phase
    | disconnects _ _ phase | reports _ _ phase | dials _ _ phase | installs _ phase
    | excuses _ _ _ _ phase | wakes _ _ _ phase | closes _ phase | connects _ phase
    | misses _ _ phase | reads _ _ phase | fails _ _ _ phase =>
    rw [phase]
    rfl

end Receiver

section Tasks

variable {s s' : State} {events : List Event}

lemma publishing_nil : State.publishing [] = .idle := rfl

theorem decoderStep_stepDecoder (h : s.stepDecoder = some (s', events)) :
    DecoderStep s s' events := by
  cases hd : s.decoder with
  | idle =>
    simp only [State.stepDecoder, hd] at h
    split at h
    · rename_i hcancelled
      cases h
      exact .calledOff hd hcancelled
    · rename_i hcancelled
      have hcancelled : s.cancelled = false := by simpa using hcancelled
      split at h
      · rename_i rest hi
        cases h
        have htakes := DecoderStep.takes .restart rest hd hcancelled hi
        simpa only [handle, publishing_nil, ← hd] using htakes
      · rename_i bytes rest hi
        cases h
        exact .takes (.chunk bytes) rest hd hcancelled hi
      · rename_i hi
        split at h
        · rename_i hover
          cases h
          exact .ends hd hcancelled hi hover
        · cases h
  | publishing datagrams =>
    cases datagrams with
    | nil =>
      simp only [State.stepDecoder, hd] at h
      cases h
      exact .rests hd
    | cons d rest =>
      simp only [State.stepDecoder, hd] at h
      split at h
      · rename_i b hoffer
        cases h
        exact .publishes d rest b hd hoffer
      · cases h
      · rename_i b hoffer
        cases h
        refine .refused d rest hd ?_
        unfold Broker.offer at hoffer
        split at hoffer
        · rename_i hphase
          exact hphase
        · cases hoffer
        · cases hoffer
  | stopped =>
    simp only [State.stepDecoder, hd] at h
    cases h

lemma watch_cases (s : State) (id : SubscriberId) :
    (∃ d rest, s.cancelled = false ∧ unread s.broker id = d :: rest ∧
      s.watch id = ({ s with broker := (s.broker.receive id).1 }, .message d)) ∨
    (unread s.broker id = [] ∧ s.watch id = (s, .waiting)) ∨
    (Exhausted s id ∧ s.watch id = (s, .closed)) := by
  unfold State.watch
  by_cases hc : s.cancelled = true
  · exact .inr (.inr ⟨.inl hc, if_pos hc⟩)
  · rw [if_neg hc]
    cases hq : unread s.broker id with
    | nil =>
      rw [receive_of_empty hq]
      cases hfed : s.broker.isFed id with
      | true => exact .inr (.inl ⟨rfl, by simp⟩)
      | false => exact .inr (.inr ⟨.inr ⟨hq, hfed⟩, by simp⟩)
    | cons d rest =>
      rw [receive_of_unread hq]
      exact .inl ⟨d, rest, by simpa using hc, rfl, rfl⟩

theorem watcherStep_stepCacheKeeper (h : s.stepCacheKeeper = some (s', events)) :
    WatcherStep s .cacheKeeper s' events := by
  simp only [State.stepCacheKeeper, Option.bind_eq_bind, Option.bind_eq_some_iff] at h
  obtain ⟨id, hid, h⟩ := h
  rcases watch_cases s id with ⟨d, rest, hc, hq, hw⟩ | ⟨_, hw⟩ | ⟨hwhy, hw⟩
  · rw [hw] at h
    have htakes := WatcherStep.takes (w := .cacheKeeper) id d rest hid hc hq
    simp only [Watcher.cache, Watcher.shows] at htakes
    cases hd : d.isResponse with
    | true =>
      simp only [hd, if_true] at h htakes
      cases h
      exact htakes
    | false =>
      simp only [hd, Bool.false_eq_true, if_false] at h htakes
      cases h
      exact htakes
  · rw [hw] at h
    cases h
  · rw [hw] at h
    cases h
    exact .ends id hid hwhy

theorem watcherStep_stepLogger (h : s.stepLogger = some (s', events)) :
    WatcherStep s .logger s' events := by
  simp only [State.stepLogger, Option.bind_eq_bind, Option.bind_eq_some_iff] at h
  obtain ⟨id, hid, h⟩ := h
  rcases watch_cases s id with ⟨d, rest, hc, hq, hw⟩ | ⟨_, hw⟩ | ⟨hwhy, hw⟩
  · rw [hw] at h
    cases h
    exact .takes id d rest hid hc hq
  · rw [hw] at h
    cases h
  · rw [hw] at h
    cases h
    exact .ends id hid hwhy

theorem reporterStep_stepReporter (h : s.stepReporter = some (s', events)) :
    ReporterStep s s' events := by
  unfold State.stepReporter at h
  split at h
  · cases h
  · rename_i hreporter
    have hreporter : s.reporter = true := not_not.mp hreporter
    split at h
    · rename_i hcancelled
      cases h
      exact .calledOff hreporter hcancelled
    · rename_i hcancelled
      have hcancelled : s.cancelled = false := by simpa using hcancelled
      split at h
      · rename_i rest hq
        cases h
        exact .hears rest hreporter hcancelled hq
      · rename_i error rest hq
        cases h
        exact .passesOn error rest hreporter hcancelled hq
      · rename_i hq
        split at h
        · rename_i hover
          cases h
          exact .ends hreporter hcancelled hq hover
        · cases h

end Tasks

section Steps

variable {s s' : State} {action : Action} {events : List Event} {id : SubscriberId}

lemma turn_cases (h : s.step .stepBroker = some (s', events)) :
    ∃ b turn, s.broker.turn s.cancelled = some (b, turn) ∧ s' = { s with broker := b } ∧
      events = [.turned turn] := by
  simp only [State.step, State.stepBroker, Option.map_eq_some_iff] at h
  obtain ⟨⟨b, turn⟩, hturns, h⟩ := h
  cases h
  exact ⟨b, turn, hturns, rfl, rfl⟩

lemma unsubscribe_cases (h : s.step (.unsubscribe id) = some (s', events)) :
    s.isUserHeld id = true ∧ s' = { s with broker := s.broker.release id } ∧ events = [] := by
  simp only [State.step] at h
  split at h
  · rename_i held
    cases h
    exact ⟨held, rfl, rfl⟩
  · cases h

lemma receive_cases (h : s.step (.receive id) = some (s', events)) :
    s.isUserHeld id = true ∧ (s.broker.receive id).2 ≠ .waiting ∧
      s' = { s with broker := (s.broker.receive id).1 } ∧
      events = [.received id (s.broker.receive id).2] := by
  simp only [State.step] at h
  split at h
  · rename_i held
    split at h
    · cases h
    · rename_i b result hready hr
      cases h
      rw [hr]
      exact ⟨held, hready, rfl, rfl⟩
  · cases h

lemma wait_cases {time : Instant} (h : s.step (.wait time) = some (s', events)) :
    s.now ≤ time ∧ s' = { s with now := time } ∧ events = [] := by
  simp only [State.step] at h
  split at h
  · rename_i hlater
    cases h
    exact ⟨hlater, rfl, rfl⟩
  · cases h

/-- Every step of a connection is in the list. -/
theorem transition_step (h : s.step action = some (s', events)) :
    Transition s action s' events := by
  cases action with
  | stepReceiver draw => exact .receiver (receiverStep_stepReceiver h)
  | dialed result => exact .receiver (receiverStep_dialed h)
  | read result => exact .receiver (receiverStep_read h)
  | stepDecoder => exact .decoder (decoderStep_stepDecoder h)
  | stepBroker =>
    obtain ⟨b, turn, hturns, rfl, rfl⟩ := turn_cases h
    exact .loop b turn hturns
  | stepCacheKeeper => exact .watcher .cacheKeeper rfl (watcherStep_stepCacheKeeper h)
  | stepLogger => exact .watcher .logger rfl (watcherStep_stepLogger h)
  | stepReporter => exact .reporter (reporterStep_stepReporter h)
  | stepCall n =>
    obtain ⟨c, hc, hm⟩ := callMove_stepCall h
    exact .call hc hm
  | wrote n count =>
    obtain ⟨c, hc, hm⟩ := callMove_wrote h
    exact .call hc hm
  | refused n error =>
    obtain ⟨c, hc, hm⟩ := callMove_refused h
    exact .call hc hm
  | flushed n =>
    obtain ⟨c, hc, hm⟩ := callMove_flushed h
    exact .call hc hm
  | dropCall n =>
    obtain ⟨c, hc, hm⟩ := callMove_dropCall h
    exact .call hc hm
  | stepFilter n =>
    obtain ⟨c, f, hc, hf, hrunning, hm⟩ := filterMove_stepFilter h
    exact .filter hc hf hrunning hm
  | call job =>
    cases h
    exact .begin job
  | subscribe =>
    cases h
    exact .subscribe
  | unsubscribe id =>
    obtain ⟨held, rfl, rfl⟩ := unsubscribe_cases h
    exact .unsubscribe id held
  | receive id =>
    obtain ⟨held, hready, rfl, rfl⟩ := receive_cases h
    exact .receive id held hready
  | shutdown =>
    cases h
    exact .shutdown
  | cancelParent =>
    cases h
    exact .cancelParent
  | wait time =>
    obtain ⟨hlater, rfl, rfl⟩ := wait_cases h
    exact .wait time hlater

end Steps
end InverterLink.Proofs
