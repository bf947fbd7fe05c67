import InverterLink.Proofs.ConnectionSteps

/-!
# What the receiver and the decoder of a connection do

Most actions of a connection leave its receiver, its decoder and what is on the way between them
alone. The others are few: the receiver gets a socket or a chunk, hands it over or gives a socket
up, and the decoder takes an item or publishes a datagram. `Traffic` lists them, and every step of
a connection that is not cancelled is one of them.
-/

namespace InverterLink.Proofs
open Connection

section Broker

variable {μ : Type}

/-- Whether the control loop runs, and how many handles it has. -/
def brokerLife (b : Broker μ) : LoopPhase × Nat := (b.phase, b.handles)

@[simp] lemma brokerLife_ask (b : Broker μ) (request : Request) :
    brokerLife (b.ask request) = brokerLife b := by
  unfold Broker.ask
  split <;> rfl

@[simp] lemma brokerLife_subscribe (b : Broker μ) :
    brokerLife b.subscribe.1 = brokerLife b := by
  simp only [Broker.subscribe, brokerLife_ask]
  rfl

@[simp] lemma brokerLife_release (b : Broker μ) (id : SubscriberId) :
    brokerLife (b.release id) = brokerLife b := by
  unfold Broker.release
  split
  · rw [brokerLife_ask]
    rfl
  · rfl

@[simp] lemma brokerLife_receive (b : Broker μ) (id : SubscriberId) :
    brokerLife (b.receive id).1 = brokerLife b := by
  unfold Broker.receive
  split <;> rfl

lemma offer_of_running {b : Broker μ} (h : b.phase = .running) (m : μ) :
    (∃ b', b.offer m = (b', .accepted) ∧ brokerLife b' = brokerLife b) ∨
      b.offer m = (b, .full) := by
  unfold Broker.offer
  cases hp : b.pending with
  | none => exact .inl ⟨{ b with pending := some m }, by simp only [h], rfl⟩
  | some m' => exact .inr (by simp only [h])

lemma brokerLife_turn {b b' : Broker μ} {t : Turn μ} (hh : b.handles ≠ 0)
    (h : b.turn false = some (b', t)) : brokerLife b' = brokerLife b := by
  unfold Broker.turn at h
  split at h
  · cases h
  · simp only [Bool.false_eq_true, if_false] at h
    split at h
    · cases h
      rfl
    · cases h
      rfl
    · cases h

end Broker

/-- The part of a connection that the bytes of its sockets pass through. -/
structure Core where
  cancelled : Bool
  sockets : Nat
  receiver : ReceiverPhase
  inbound : List Inbound
  decoder : DecoderPhase
  parser : Decoder
  broker : LoopPhase × Nat

def core (s : State) : Core :=
  ⟨s.cancelled, s.sockets, s.receiver, s.inbound, s.decoder, s.parser, brokerLife s.broker⟩

/-- An event that has nothing to do with the bytes of a socket. -/
def Quiet : Event → Prop
  | .installed _ | .read _ _ | .published _ => False
  | _ => True

/-- A step leaves the way of the bytes alone, and shows nothing that has to do with it. -/
structure KeepsCore (s s' : State) (events : List Event) : Prop where
  core : core s' = core s
  quiet : ∀ e ∈ events, Quiet e

section Frames

variable {s s' : State} {action : Action} {events : List Event}

lemma core_broker (s : State) {b : Broker Datagram} (h : brokerLife b = brokerLife s.broker) :
    core { s with broker := b } = core s := by
  simp [core, h]

lemma keepsCore_callMove {n : CallId} {c : Call} (h : CallMove s n c action s' events) :
    KeepsCore s s' events := by
  cases h with
  | advance _ phase writer _ step =>
    refine ⟨rfl, ?_⟩
    cases step <;> simp [Quiet]
  | fail socket error phase =>
    refine ⟨rfl, fun e he => ?_⟩
    simp only [List.mem_cons, List.mem_append, List.not_mem_nil, or_false] at he
    rcases he with rfl | he | rfl
    · trivial
    · exact forall_released s (fun _ => trivial) e he
    · trivial
  | join phase => exact ⟨core_broker s (brokerLife_subscribe s.broker), by simp [Quiet]⟩

lemma keepsCore_filterMove {n : CallId} {c : Call} {f : Filter}
    (h : FilterMove s n c f s' events) : KeepsCore s s' events := by
  cases h with
  | look d rest phase queue =>
    exact ⟨core_broker s (brokerLife_receive s.broker f.subscription), by simp [Quiet]⟩
  | close why => exact ⟨core_broker s (brokerLife_release s.broker f.subscription), by simp⟩

lemma keepsCore_watcher {w : Watcher} (h : WatcherStep s w s' events) : KeepsCore s s' events := by
  cases h with
  | takes id d rest feed cancelled queue =>
    refine ⟨core_broker s (brokerLife_receive s.broker id), ?_⟩
    cases w with
    | cacheKeeper =>
      simp only [Watcher.shows]
      split <;> simp [Quiet]
    | logger => simp [Watcher.shows, Quiet]
  | ends id feed why => exact ⟨core_broker s (brokerLife_release s.broker id), by simp⟩

lemma keepsCore_reporter (h : ReporterStep s s' events) : KeepsCore s s' events := by
  cases h with
  | passesOn error rest running cancelled status =>
    refine ⟨rfl, ?_⟩
    split <;> simp [Quiet]
  | _ => exact ⟨rfl, by simp⟩

end Frames

/-- What the decoder has not published of the last chunk. -/
def unpublished : DecoderPhase → List Datagram
  | .publishing rest => rest
  | _ => []

/-- What is on the way from the sockets to the broker: what the receiver holds of the current
socket, what waits for the decoder, and what the decoder has to publish. -/
structure Pipe where
  sockets : Nat
  current : Option SocketId
  hand : List Inbound
  inbound : List Inbound
  parser : Decoder
  unpublished : List Datagram

def pipe (s : State) : Pipe :=
  ⟨s.sockets, s.receiver.socket?, inHand s.receiver, s.inbound, s.parser, unpublished s.decoder⟩

/-- What can happen on the way from the sockets to the broker: the items that the decoder takes,
and the events that show it. -/
inductive Traffic : Pipe → List Inbound → List Event → Pipe → Prop where
  /-- Nothing happens there. -/
  | aside (p : Pipe) (events : List Event) (h : ∀ e ∈ events, Quiet e) : Traffic p [] events p
  /-- The receiver gives its socket up. -/
  | leave (p : Pipe) (events : List Event) (hand : p.hand = []) (h : ∀ e ∈ events, Quiet e) :
    Traffic p [] events { p with current := none }
  /-- The receiver installs a socket, and holds the order to start over. -/
  | install (p : Pipe) (hand : p.hand = []) :
    Traffic p [] [.installed p.sockets]
      { p with sockets := p.sockets + 1, current := some p.sockets, hand := [.restart] }
  /-- The receiver reads a chunk. -/
  | read (p : Pipe) (k : SocketId) (bytes : List UInt8) (current : p.current = some k)
    (hand : p.hand = []) :
    Traffic p [] [.read k bytes] { p with hand := [.chunk bytes] }
  /-- The receiver hands over what it holds. -/
  | push (p : Pipe) : Traffic p [] [] { p with hand := [], inbound := p.inbound ++ p.hand }
  /-- The decoder takes the oldest item. -/
  | take (p : Pipe) (item : Inbound) (rest : List Inbound) (inbound : p.inbound = item :: rest)
    (unpublished : p.unpublished = []) :
    Traffic p [item] []
      { p with
        inbound := rest
        parser := (handle p.parser item).1
        unpublished := (handle p.parser item).2 }
  /-- The decoder publishes a datagram. -/
  | publish (p : Pipe) (d : Datagram) (rest : List Datagram)
    (unpublished : p.unpublished = d :: rest) :
    Traffic p [] [.published d] { p with unpublished := rest }

/-- The item that the decoder takes in a step. -/
def taken (s : State) (action : Action) : List Inbound :=
  match action, s.decoder with
  | .stepDecoder, .idle => if s.cancelled then [] else s.inbound.take 1
  | _, _ => []

/-- The action cancels the connection. -/
def cancels : Action → Bool
  | .shutdown | .cancelParent => true
  | _ => false

/-- What keeps the tasks of a connection at work until it is cancelled. -/
structure Working (s : State) : Prop where
  cancelled : s.cancelled = false
  loop : s.broker.phase = .running
  handles : s.broker.handles ≠ 0
  closing : s.receiver ≠ .closing
  stopped : s.receiver ≠ .stopped
  decoder : s.decoder = .stopped → s.receiver.isOver = true ∧ s.inbound = []

section Steps

variable {s s' : State} {action : Action} {events : List Event}

lemma keeps_working (hw : Working s) (hc : s'.cancelled = s.cancelled)
    (hb : brokerLife s'.broker = brokerLife s.broker) (hclosing : s'.receiver ≠ .closing)
    (hstopped : s'.receiver ≠ .stopped)
    (hd : s'.decoder = .stopped → s'.receiver.isOver = true ∧ s'.inbound = []) : Working s' := by
  simp only [brokerLife, Prod.mk.injEq] at hb
  obtain ⟨hloop, hhandles⟩ := hb
  constructor
  · rw [hc, hw.cancelled]
  · rw [hloop, hw.loop]
  · rw [hhandles]
    exact hw.handles
  · exact hclosing
  · exact hstopped
  · exact hd

lemma traffic_of_pipe (hp : pipe s' = pipe s) (hq : ∀ e ∈ events, Quiet e) :
    Traffic (pipe s) [] events (pipe s') := by
  rw [hp]
  exact .aside _ _ hq

lemma traffic_of_keepsCore (hw : Working s) (h : KeepsCore s s' events) :
    Working s' ∧ Traffic (pipe s) [] events (pipe s') := by
  have hcore := h.core
  simp only [core, Core.mk.injEq] at hcore
  obtain ⟨hc, hs, hr, hi, hd, hp, hb⟩ := hcore
  refine ⟨keeps_working hw hc hb ?_ ?_ ?_, traffic_of_pipe ?_ h.quiet⟩
  · rw [hr]
    exact hw.closing
  · rw [hr]
    exact hw.stopped
  · rw [hr, hd, hi]
    exact hw.decoder
  · simp only [pipe, hs, hr, hi, hd, hp]

lemma decoder_runs (hw : Working s) (h : s.receiver.isOver = false) : s.decoder ≠ .stopped := by
  intro hd
  rw [(hw.decoder hd).1] at h
  cases h

lemma working_of_receiver {r : ReceiverPhase} {n : Nat} {i : List Inbound} (hw : Working s)
    (ho : s.receiver.isOver = false)
    (h : core s' = { core s with sockets := n, receiver := r, inbound := i })
    (hclosing : r ≠ .closing) (hstopped : r ≠ .stopped) : Working s' := by
  simp only [core, Core.mk.injEq] at h
  obtain ⟨hc, -, hr, -, hd, -, hb⟩ := h
  apply keeps_working hw hc hb
  · rw [hr]
    exact hclosing
  · rw [hr]
    exact hstopped
  · intro hd'
    exact absurd (hd ▸ hd') (decoder_runs hw ho)

lemma pipe_of_receiver {r : ReceiverPhase} (h : core s' = { core s with receiver := r }) :
    pipe s' = { pipe s with current := r.socket?, hand := inHand r } := by
  simp only [core, Core.mk.injEq] at h
  obtain ⟨-, hs, hr, hi, hd, hp, -⟩ := h
  simp only [pipe, hs, hr, hi, hd, hp]

lemma traffic_on {r₀ r : ReceiverPhase} (hw : Working s) (hr : s.receiver = r₀)
    (h : core s' = { core s with receiver := r }) (ho : r₀.isOver = false)
    (hclosing : r ≠ .closing) (hstopped : r ≠ .stopped) (hsocket : r.socket? = r₀.socket?)
    (hhand : inHand r = inHand r₀) (hq : ∀ e ∈ events, Quiet e) :
    Working s' ∧ Traffic (pipe s) [] events (pipe s') := by
  have hpipe : pipe s' = pipe s := by
    rw [pipe_of_receiver h, hsocket, hhand, ← hr]
    rfl
  exact ⟨working_of_receiver hw (hr ▸ ho) h hclosing hstopped, traffic_of_pipe hpipe hq⟩

lemma traffic_leave {r₀ r : ReceiverPhase} (hw : Working s) (hr : s.receiver = r₀)
    (h : core s' = { core s with receiver := r }) (ho : r₀.isOver = false)
    (hclosing : r ≠ .closing) (hstopped : r ≠ .stopped) (hsocket : r.socket? = none)
    (hhand : inHand r = []) (hhand₀ : inHand r₀ = []) (hq : ∀ e ∈ events, Quiet e) :
    Working s' ∧ Traffic (pipe s) [] events (pipe s') := by
  have hnone : (pipe s).hand = [] := by
    rw [← hhand₀, ← hr]
    rfl
  have hpipe : pipe s' = { pipe s with current := none } := by
    rw [pipe_of_receiver h, hsocket, hhand, ← hnone]
  rw [hpipe]
  exact ⟨working_of_receiver hw (hr ▸ ho) h hclosing hstopped, .leave (pipe s) events hnone hq⟩

lemma traffic_push {r₀ r : ReceiverPhase} {item : Inbound} (hw : Working s) (hr : s.receiver = r₀)
    (ho : r₀.isOver = false) (hclosing : r ≠ .closing) (hstopped : r ≠ .stopped)
    (hsocket : r.socket? = r₀.socket?) (hhand : inHand r = []) (hhand₀ : inHand r₀ = [item]) :
    Working { s with inbound := s.inbound ++ [item], receiver := r } ∧
      Traffic (pipe s) [] [] (pipe { s with inbound := s.inbound ++ [item], receiver := r }) := by
  have hpipe : pipe { s with inbound := s.inbound ++ [item], receiver := r } =
      { pipe s with hand := [], inbound := (pipe s).inbound ++ (pipe s).hand } := by
    simp only [pipe, hr, hsocket, hhand, hhand₀]
  refine ⟨working_of_receiver hw (hr ▸ ho) rfl hclosing hstopped, ?_⟩
  rw [hpipe]
  exact .push (pipe s)

lemma phase_of_paused {b : Backoff} {draw : Draw} {r : ReceiverPhase} (h : Paused s b draw r) :
    r.socket? = none ∧ inHand r = [] ∧ r ≠ .closing ∧ r ≠ .stopped := by
  cases h <;> exact ⟨rfl, rfl, nofun, nofun⟩

theorem traffic_receiver (hw : Working s) (h : ReceiverStep s action s' events) :
    Working s' ∧ Traffic (pipe s) [] events (pipe s') := by
  cases h with
  -- only cancellation leads to the last two phases
  | calledOff draw phase cancelled => exact absurd (hw.cancelled.symm.trans cancelled) nofun
  | refused draw item hand decoder => exact absurd decoder (decoder_runs hw (live_of_inHand hand))
  | closes draw phase writer => exact absurd phase hw.closing
  | loses draw k phase cancelled gone =>
    exact traffic_leave hw phase rfl rfl nofun nofun rfl rfl rfl (by simp)
  | forwards draw k bytes phase decoder room =>
    exact traffic_push hw phase rfl nofun nofun rfl rfl rfl
  | announces draw k phase decoder room => exact traffic_push hw phase rfl nofun nofun rfl rfl rfl
  | acknowledges draw k phase room =>
    exact traffic_on hw phase rfl rfl nofun nofun rfl rfl (by simp)
  -- the socket was given up when the read failed
  | disconnects draw error phase writer =>
    exact traffic_on hw phase rfl rfl nofun nofun rfl rfl
      (forall_released s fun _ => trivial)
  | reports draw error phase room =>
    exact traffic_on hw phase rfl rfl nofun nofun rfl rfl (by simp)
  | dials draw b phase cancelled =>
    exact traffic_on hw phase rfl rfl nofun nofun rfl rfl (by simp [Quiet])
  | installs draw phase writer =>
    refine ⟨working_of_receiver hw (by rw [phase]; rfl) rfl nofun nofun, ?_⟩
    have ht := Traffic.install (pipe s) (by simp [pipe, phase, inHand])
    simpa [pipe, phase, inHand, ReceiverPhase.socket?] using ht
  | excuses draw b error next phase room paused =>
    obtain ⟨hsocket, hhand, hclosing, hstopped⟩ := phase_of_paused paused
    exact traffic_on hw phase rfl rfl hclosing hstopped hsocket hhand (by simp)
  | wakes draw b deadline phase cancelled due =>
    exact traffic_on hw phase rfl rfl nofun nofun rfl rfl (by simp)
  | connects b phase cancelled =>
    exact traffic_on hw phase rfl rfl nofun nofun rfl rfl (by simp)
  | misses b error phase cancelled =>
    exact traffic_on hw phase rfl rfl nofun nofun rfl rfl (by simp [Quiet])
  | reads k chunk phase unclosed nonempty most =>
    refine ⟨working_of_receiver hw (by rw [phase]; rfl) rfl nofun nofun, ?_⟩
    have ht := Traffic.read (pipe s) k chunk (by simp [pipe, phase, ReceiverPhase.socket?])
      (by simp [pipe, phase, inHand])
    simpa [pipe, phase, inHand, ReceiverPhase.socket?] using ht
  | fails k result error phase unclosed failure =>
    exact traffic_leave hw phase rfl rfl nofun nofun rfl rfl rfl (by simp [Quiet])

lemma unpublished_publishing (datagrams : List Datagram) :
    unpublished (State.publishing datagrams) = datagrams := by
  unfold State.publishing
  split
  · rename_i h
    rw [h]
    rfl
  · rfl

lemma publishing_ne_stopped (datagrams : List Datagram) :
    State.publishing datagrams ≠ .stopped := by
  unfold State.publishing
  split <;> nofun

theorem traffic_decoder (hw : Working s) (h : DecoderStep s s' events) :
    Working s' ∧ Traffic (pipe s) (taken s .stepDecoder) events (pipe s') := by
  cases h with
  | calledOff phase cancelled => exact absurd (hw.cancelled.symm.trans cancelled) nofun
  | takes item rest phase cancelled inbound =>
    refine ⟨keeps_working hw rfl rfl hw.closing hw.stopped
      (fun h => absurd h (publishing_ne_stopped _)), ?_⟩
    have ht := Traffic.take (pipe s) item rest inbound (by simp [pipe, phase, unpublished])
    simpa [taken, phase, cancelled, inbound, pipe, unpublished_publishing] using ht
  | ends phase cancelled inbound final =>
    refine ⟨keeps_working hw rfl rfl hw.closing hw.stopped (fun _ => ⟨final, rfl⟩), ?_⟩
    have ht := Traffic.aside (pipe s) [] (by simp)
    simpa [taken, phase, cancelled, inbound, pipe, State.stopDecoder, unpublished] using ht
  | rests phase =>
    have ht : Traffic (pipe s) [] [] (pipe { s with decoder := .idle }) :=
      traffic_of_pipe (by simp [pipe, phase, unpublished]) (by simp)
    refine ⟨keeps_working hw rfl rfl hw.closing hw.stopped nofun, ?_⟩
    simpa [taken, phase] using ht
  | publishes d rest b phase offer =>
    -- a running control loop takes the datagram or has no room for it; it refuses none
    have hb : brokerLife b = brokerLife s.broker := by
      rcases offer_of_running hw.loop d with ⟨b', ho, hb⟩ | ho
      · cases ho.symm.trans offer
        exact hb
      · cases ho.symm.trans offer
    refine ⟨keeps_working hw rfl hb hw.closing hw.stopped
      (fun h => absurd h (publishing_ne_stopped _)), ?_⟩
    have ht := Traffic.publish (pipe s) d rest (by simp [pipe, phase, unpublished])
    simpa [taken, phase, pipe, unpublished_publishing] using ht
  | refused d rest phase loop => exact absurd (hw.loop.symm.trans loop) nofun

lemma taken_nil (h : action ≠ .stepDecoder) : taken s action = [] := by
  unfold taken
  split
  · exact absurd rfl h
  · rfl

lemma receiver_not_decoder (h : ReceiverStep s action s' events) : action ≠ .stepDecoder := by
  cases h <;> nofun

lemma callMove_not_decoder {n : CallId} {c : Call} (h : CallMove s n c action s' events) :
    action ≠ .stepDecoder := by
  cases h with
  | advance _ _ _ _ step => cases step <;> nofun
  | _ => nofun

/-- Every step of a working connection that does not cancel it is traffic. -/
theorem traffic_step (hw : Working s) (h : s.step action = some (s', events))
    (hc : cancels action = false) :
    Working s' ∧ Traffic (pipe s) (taken s action) events (pipe s') := by
  have hkept : KeepsCore s s' events → action ≠ .stepDecoder →
      Working s' ∧ Traffic (pipe s) (taken s action) events (pipe s') := by
    intro hk ha
    rw [taken_nil ha]
    exact traffic_of_keepsCore hw hk
  cases transition_step h with
  | receiver step =>
    rw [taken_nil (receiver_not_decoder step)]
    exact traffic_receiver hw step
  | decoder step => exact traffic_decoder hw step
  | loop b turn turns =>
    rw [hw.cancelled] at turns
    exact hkept ⟨core_broker s (brokerLife_turn hw.handles turns), by simp [Quiet]⟩ nofun
  | watcher w own step => exact hkept (keepsCore_watcher step) (by cases w <;> rw [own] <;> nofun)
  | reporter step => exact hkept (keepsCore_reporter step) nofun
  | call current move => exact hkept (keepsCore_callMove move) (callMove_not_decoder move)
  | filter current filter running move => exact hkept (keepsCore_filterMove move) nofun
  | begin job => exact hkept ⟨rfl, by simp [Quiet]⟩ nofun
  | subscribe =>
    exact hkept ⟨core_broker s (brokerLife_subscribe s.broker), by simp [Quiet]⟩ nofun
  | unsubscribe id held =>
    exact hkept ⟨core_broker s (brokerLife_release s.broker id), by simp⟩ nofun
  | receive id held ready =>
    exact hkept ⟨core_broker s (brokerLife_receive s.broker id), by simp [Quiet]⟩ nofun
  | shutdown => cases hc
  | cancelParent => cases hc
  | wait time later => exact hkept ⟨rfl, by simp⟩ nofun

end Steps
end InverterLink.Proofs
