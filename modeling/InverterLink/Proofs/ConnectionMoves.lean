import InverterLink.Proofs.BrokerHistory
import InverterLink.Proofs.ConnectionTraffic

/-!
# Who changes what in a connection

Every step of a connection makes one move of its broker, which `deedAt` reads off the state. So the
visits of a run, each a state and what was done in it, hold a history of the broker. Everything else
that tasks share has an owner: `OwnedChanges` says so, and `Stepped` says what becomes of the calls.
-/

namespace InverterLink.Proofs
open Connection

section Deeds

variable {μ : Type}

/-- The deed of giving up a subscription, which happens once. -/
def leaving (b : Broker μ) (id : SubscriberId) : Deed μ :=
  if b.isHeld id then .left id else .other

/-- The deed of looking into a queue. -/
def looking (b : Broker μ) (id : SubscriberId) : Deed μ :=
  match unread b id with
  | m :: _ => .took id m
  | [] => .other

lemma move_release (b : Broker μ) (id : SubscriberId) :
    Move b (leaving b id) (b.release id) := by
  unfold leaving
  split
  · rename_i held
    exact .leave b id held
  · rename_i held
    have he : b.release id = b := by rw [Broker.release, if_neg held]
    rw [he]
    exact move_rfl b

lemma move_receive (b : Broker μ) (id : SubscriberId) :
    Move b (looking b id) (b.receive id).1 := by
  unfold looking
  split
  · rename_i m rest hq
    exact .take b id m rest hq
  · rename_i hq
    rw [receive_of_empty hq]
    exact move_rfl b

/-- The deed of a task that watches a subscription. -/
def watching (s : State) (id : SubscriberId) : Deed Datagram :=
  if s.cancelled then leaving s.broker id
  else
    match unread s.broker id with
    | d :: _ => .took id d
    | [] => leaving s.broker id

/-- The deed of the filter of a call. -/
def filtering (s : State) (c : Call) (f : Filter) : Deed Datagram :=
  if c.phase.isOver then leaving s.broker f.subscription
  else
    match unread s.broker f.subscription with
    | d :: _ => .took f.subscription d
    | [] => leaving s.broker f.subscription

/-- What an action of a connection does to the broker. -/
def deedAt (s : State) : Action → Deed Datagram
  | .stepDecoder =>
    match s.decoder with
    | .publishing (d :: _) => if s.broker.phase = .stopped then .other else .accepted d
    | _ => .other
  | .stepBroker =>
    match s.broker.turn s.cancelled with
    | some (_, turn) => deedOfTurn turn
    | none => .other
  | .stepCacheKeeper => (s.cacheFeed.map (watching s)).getD .other
  | .stepLogger => (s.logFeed.map (watching s)).getD .other
  | .stepCall n =>
    if (s.calls[n]?).any (·.phase = .subscribing) then .joined s.broker.queues.length else .other
  | .stepFilter n =>
    match s.calls[n]? with
    | some c => (c.filter.map (filtering s c)).getD .other
    | none => .other
  | .subscribe => .joined s.broker.queues.length
  | .unsubscribe id => leaving s.broker id
  | .receive id => looking s.broker id
  | _ => .other

end Deeds

/-- The event is neither the end of a call nor that of a datagram's way through the decoder. -/
def plain : Event → Bool
  | .finished _ _ | .published _ => false
  | _ => true

section Deeds

variable {s s' : State} {action : Action} {events : List Event} {n : CallId} {c : Call}

lemma watching_took {id : SubscriberId} {d : Datagram} {rest : List Datagram}
    (hc : s.cancelled = false) (hq : unread s.broker id = d :: rest) :
    watching s id = .took id d := by
  rw [watching, hc, hq]
  rfl

lemma watching_closed {id : SubscriberId} (h : Exhausted s id) :
    watching s id = leaving s.broker id := by
  unfold watching
  rcases h with h | ⟨h, -⟩
  · rw [if_pos h]
  · rw [h]
    exact ite_self _

lemma deedAt_action (s : State) (w : Watcher) :
    deedAt s w.action = ((w.feed s).map (watching s)).getD .other := by
  cases w <;> rfl

lemma deedAt_watcher {w : Watcher} {id : SubscriberId} (h : w.feed s = some id) :
    deedAt s w.action = watching s id := by
  rw [deedAt_action, h]
  rfl

lemma advance_deed {phase : CallPhase} {writer : Option CallId} (hc : s.calls[n]? = some c)
    (h : Advance s n c action phase writer events) : deedAt s action = .other := by
  cases h with
  | wrote | sent | asked | dropped => rfl
  | _ => simp [deedAt, *]

lemma joined_deed (hc : s.calls[n]? = some c) (hphase : c.phase = .subscribing) :
    deedAt s (.stepCall n) = .joined s.broker.queues.length := by
  simp [deedAt, hc, hphase]

lemma filtering_eq {f : Filter} (hc : s.calls[n]? = some c) (hf : c.filter = some f) :
    deedAt s (.stepFilter n) = filtering s c f := by
  simp only [deedAt, hc, hf]
  rfl

lemma filtering_look {f : Filter} {d : Datagram} {rest : List Datagram}
    (hphase : c.phase.isOver = false) (hq : unread s.broker f.subscription = d :: rest) :
    filtering s c f = .took f.subscription d := by
  rw [filtering, hphase, hq]
  rfl

lemma filtering_close {f : Filter} (hwhy : c.phase.isOver = true ∨
      unread s.broker f.subscription = [] ∧ s.broker.isFed f.subscription = false) :
    filtering s c f = leaving s.broker f.subscription := by
  unfold filtering
  rcases hwhy with hw | ⟨hw, -⟩
  · rw [if_pos hw]
  · rw [hw]
    exact ite_self _

lemma decoder_deed (h : DecoderStep s s' events) :
    Move s.broker (deedAt s .stepDecoder) s'.broker ∧
      events = (accepted? (deedAt s .stepDecoder)).toList.map .published := by
  cases h with
  | calledOff phase | takes _ _ phase | ends phase | rests phase =>
    simp only [deedAt, phase]
    exact ⟨move_rfl _, rfl⟩
  | publishes d rest b phase offer =>
    have hloop : s.broker.phase ≠ .stopped := by
      intro hp
      simp [Broker.offer, hp] at offer
    simp only [deedAt, phase, if_neg hloop]
    exact ⟨move_offer offer, rfl⟩
  | refused d rest phase loop =>
    simp only [deedAt, phase, if_pos loop]
    exact ⟨move_rfl _, rfl⟩

end Deeds

/-- The token of whoever built the connection is cancelled. -/
def cancelsParent : Action → Bool
  | .cancelParent => true
  | _ => false

/-- Everything that is shared has an owner, and is changed by nobody else: the settings by nobody,
the cache by the cache keeper, a feed by its task as it ends, the clock by waiting, the tokens by
cancellation, and the lock by calls. The broker makes the move of the deed. -/
structure OwnedChanges (s : State) (action : Action) (s' : State) (events : List Event) :
    Prop where
  move : Move s.broker (deedAt s action) s'.broker
  settings : s'.settings = s.settings
  keeper : action ≠ .stepCacheKeeper → s'.cache = s.cache ∧ s'.cacheFeed = s.cacheFeed
  logger : action ≠ .stepLogger → s'.logFeed = s.logFeed
  feeds : (s'.cacheFeed = s.cacheFeed ∨ s'.cacheFeed = none) ∧
    (s'.logFeed = s.logFeed ∨ s'.logFeed = none)
  clock : (∀ time, action ≠ .wait time) → s'.now = s.now
  token : s'.cancelled = (s.cancelled || cancels action)
  parent : s'.parentCancelled = (s.parentCancelled || cancelsParent action)
  writer : s'.writer = s.writer ∨ ∃ n c, s.calls[n]? = some c ∧ CallMove s n c action s' events

section Owners

variable {s s' : State} {action : Action} {events : List Event} {n : CallId} {c : Call}

lemma changes_of_same (hm : Move s.broker (deedAt s action) s'.broker)
    (hs : s'.settings = s.settings ∧ s'.cache = s.cache ∧ s'.cacheFeed = s.cacheFeed ∧
      s'.logFeed = s.logFeed ∧ s'.now = s.now ∧ s'.cancelled = s.cancelled ∧
      s'.parentCancelled = s.parentCancelled ∧ s'.writer = s.writer)
    (ha : cancels action = false) : OwnedChanges s action s' events := by
  obtain ⟨hsettings, hcache, hkeeper, hlogger, hnow, htoken, hparent, hwriter⟩ := hs
  have hp : cancelsParent action = false := by
    cases action with
    | cancelParent => cases ha
    | _ => rfl
  exact ⟨hm, hsettings, fun _ => ⟨hcache, hkeeper⟩, fun _ => hlogger, ⟨.inl hkeeper, .inl hlogger⟩,
    fun _ => hnow, by rw [htoken, ha, Bool.or_false], by rw [hparent, hp, Bool.or_false],
    .inl hwriter⟩

lemma changes_receiver (h : ReceiverStep s action s' events) : OwnedChanges s action s' events := by
  cases h with
  | _ => exact changes_of_same (move_rfl _) ⟨rfl, rfl, rfl, rfl, rfl, rfl, rfl, rfl⟩ rfl

lemma changes_decoder (h : DecoderStep s s' events) : OwnedChanges s .stepDecoder s' events := by
  have hm := (decoder_deed h).1
  cases h with
  | _ => exact changes_of_same hm ⟨rfl, rfl, rfl, rfl, rfl, rfl, rfl, rfl⟩ rfl

lemma changes_reporter (h : ReporterStep s s' events) : OwnedChanges s .stepReporter s' events := by
  cases h with
  | _ => exact changes_of_same (move_rfl _) ⟨rfl, rfl, rfl, rfl, rfl, rfl, rfl, rfl⟩ rfl

lemma changes_watcher {w : Watcher} (h : WatcherStep s w s' events) :
    OwnedChanges s w.action s' events := by
  have htoken : cancels w.action = false ∧ cancelsParent w.action = false := by
    cases w <;> exact ⟨rfl, rfl⟩
  have hclock : ∀ time, w.action ≠ .wait time := by cases w <;> nofun
  cases h with
  | takes id d rest feed cancelled queue =>
    refine ⟨?_, rfl, fun hn => ⟨?_, rfl⟩, fun _ => rfl, ⟨.inl rfl, .inl rfl⟩, fun _ => rfl,
      by rw [htoken.1, Bool.or_false], by rw [htoken.2, Bool.or_false], .inl rfl⟩
    · rw [deedAt_watcher feed, watching_took cancelled queue]
      exact .take _ _ _ _ queue
    · cases w with
      | cacheKeeper => exact absurd rfl hn
      | logger => rfl
  | ends id feed why =>
    refine ⟨?_, rfl, fun hn => ⟨rfl, ?_⟩, fun hn => ?_, ⟨?_, ?_⟩, fun _ => rfl,
      by rw [htoken.1, Bool.or_false], by rw [htoken.2, Bool.or_false], .inl rfl⟩
    · rw [deedAt_watcher feed, watching_closed why]
      exact move_release _ _
    · exact if_neg fun hw => hn (congrArg Watcher.action hw)
    · exact if_neg fun hw => hn (congrArg Watcher.action hw)
    · exact (ite_eq_or_eq _ _ _).symm
    · exact (ite_eq_or_eq _ _ _).symm

lemma changes_callMove (hc : s.calls[n]? = some c) (h : CallMove s n c action s' events) :
    OwnedChanges s action s' events := by
  have htoken : cancels action = false ∧ cancelsParent action = false := by
    cases h with
    | advance _ _ _ _ step => cases step <;> exact ⟨rfl, rfl⟩
    | _ => exact ⟨rfl, rfl⟩
  have hwriter : ∃ n c, s.calls[n]? = some c ∧ CallMove s n c action s' events := ⟨n, c, hc, h⟩
  cases h with
  | advance _ phase writer _ step =>
    refine ⟨?_, rfl, fun _ => ⟨rfl, rfl⟩, fun _ => rfl, ⟨.inl rfl, .inl rfl⟩, fun _ => rfl,
      by rw [htoken.1, Bool.or_false], by rw [htoken.2, Bool.or_false], .inr hwriter⟩
    rw [advance_deed hc step]
    exact move_rfl _
  | fail socket error phase =>
    exact ⟨move_rfl _, rfl, fun _ => ⟨rfl, rfl⟩, fun _ => rfl, ⟨.inl rfl, .inl rfl⟩, fun _ => rfl,
      by rw [htoken.1, Bool.or_false], by rw [htoken.2, Bool.or_false], .inr hwriter⟩
  | join phase =>
    refine changes_of_same ?_ ⟨rfl, rfl, rfl, rfl, rfl, rfl, rfl, rfl⟩ rfl
    rw [joined_deed hc phase]
    exact .join _

lemma changes_filterMove {f : Filter} (hc : s.calls[n]? = some c) (hf : c.filter = some f)
    (h : FilterMove s n c f s' events) : OwnedChanges s (.stepFilter n) s' events := by
  refine changes_of_same ?_ ?_ rfl
  · rw [filtering_eq hc hf]
    cases h with
    | look d rest phase queue =>
      rw [filtering_look phase queue]
      exact .take _ _ _ _ queue
    | close why =>
      rw [filtering_close why]
      exact move_release _ _
  · cases h with
    | _ => exact ⟨rfl, rfl, rfl, rfl, rfl, rfl, rfl, rfl⟩

theorem changes_step (h : s.step action = some (s', events)) : OwnedChanges s action s' events := by
  cases transition_step h with
  | receiver step => exact changes_receiver step
  | decoder step => exact changes_decoder step
  | loop b turn turns =>
    refine changes_of_same ?_ ⟨rfl, rfl, rfl, rfl, rfl, rfl, rfl, rfl⟩ rfl
    simp only [deedAt, turns]
    exact move_turn turns
  | watcher w own step =>
    rw [own]
    exact changes_watcher step
  | reporter step => exact changes_reporter step
  | call current move => exact changes_callMove current move
  | filter current filter running move => exact changes_filterMove current filter move
  | begin job => exact changes_of_same (move_rfl _) ⟨rfl, rfl, rfl, rfl, rfl, rfl, rfl, rfl⟩ rfl
  | subscribe => exact changes_of_same (.join _) ⟨rfl, rfl, rfl, rfl, rfl, rfl, rfl, rfl⟩ rfl
  | unsubscribe id held =>
    exact changes_of_same (move_release _ _) ⟨rfl, rfl, rfl, rfl, rfl, rfl, rfl, rfl⟩ rfl
  | receive id held ready =>
    exact changes_of_same (move_receive _ _) ⟨rfl, rfl, rfl, rfl, rfl, rfl, rfl, rfl⟩ rfl
  | shutdown =>
    exact ⟨move_rfl _, rfl, fun _ => ⟨rfl, rfl⟩, fun _ => rfl, ⟨.inl rfl, .inl rfl⟩, fun _ => rfl,
      (Bool.or_true _).symm, (Bool.or_false _).symm, .inl rfl⟩
  | cancelParent =>
    exact ⟨move_rfl _, rfl, fun _ => ⟨rfl, rfl⟩, fun _ => rfl, ⟨.inl rfl, .inl rfl⟩, fun _ => rfl,
      (Bool.or_true _).symm, (Bool.or_true _).symm, .inl rfl⟩
  | wait time later =>
    exact ⟨move_rfl _, rfl, fun _ => ⟨rfl, rfl⟩, fun _ => rfl, ⟨.inl rfl, .inl rfl⟩,
      fun hn => absurd rfl (hn time), (Bool.or_false _).symm, (Bool.or_false _).symm, .inl rfl⟩

end Owners

/-- A step that leaves the calls as they are, and shows no end of a call. -/
structure KeepsCalls (s : State) (action : Action) (s' : State) (events : List Event) : Prop where
  calls : s'.calls = s.calls
  quiet : ∀ e ∈ events, plain e = true ∨ action = .stepDecoder ∧ ∃ d, e = .published d

/-- What a step of a connection does to its calls. -/
inductive Stepped (s : State) : Action → State → List Event → Prop where
  | call {n : CallId} {c : Call} {action : Action} {s' : State} {events : List Event}
    (current : s.calls[n]? = some c) (move : CallMove s n c action s' events) :
    Stepped s action s' events
  | filter {n : CallId} {c : Call} {f : Filter} {s' : State} {events : List Event}
    (current : s.calls[n]? = some c) (filter : c.filter = some f) (running : f.running = true)
    (move : FilterMove s n c f s' events) : Stepped s (.stepFilter n) s' events
  | begin (job : Job) : Stepped s (.call job) (s.call job).1 (s.call job).2
  | beside {action : Action} {s' : State} {events : List Event}
    (kept : KeepsCalls s action s' events) : Stepped s action s' events

section Calls

variable {s s' : State} {action : Action} {events : List Event}

lemma stepped_kept (hcalls : s'.calls = s.calls) (hquiet : ∀ e ∈ events, plain e = true) :
    Stepped s action s' events :=
  .beside ⟨hcalls, fun e he => .inl (hquiet e he)⟩

lemma stepped_receiver (h : ReceiverStep s action s' events) : Stepped s action s' events := by
  cases h with
  | disconnects | closes => exact stepped_kept rfl (forall_released s fun _ => rfl)
  | dials | installs | misses | reads | fails => exact stepped_kept rfl (by simp [plain])
  | _ => exact stepped_kept rfl (by simp)

lemma stepped_decoder (h : DecoderStep s s' events) : Stepped s .stepDecoder s' events := by
  refine .beside ⟨by cases h <;> rfl, fun e he => .inr ⟨rfl, ?_⟩⟩
  rw [(decoder_deed h).2] at he
  obtain ⟨d, -, rfl⟩ := List.mem_map.mp he
  exact ⟨d, rfl⟩

lemma stepped_watcher {w : Watcher} (h : WatcherStep s w s' events) :
    Stepped s action s' events := by
  cases h with
  | takes id d rest feed cancelled queue =>
    refine stepped_kept rfl ?_
    cases w with
    | cacheKeeper =>
      simp only [Watcher.shows]
      split <;> simp [plain]
    | logger => simp [Watcher.shows, plain]
  | ends id feed why => exact stepped_kept rfl (by simp)

lemma stepped_reporter (h : ReporterStep s s' events) : Stepped s .stepReporter s' events := by
  cases h with
  | passesOn error rest running cancelled status =>
    refine stepped_kept rfl ?_
    split <;> simp [plain]
  | _ => exact stepped_kept rfl (by simp)

/-- Every step of a connection, seen from its calls. -/
theorem stepped_step (h : s.step action = some (s', events)) : Stepped s action s' events := by
  cases transition_step h with
  | receiver step => exact stepped_receiver step
  | decoder step => exact stepped_decoder step
  | watcher w own step => exact stepped_watcher step
  | reporter step => exact stepped_reporter step
  | call current move => exact .call current move
  | filter current filter running move => exact .filter current filter running move
  | begin job => exact .begin job
  | loop | subscribe | receive => exact stepped_kept rfl (by simp [plain])
  | unsubscribe | shutdown | cancelParent | wait => exact stepped_kept rfl (by simp)

end Calls
end InverterLink.Proofs
