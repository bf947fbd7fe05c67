import InverterLink.Proofs.ConnectionMoves
import InverterLink.Proofs.Runs

/-!
# The visits of a run

A run of a connection is a list of visits, each an action between two states. What a visit adds to
the queue of a subscription arrives there. Each task that reads a subscription has one of its own,
from which nobody else takes anything: what has arrived there is what the task took and what still
waits for it.
-/

namespace InverterLink.Proofs
open Connection

/-- An action of a connection, the states before and after it, and its events. -/
abbrev Visit : Type := Passage State Action Event

abbrev visitsOf (s : State) (actions : List Action) : List Visit := passagesOf State.step s actions

/-- What a visit adds to the queue of a subscription. -/
def added (id : SubscriberId) (w : Visit) : List Datagram :=
  (unread w.next.broker id).drop (unread w.state.broker id).length

/-- What has arrived in the queue of a subscription, and when. -/
def arrivals (id : SubscriberId) (h : List Visit) : List (Instant × Datagram) :=
  h.flatMap fun w => (added id w).map fun d => (w.state.now, d)

/-- The history of the broker in the visits of a run. -/
def momentsOf (h : List Visit) : List (Moment Datagram) :=
  h.map fun w => ⟨w.state.broker, deedAt w.state w.action⟩

/-- What was taken out of the queue of a subscription. -/
def takenFrom (id : SubscriberId) (h : List Visit) : List Datagram := takenBy id (momentsOf h)

/-- No task has anything to do but wait. -/
def Resting (s : State) : Prop :=
  (∀ draw, s.stepReceiver draw = none) ∧ s.stepDecoder = none ∧ s.stepBroker = none ∧
    s.stepCacheKeeper = none ∧ s.stepLogger = none ∧ s.stepReporter = none ∧
    ∀ n, s.stepCall n = none ∧ s.stepFilter n = none

lemma stepReceiver_none_iff (s : State) (draw draw' : Draw) :
    s.stepReceiver draw = none ↔ s.stepReceiver draw' = none := by
  cases hr : s.receiver with
  | excusing backoff error => simp only [State.stepReceiver, hr, Option.map_eq_none_iff]
  | _ => simp only [State.stepReceiver, hr]

instance (s : State) : Decidable (Resting s) :=
  decidable_of_iff
    (s.stepReceiver 0 = none ∧ s.stepDecoder = none ∧ s.stepBroker = none ∧
      s.stepCacheKeeper = none ∧ s.stepLogger = none ∧ s.stepReporter = none ∧
      ∀ n < s.calls.length, s.stepCall n = none ∧ s.stepFilter n = none) <| by
    have hcalls : ∀ n, ¬ n < s.calls.length → s.stepCall n = none ∧ s.stepFilter n = none := by
      intro n hn
      have hnone : s.calls[n]? = none := List.getElem?_eq_none (Nat.not_lt.mp hn)
      simp [State.stepCall, State.stepFilter, hnone]
    constructor
    · rintro ⟨hr, hd, hb, hk, hl, hp, hc⟩
      refine ⟨fun draw => (stepReceiver_none_iff s draw 0).mpr hr, hd, hb, hk, hl, hp, fun n => ?_⟩
      by_cases hn : n < s.calls.length
      · exact hc n hn
      · exact hcalls n hn
    · rintro ⟨hr, hd, hb, hk, hl, hp, hc⟩
      exact ⟨hr 0, hd, hb, hk, hl, hp, fun n _ => hc n⟩

section Lists

variable {s s' : State} {action : Action} {actions : List Action} {events : List Event}
  {h : List Visit} {id : SubscriberId}

/-- What holds at the start and is kept by every step holds in the end. -/
theorem visits_induction {P : List Visit → State → Prop} {start : State} (hstart : P [] start)
    (hstep : ∀ h s action s' events, P h s → s.step action = some (s', events) →
      P (h ++ [⟨s, action, s', events⟩]) s')
    (hr : start.run actions = some (s, events)) : P (visitsOf start actions) s :=
  passages_induction (P := fun h _ s => P h s) hstart
    (fun h _ s action s' events hp hs => hstep h s action s' events hp hs) hr

/-- What is kept by every step of a kind holds in the end, if all visits are of that kind. -/
theorem visits_induction_of {P : List Visit → State → Prop} {Q : Visit → Prop} {start : State}
    (hstart : P [] start)
    (hstep : ∀ h s action s' events, P h s → Q ⟨s, action, s', events⟩ →
      s.step action = some (s', events) → P (h ++ [⟨s, action, s', events⟩]) s')
    (hall : ∀ w ∈ visitsOf start actions, Q w)
    (hr : start.run actions = some (s, events)) : P (visitsOf start actions) s := by
  refine visits_induction (P := fun h s => (∀ w ∈ h, Q w) → P h s) (fun _ => hstart) ?_ hr hall
  intro h s action s' events hh hs hq
  have hlast : Q ⟨s, action, s', events⟩ :=
    hq _ (List.mem_append_right _ (List.mem_singleton_self _))
  exact hstep h s action s' events (hh fun w hw => hq w (List.mem_append_left _ hw)) hlast hs

lemma arrivals_concat (w : Visit) :
    arrivals id (h ++ [w]) = arrivals id h ++ (added id w).map fun d => (w.state.now, d) := by
  rw [arrivals, List.flatMap_append, List.flatMap_singleton]
  rfl

lemma takenFrom_concat (w : Visit) :
    takenFrom id (h ++ [w]) = takenFrom id h ++ (took? id (deedAt w.state w.action)).toList := by
  rw [takenFrom, momentsOf, List.map_append]
  exact takenBy_concat id (momentsOf h) _

lemma took_of_untouched {deed : Deed Datagram} (hn : touched? deed ≠ some id) :
    took? id deed = none := by
  cases deed with
  | took j d => exact if_neg fun he => hn (congrArg some he)
  | _ => rfl

end Lists

section Steps

variable {s s' : State} {action : Action} {events : List Event}

lemma deed_of_turn (hs : s.step .stepBroker = some (s', events)) :
    ∃ turn, events = [.turned turn] ∧ deedAt s .stepBroker = deedOfTurn turn := by
  obtain ⟨b, turn, ht, -, rfl⟩ := turn_cases hs
  exact ⟨turn, rfl, by simp only [deedAt, ht]⟩

/-- How a call came to be what it is. -/
inductive Fate (s : State) (action : Action) (s' : State) (events : List Event) (n : CallId) :
    Call → Prop where
  | begun (job : Job) (new : n = s.calls.length) :
    Fate s action s' events n { job, phase := job.first }
  | same (c : Call) (current : s.calls[n]? = some c) (other : action ≠ .stepFilter n) :
    Fate s action s' events n c
  | advanced (c : Call) (current : s.calls[n]? = some c) (phase : CallPhase)
    (writer : Option CallId) (step : Advance s n c action phase writer events) :
    Fate s action s' events n { c with phase }
  | failed (c : Call) (current : s.calls[n]? = some c) (error : IoError) :
    Fate s action s' events n { c with phase := .finished (.error (.connection error)) }
  | joined (c : Call) (current : s.calls[n]? = some c) (phase : c.phase = .subscribing)
    (act : action = .stepCall n) (broker : s'.broker = s.broker.subscribe.1)
    (seen : events = [.subscribed s.broker.queues.length]) :
    Fate s action s' events n
      { c with phase := .checking, filter := some { subscription := s.broker.queues.length } }
  | looked (c : Call) (f : Filter) (current : s.calls[n]? = some c) (filter : c.filter = some f)
    (running : f.running = true) (phase : c.phase.isOver = false) (d : Datagram)
    (rest : List Datagram) (queue : unread s.broker f.subscription = d :: rest)
    (act : action = .stepFilter n) (broker : s'.broker = (s.broker.receive f.subscription).1) :
    Fate s action s' events n { c with filter := some (State.Filter.look f c.job d) }
  | closed (c : Call) (f : Filter) (current : s.calls[n]? = some c) (filter : c.filter = some f)
    (running : f.running = true)
    (why : c.phase.isOver = true ∨
      unread s.broker f.subscription = [] ∧ s.broker.isFed f.subscription = false)
    (act : action = .stepFilter n) (broker : s'.broker = s.broker.release f.subscription) :
    Fate s action s' events n { c with filter := some { f with running := false } }

lemma modify_cases {calls : List Call} {change : Call → Call} {m n : CallId} {c : Call}
    (h : (calls.modify m change)[n]? = some c) :
    (m ≠ n ∧ calls[n]? = some c) ∨ m = n ∧ ∃ c₀, calls[n]? = some c₀ ∧ c = change c₀ := by
  rw [List.getElem?_modify] at h
  by_cases he : m = n
  · refine .inr ⟨he, ?_⟩
    simp only [he, if_true, Option.map_eq_map, Option.map_eq_some_iff] at h
    obtain ⟨c₀, hc₀, rfl⟩ := h
    exact ⟨c₀, hc₀, rfl⟩
  · exact .inl ⟨he, by simpa [he] using h⟩

lemma fate_callMove {m n : CallId} {c c' : Call} (hc : s.calls[m]? = some c)
    (hm : CallMove s m c action s' events) (h : s'.calls[n]? = some c') :
    Fate s action s' events n c' := by
  have hother : action ≠ .stepFilter n := by
    cases hm with
    | advance _ _ _ _ step => cases step <;> nofun
    | _ => nofun
  cases hm with
  | advance _ phase writer _ step =>
    obtain ⟨-, h⟩ | ⟨rfl, c₀, hc₀, rfl⟩ := modify_cases h
    · exact .same c' h hother
    · cases hc.symm.trans hc₀
      exact .advanced c hc phase writer step
  | fail socket error phase =>
    obtain ⟨-, h⟩ | ⟨rfl, c₀, hc₀, rfl⟩ := modify_cases h
    · exact .same c' h hother
    · exact .failed c₀ hc₀ error
  | join phase =>
    obtain ⟨-, h⟩ | ⟨rfl, c₀, hc₀, rfl⟩ := modify_cases h
    · exact .same c' h hother
    · cases hc.symm.trans hc₀
      exact .joined c hc phase rfl rfl rfl

lemma fate_filterMove {m n : CallId} {c c' : Call} {f : Filter} (hc : s.calls[m]? = some c)
    (hf : c.filter = some f) (hrunning : f.running = true) (hm : FilterMove s m c f s' events)
    (h : s'.calls[n]? = some c') : Fate s (.stepFilter m) s' events n c' := by
  cases hm with
  | look d rest phase queue =>
    obtain ⟨hne, h⟩ | ⟨rfl, c₀, hc₀, rfl⟩ := modify_cases h
    · exact .same c' h fun he => hne (Action.stepFilter.inj he)
    · cases hc.symm.trans hc₀
      rw [hf]
      exact .looked c f hc hf hrunning phase d rest queue rfl rfl
  | close why =>
    obtain ⟨hne, h⟩ | ⟨rfl, c₀, hc₀, rfl⟩ := modify_cases h
    · exact .same c' h fun he => hne (Action.stepFilter.inj he)
    · cases hc.symm.trans hc₀
      rw [hf]
      exact .closed c f hc hf hrunning why rfl rfl

theorem fate_step {n : CallId} {c' : Call} (hs : s.step action = some (s', events))
    (h : s'.calls[n]? = some c') : Fate s action s' events n c' := by
  by_cases hfilter : ∃ m, action = .stepFilter m
  · obtain ⟨m, rfl⟩ := hfilter
    obtain ⟨c, f, hc, hf, hrunning, hm⟩ := filterMove_stepFilter hs
    exact fate_filterMove hc hf hrunning hm h
  · cases stepped_step hs with
    | call hc move => exact fate_callMove hc move h
    | filter hc hf hrunning move => exact absurd ⟨_, rfl⟩ hfilter
    | begin job =>
      replace h : (s.calls ++ [({ job, phase := job.first } : Call)])[n]? = some c' := h
      rw [List.getElem?_append] at h
      split at h
      · exact .same c' h nofun
      · rename_i hlen
        obtain ⟨hn, rfl⟩ := List.getElem?_eq_some_iff.mp h
        simp only [List.getElem_singleton]
        refine .begun job (Nat.le_antisymm ?_ (Nat.not_lt.mp hlen))
        exact Nat.sub_eq_zero_iff_le.mp (Nat.lt_one_iff.mp hn)
    | beside kept =>
      rw [kept.calls] at h
      exact .same c' h fun he => hfilter ⟨n, he⟩

end Steps

/-- A task that reads a subscription. -/
inductive Reader where
  | cacheKeeper
  | logger
  | filter (call : CallId)

/-- The step of a task. -/
def Reader.action : Reader → Action
  | cacheKeeper => .stepCacheKeeper
  | logger => .stepLogger
  | filter n => .stepFilter n

/-- The subscription that a task reads. -/
def feedOf (s : State) : Reader → Option SubscriberId
  | .cacheKeeper => s.cacheFeed
  | .logger => s.logFeed
  | .filter n => (s.calls[n]?).bind fun c => c.filter.map (·.subscription)

/-- Each task reads a subscription of its own, and nothing came to a subscription before it was
made. -/
structure Holdings (h : List Visit) (s : State) : Prop where
  sound : Sound s.broker
  unmade : ∀ id, s.broker.queues.length ≤ id → arrivals id h = [] ∧ takenFrom id h = []
  made : ∀ r id, feedOf s r = some id → id < s.broker.queues.length
  apart : ∀ r r' id, feedOf s r = some id → feedOf s r' = some id → r = r'

section Readers

variable {s s' : State} {action : Action} {events : List Event} {h : List Visit}
  {id j : SubscriberId} {r : Reader}

lemma touched_leaving {b : Broker Datagram} (h : touched? (leaving b j) = some id) : j = id := by
  unfold leaving at h
  split at h
  · exact Option.some.inj h
  · cases h

lemma touched_looking {b : Broker Datagram} (h : touched? (looking b j) = some id) : j = id := by
  unfold looking at h
  split at h
  · exact Option.some.inj h
  · cases h

lemma touched_watching (h : touched? (watching s j) = some id) : j = id := by
  unfold watching at h
  split at h
  · exact touched_leaving h
  · split at h
    · exact Option.some.inj h
    · exact touched_leaving h

lemma touched_filtering {c : Call} {f : Filter} (h : touched? (filtering s c f) = some id) :
    f.subscription = id := by
  unfold filtering at h
  split at h
  · exact touched_leaving h
  · split at h
    · exact Option.some.inj h
    · exact touched_leaving h

lemma isTaken_of_feed (h : feedOf s r = some id) : s.isTaken id = true := by
  cases r with
  | cacheKeeper => simp [State.isTaken, show s.cacheFeed = some id from h]
  | logger => simp [State.isTaken, show s.logFeed = some id from h]
  | filter n =>
    simp only [feedOf, Option.bind_eq_some_iff, Option.map_eq_some_iff] at h
    obtain ⟨c, hc, f, hf, hid⟩ := h
    have hany : (s.calls.any fun c => c.filter.any (·.subscription = id)) = true :=
      List.any_eq_true.mpr ⟨c, List.mem_of_getElem? hc, by simp [hf, hid]⟩
    simp [State.isTaken, hany]

lemma not_taken_of_userHeld (h : s.isUserHeld id = true) : ¬ s.isTaken id = true := by
  simp only [State.isUserHeld, Bool.and_eq_true] at h
  simpa using h.2

lemma touched_watcher {w : Watcher} (ht : touched? (deedAt s w.action) = some id) :
    w.feed s = some id := by
  rw [deedAt_action] at ht
  cases hf : w.feed s with
  | none =>
    rw [hf] at ht
    cases ht
  | some j =>
    rw [hf] at ht
    rw [touched_watching ht]

/-- Nobody but its task touches a subscription that is read. -/
theorem touched_by_reader (hd : Holdings h s) (hs : s.step action = some (s', events))
    (hr : feedOf s r = some id) (ht : touched? (deedAt s action) = some id) :
    action = r.action := by
  have hreader : ∀ r', feedOf s r' = some id → r'.action = r.action := by
    intro r' hr'
    rw [hd.apart r' r id hr' hr]
  cases action with
  | stepDecoder =>
    simp only [deedAt] at ht
    split at ht
    · split at ht <;> cases ht
    · cases ht
  | stepBroker =>
    simp only [deedAt] at ht
    split at ht
    · rename_i turn _
      cases turn <;> cases ht
    · cases ht
  | stepCacheKeeper => exact hreader .cacheKeeper (touched_watcher (w := .cacheKeeper) ht)
  | stepLogger => exact hreader .logger (touched_watcher (w := .logger) ht)
  | stepFilter n =>
    obtain ⟨c, f, hc, hf, -, -⟩ := filterMove_stepFilter hs
    rw [filtering_eq hc hf] at ht
    exact hreader (.filter n) (by simp [feedOf, hc, hf, touched_filtering ht])
  | unsubscribe j =>
    have hj := touched_leaving ht
    have held := (unsubscribe_cases hs).1
    exact absurd (isTaken_of_feed hr) (hj ▸ not_taken_of_userHeld held)
  | receive j =>
    have hj := touched_looking ht
    have held := (receive_cases hs).1
    exact absurd (isTaken_of_feed hr) (hj ▸ not_taken_of_userHeld held)
  | stepCall n =>
    simp only [deedAt] at ht
    split at ht <;> cases ht
  | _ => cases ht

lemma feedOf_step (hs : s.step action = some (s', events)) (hr : feedOf s' r = some id) :
    feedOf s r = some id ∨ (∃ n, action = .stepCall n ∧ r = .filter n) ∧
      id = s.broker.queues.length ∧ s'.broker = s.broker.subscribe.1 := by
  have howned := changes_step hs
  cases r with
  | cacheKeeper =>
    replace hr : s'.cacheFeed = some id := hr
    rcases howned.feeds.1 with he | he
    · exact .inl (he.symm.trans hr)
    · rw [he] at hr
      cases hr
  | logger =>
    replace hr : s'.logFeed = some id := hr
    rcases howned.feeds.2 with he | he
    · exact .inl (he.symm.trans hr)
    · rw [he] at hr
      cases hr
  | filter n =>
    simp only [feedOf, Option.bind_eq_some_iff, Option.map_eq_some_iff] at hr ⊢
    obtain ⟨c', hc', f', hf', rfl⟩ := hr
    cases fate_step hs hc' with
    | begun job new => cases hf'
    | same c current => exact .inl ⟨c', current, f', hf', rfl⟩
    | advanced c current => exact .inl ⟨c, current, f', hf', rfl⟩
    | failed c current => exact .inl ⟨c, current, f', hf', rfl⟩
    | joined c current phase act broker =>
      cases hf'
      exact .inr ⟨⟨n, act, rfl⟩, rfl, broker⟩
    | looked c f current filter =>
      cases hf'
      refine .inl ⟨c, current, f, filter, ?_⟩
      unfold State.Filter.look
      split
      · split <;> rfl
      · rfl
    | closed c f current filter =>
      cases hf'
      exact .inl ⟨c, current, f, filter, rfl⟩

theorem holdings_step (hd : Holdings h s) (hs : s.step action = some (s', events)) :
    Holdings (h ++ [⟨s, action, s', events⟩]) s' := by
  have hm := (changes_step hs).move
  have hlen := queues_move hm
  have hnew : s'.broker = s.broker.subscribe.1 →
      s'.broker.queues.length = s.broker.queues.length + 1 := by
    intro he
    rw [he, subscribe_queues, List.length_append, List.length_singleton]
  constructor
  · exact sound_move hd.sound hm
  · intro id hid
    obtain ⟨harrivals, htaken⟩ := hd.unmade id (Nat.le_trans hlen hid)
    rw [arrivals_concat, takenFrom_concat, harrivals, htaken, added, unread_unmade hid,
      took_unmade hm (Nat.le_trans hlen hid), List.drop_nil]
    exact ⟨rfl, rfl⟩
  · intro r id hr
    rcases feedOf_step hs hr with hr | ⟨-, rfl, hb⟩
    · exact Nat.lt_of_lt_of_le (hd.made r id hr) hlen
    · rw [hnew hb]
      exact Nat.lt_succ_self _
  · intro r r' id hr hr'
    rcases feedOf_step hs hr with hold | ⟨⟨n, hact, rfl⟩, hid, -⟩
    · rcases feedOf_step hs hr' with hold' | ⟨-, hid', -⟩
      · exact hd.apart r r' id hold hold'
      · exact absurd hid' (hd.made r id hold).ne
    · rcases feedOf_step hs hr' with hold' | ⟨⟨m, hact', rfl⟩, -, -⟩
      · exact absurd hid (hd.made r' id hold').ne
      · cases hact.symm.trans hact'
        rfl

lemma start_broker (settings : ConnectionBuilder) (now : Instant) (cancelled : Bool) :
    let s := State.start settings now cancelled
    Fresh s.broker ∧ s.cacheFeed = some 0 ∧ s.broker.isHeld 0 = true ∧
      0 < s.broker.queues.length ∧
      ∀ id, s.logFeed = some id → id = 1 ∧ 1 < s.broker.queues.length := by
  have hidle : Fresh ({} : Broker Datagram).start :=
    ⟨sound_move fresh_default.sound (.start _), rfl, rfl, fun _ => rfl⟩
  have hcache := fresh_subscribe hidle
  by_cases hlogs : settings.logs = true
  · simp only [State.start, hlogs, if_true]
    refine ⟨fresh_subscribe hcache, rfl, rfl, by decide, ?_⟩
    rintro id ⟨⟩
    exact ⟨rfl, by decide⟩
  · simp only [State.start, hlogs, Bool.false_eq_true, if_false]
    exact ⟨hcache, rfl, rfl, by decide, by simp⟩

lemma holdings_start (settings : ConnectionBuilder) (now : Instant) (cancelled : Bool) :
    Holdings [] (State.start settings now cancelled) := by
  obtain ⟨hfresh, hcache, -, hlen, hlog⟩ := start_broker settings now cancelled
  refine ⟨hfresh.sound, fun _ _ => ⟨rfl, rfl⟩, ?_, ?_⟩
  · intro r id hr
    cases r with
    | cacheKeeper =>
      cases hcache.symm.trans hr
      exact hlen
    | logger =>
      obtain ⟨rfl, hlt⟩ := hlog id hr
      exact hlt
    | filter n => cases hr
  · intro r r' id hr hr'
    cases r with
    | cacheKeeper =>
      cases r' with
      | cacheKeeper => rfl
      | logger =>
        cases hcache.symm.trans hr
        cases (hlog _ hr').1
      | filter n => cases hr'
    | logger =>
      cases r' with
      | cacheKeeper =>
        cases hcache.symm.trans hr'
        cases (hlog _ hr).1
      | logger => rfl
      | filter n => cases hr'
    | filter n => cases hr

/-- What has arrived in a queue is what was taken out of it and what waits there. -/
def Balanced (id : SubscriberId) (h : List Visit) (b : Broker Datagram) : Prop :=
  (arrivals id h).map (·.2) = takenFrom id h ++ unread b id

lemma balanced_step (hb : Balanced id h s.broker) (hs : s.step action = some (s', events))
    (hleft : deedAt s action = .left id → unread s.broker id = []) :
    Balanced id (h ++ [⟨s, action, s', events⟩]) s'.broker := by
  have hmove := unread_move (changes_step hs).move hleft
  have hadded : ((added id ⟨s, action, s', events⟩).map fun d => (s.now, d)).map (·.2) =
      added id ⟨s, action, s', events⟩ := by
    rw [List.map_map]
    exact List.map_id _
  rw [Balanced, arrivals_concat, takenFrom_concat, List.map_append, hadded, hb, added,
    List.append_assoc, List.append_assoc, hmove]

end Readers
end InverterLink.Proofs
