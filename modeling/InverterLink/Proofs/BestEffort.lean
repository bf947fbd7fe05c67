import InverterLink.Broker.Session
import InverterLink.Proofs.BrokerHistory
import InverterLink.Proofs.Runs

/-!
# Best effort delivery

In every run of a broker, with any number of publishers and subscribers that act in any order, a
subscriber gets exactly the messages delivered since the loop knows it, in the order in which they
were accepted, less those that came while its own queue was full. What the others do does not
matter to it.
-/

namespace InverterLink.Proofs
open Broker Broker.Session

variable {μ : Type}

/-- What an action of a session, with what can be seen of it, does to the broker. -/
def deedOf (s : Session μ) : Session.Action μ → Session.Event μ → Deed μ
  | .release id, _ => .left id
  | _, .subscribed id => .joined id
  | _, .published call (.ok ()) => ((s.publishing.lookup call).map .accepted).getD .other
  | _, .received id (.message m) => .took id m
  | _, .turned turn => deedOfTurn turn
  | _, _ => .other

/-- The history of the broker in a run. -/
def historyOf (s : Session μ) : List (Session.Action μ) → List (Moment μ)
  | [] => []
  | action :: rest =>
    match s.step action with
    | some (s', event) => ⟨s.broker, deedOf s action event⟩ :: historyOf s' rest
    | none => []

/-- The messages of the publish calls, in the order of the calls. -/
def publishedIn (actions : List (Session.Action μ)) : List μ :=
  actions.filterMap fun
    | .publish m => some m
    | _ => none

/-- The publish calls whose messages found room, in order. -/
def acceptedCalls (events : List (Session.Event μ)) : List Nat :=
  events.filterMap fun
    | .published call (.ok ()) => some call
    | _ => none

/-- Everything that a step of a session can do. -/
inductive SessionStep (s : Session μ) : Session.Action μ → Session μ → Session.Event μ → Prop where
  | start : SessionStep s .start { s with broker := s.broker.start } .quiet
  | discard : SessionStep s .discard { s with broker := s.broker.discard } .quiet
  | cancel : SessionStep s .cancel { s with cancelled := true } .quiet
  | addHandle (handles : s.broker.handles ≠ 0) :
    SessionStep s .addHandle
      { s with broker := { s.broker with handles := s.broker.handles + 1 } } .quiet
  | dropHandle (handles : s.broker.handles ≠ 0)
    (unused : s.broker.handles = 1 → s.publishing = []) :
    SessionStep s .dropHandle
      { s with broker := { s.broker with handles := s.broker.handles - 1 } } .quiet
  | subscribe (handles : s.broker.handles ≠ 0) :
    SessionStep s .subscribe { s with broker := s.broker.subscribe.1 }
      (.subscribed s.broker.queues.length)
  | release (id : SubscriberId) (held : s.broker.isHeld id = true) :
    SessionStep s (.release id) { s with broker := s.broker.release id } .quiet
  | publish (m : μ) (handles : s.broker.handles ≠ 0) :
    SessionStep s (.publish m)
      { s with publishing := s.publishing ++ [(s.begun, m)], begun := s.begun + 1 }
      (.publishing s.begun)
  | accepted (call : Nat) (m : μ) (b : Broker μ) (waiting : s.publishing.lookup call = some m)
    (offer : s.broker.offer m = (b, .accepted)) :
    SessionStep s (.enter call) { s.forget call with broker := b } (.published call (.ok ()))
  | refused (call : Nat) (m : μ) (waiting : s.publishing.lookup call = some m)
    (loop : s.broker.phase = .stopped) :
    SessionStep s (.enter call) (s.forget call) (.published call (.error .cancelled))
  | abandon (call : Nat) (waiting : (s.publishing.lookup call).isSome) :
    SessionStep s (.abandon call) (s.forget call) .quiet
  | receive (id : SubscriberId) (held : s.broker.isHeld id = true)
    (ready : (s.broker.receive id).2 ≠ .waiting) :
    SessionStep s (.receive id) { s with broker := (s.broker.receive id).1 }
      (.received id (s.broker.receive id).2)
  | turn (b : Broker μ) (turn : Turn μ) (turns : s.broker.turn s.cancelled = some (b, turn)) :
    SessionStep s .turn { s with broker := b } (.turned turn)

section Steps

variable {s s' : Session μ} {action : Session.Action μ} {event : Session.Event μ}

lemma stopped_of_offer {b b' : Broker μ} {m : μ} (h : b.offer m = (b', .stopped)) :
    b.phase = .stopped := by
  unfold Broker.offer at h
  split at h
  · rename_i hphase
    exact hphase
  · cases h
  · cases h

theorem sessionStep_step (h : s.step action = some (s', event)) :
    SessionStep s action s' event := by
  cases action with
  | start =>
    cases h
    exact .start
  | discard =>
    cases h
    exact .discard
  | cancel =>
    cases h
    exact .cancel
  | addHandle =>
    simp only [Session.step] at h
    split at h
    · cases h
    · rename_i handles
      cases h
      exact .addHandle handles
  | dropHandle =>
    simp only [Session.step] at h
    split at h
    · cases h
    · rename_i handles
      cases h
      rw [not_or, not_and, not_not] at handles
      exact .dropHandle handles.1 handles.2
  | subscribe =>
    simp only [Session.step] at h
    split at h
    · cases h
    · rename_i handles
      cases h
      exact .subscribe handles
  | release id =>
    simp only [Session.step] at h
    split at h
    · rename_i held
      cases h
      exact .release id held
    · cases h
  | publish m =>
    simp only [Session.step] at h
    split at h
    · cases h
    · rename_i handles
      cases h
      exact .publish m handles
  | enter call =>
    simp only [Session.step, Session.enter, Option.bind_eq_bind, Option.bind_eq_some_iff] at h
    obtain ⟨m, waiting, h⟩ := h
    split at h
    · cases h
    · rename_i b offer
      cases h
      exact .accepted call m b waiting offer
    · rename_i offer
      cases h
      exact .refused call m waiting (stopped_of_offer offer)
  | abandon call =>
    simp only [Session.step] at h
    split at h
    · rename_i waiting
      cases h
      exact .abandon call waiting
    · cases h
  | receive id =>
    simp only [Session.step] at h
    split at h
    · rename_i held
      split at h
      · cases h
      · rename_i b result ready hr
        cases h
        have hreceive := SessionStep.receive (s := s) id held (by rw [hr]; exact ready)
        rwa [hr] at hreceive
    · cases h
  | turn =>
    simp only [Session.step, Option.map_eq_some_iff] at h
    obtain ⟨⟨b, turn⟩, turns, h⟩ := h
    cases h
    exact .turn b turn turns

/-- Every step of a session is a move of its broker. -/
theorem move_step (h : s.step action = some (s', event)) :
    Move s.broker (deedOf s action event) s'.broker := by
  cases sessionStep_step h with
  | start => exact .start _
  | discard =>
    simp only [deedOf, Broker.discard]
    split
    · exact .stop _
    · exact move_rfl _
  | addHandle | dropHandle => exact .idle _ _
  | subscribe => exact .join _
  | release id held => exact .leave _ id held
  | accepted call m b waiting offer =>
    simp only [deedOf, waiting]
    exact move_offer offer
  | receive id held ready =>
    cases hq : unread s.broker id with
    | nil =>
      rw [receive_of_empty hq] at ready ⊢
      cases hfed : s.broker.isFed id with
      | true => simp [hfed] at ready
      | false => exact move_rfl _
    | cons m rest =>
      have htake := Move.take s.broker id m rest hq
      rw [receive_of_unread hq] at htake ⊢
      exact htake
  | turn b turn turns => exact move_turn turns
  | cancel | publish | refused | abandon => exact move_rfl _

lemma course_run {b₀ : Broker μ} {h : List (Moment μ)} {actions : List (Session.Action μ)}
    {events : List (Session.Event μ)} (hc : Course b₀ h s.broker)
    (hr : s.run actions = some (s', events)) :
    Course b₀ (h ++ historyOf s actions) s'.broker := by
  induction actions generalizing s h events with
  | nil =>
    cases hr
    simpa [historyOf] using hc
  | cons action rest ih =>
    obtain ⟨s₁, event, behind, hs, hrest, rfl⟩ := shown_cases hr
    have hrun := ih (.snoc hc (move_step hs)) hrest
    simpa [historyOf, hs] using hrun

/-- The publishers: the messages of the calls so far, the calls that were accepted, and the
messages that they brought. -/
structure Publishers (messages : List μ) (calls : List Nat) (accepted : List μ)
    (s : Session μ) : Prop where
  begun : s.begun = messages.length
  waiting : ∀ p ∈ s.publishing, messages[p.1]? = some p.2
  nodup : calls.Nodup
  past : ∀ call ∈ calls, call < messages.length ∧ ∀ p ∈ s.publishing, p.1 ≠ call
  brought : accepted.map some = calls.map fun call => messages[call]?

lemma publishers_publish {messages accepted : List μ} {calls : List Nat}
    (h : Publishers messages calls accepted s) (m : μ) (hb : s'.begun = s.begun + 1)
    (hp : s'.publishing = s.publishing ++ [(s.begun, m)]) :
    Publishers (messages ++ [m]) calls accepted s' := by
  have hold : ∀ call, call < messages.length → (messages ++ [m])[call]? = messages[call]? :=
    fun call hlt => List.getElem?_append_left hlt
  constructor
  · rw [hb, h.begun, List.length_append, List.length_singleton]
  · intro p hm
    rw [hp, List.mem_append, List.mem_singleton] at hm
    rcases hm with hm | rfl
    · have hw := h.waiting p hm
      rw [hold _ (List.getElem?_eq_some_iff.mp hw).1, hw]
    · rw [h.begun, List.getElem?_concat_length]
  · exact h.nodup
  · intro call hc
    obtain ⟨hlt, hne⟩ := h.past call hc
    refine ⟨by rw [List.length_append]; exact Nat.lt_add_right _ hlt, fun p hm => ?_⟩
    rw [hp, List.mem_append, List.mem_singleton] at hm
    rcases hm with hm | rfl
    · exact hne p hm
    · rw [h.begun]
      exact hlt.ne'
  · rw [h.brought]
    exact List.map_congr_left fun call hc => (hold call (h.past call hc).1).symm

lemma publishers_enter {messages accepted : List μ} {calls : List Nat} {call : Nat} {m : μ}
    (h : Publishers messages calls accepted s) (hm : s.publishing.lookup call = some m)
    (broker : Broker μ) :
    Publishers messages (calls ++ [call]) (accepted ++ [m]) { s.forget call with broker } := by
  have hmem : (call, m) ∈ s.publishing := by
    obtain ⟨before, behind, he, -⟩ := List.lookup_eq_some_iff.mp hm
    rw [he]
    exact List.mem_append_right _ List.mem_cons_self
  have hw : messages[call]? = some m := h.waiting _ hmem
  have hkept : ∀ p ∈ (s.forget call).publishing, p ∈ s.publishing ∧ p.1 ≠ call := by
    intro p hp
    simpa [Session.forget] using hp
  constructor
  · exact h.begun
  · exact fun p hp => h.waiting p (hkept p hp).1
  · rw [List.nodup_append]
    refine ⟨h.nodup, List.nodup_singleton _, fun a ha b hb => ?_⟩
    rw [List.mem_singleton.mp hb]
    exact ((h.past a ha).2 _ hmem).symm
  · intro j hj
    rcases List.mem_append.mp hj with hj | hj
    · exact ⟨(h.past j hj).1, fun p hp => (h.past j hj).2 p (hkept p hp).1⟩
    · rw [List.mem_singleton.mp hj]
      exact ⟨(List.getElem?_eq_some_iff.mp hw).1, fun p hp => (hkept p hp).2⟩
  · rw [List.map_append, List.map_append, h.brought, List.map_singleton, List.map_singleton, hw]

lemma publishers_other {messages accepted : List μ} {calls : List Nat}
    (h : Publishers messages calls accepted s) (hb : s'.begun = s.begun)
    (hp : ∀ p ∈ s'.publishing, p ∈ s.publishing) (ha : publishedIn [action] = [])
    (he : acceptedCalls [event] = []) (hd : accepted? (deedOf s action event) = none) :
    Publishers (messages ++ publishedIn [action]) (calls ++ acceptedCalls [event])
      (accepted ++ (accepted? (deedOf s action event)).toList) s' := by
  rw [ha, he, hd, Option.toList_none, List.append_nil, List.append_nil, List.append_nil]
  exact ⟨hb.trans h.begun, fun p hm => h.waiting p (hp p hm), h.nodup,
    fun call hc => ⟨(h.past call hc).1, fun p hm => (h.past call hc).2 p (hp p hm)⟩, h.brought⟩

lemma mem_of_mem_forget {call : Nat} {p : Nat × μ} (h : p ∈ (s.forget call).publishing) :
    p ∈ s.publishing := List.mem_of_mem_filter h

theorem publishers_step {messages accepted : List μ} {calls : List Nat}
    (h : Publishers messages calls accepted s) (hs : s.step action = some (s', event)) :
    Publishers (messages ++ publishedIn [action]) (calls ++ acceptedCalls [event])
      (accepted ++ (accepted? (deedOf s action event)).toList) s' := by
  cases sessionStep_step hs with
  | start | discard | cancel | addHandle | dropHandle | subscribe | release =>
    exact publishers_other h rfl (fun _ hp => hp) rfl rfl rfl
  | publish m handles =>
    have hnext : Publishers (messages ++ [m]) calls accepted
        { s with publishing := s.publishing ++ [(s.begun, m)], begun := s.begun + 1 } :=
      publishers_publish h m rfl rfl
    simpa [publishedIn, acceptedCalls, deedOf, accepted?] using hnext
  | accepted call m b waiting offer =>
    have hnext := publishers_enter h waiting b
    simpa [publishedIn, acceptedCalls, deedOf, accepted?, waiting] using hnext
  | refused | abandon => exact publishers_other h rfl (fun _ => mem_of_mem_forget) rfl rfl rfl
  | receive id held ready =>
    refine publishers_other h rfl (fun _ hp => hp) rfl rfl ?_
    cases (s.broker.receive id).2 <;> rfl
  | turn b turn turns =>
    refine publishers_other h rfl (fun _ hp => hp) rfl rfl ?_
    cases turn <;> rfl

theorem publishers_run {messages accepted : List μ} {calls : List Nat}
    {actions : List (Session.Action μ)} {events : List (Session.Event μ)}
    (h : Publishers messages calls accepted s) (hr : s.run actions = some (s', events)) :
    Publishers (messages ++ publishedIn actions) (calls ++ acceptedCalls events)
      (accepted ++ acceptedIn (historyOf s actions)) s' := by
  induction actions generalizing s messages accepted calls events with
  | nil =>
    cases hr
    simpa [publishedIn, acceptedCalls, acceptedIn, historyOf] using h
  | cons action rest ih =>
    obtain ⟨s₁, event, behind, hs, hrest, rfl⟩ := shown_cases hr
    have hrun := ih (publishers_step h hs) hrest
    have hpub : publishedIn (action :: rest) = publishedIn [action] ++ publishedIn rest :=
      List.filterMap_append (l := [action])
    have hcalls : acceptedCalls (event :: behind) = acceptedCalls [event] ++ acceptedCalls behind :=
      List.filterMap_append (l := [event])
    have hacc : acceptedIn (historyOf s (action :: rest)) =
        (accepted? (deedOf s action event)).toList ++ acceptedIn (historyOf s₁ rest) := by
      rw [historyOf, hs]
      exact List.filterMap_append (l := [_])
    rw [hpub, hcalls, hacc, ← List.append_assoc, ← List.append_assoc, ← List.append_assoc]
    exact hrun

lemma publishers_default : Publishers ([] : List μ) [] [] {} :=
  ⟨rfl, nofun, List.nodup_nil, nofun, rfl⟩

end Steps

/-- In every run, the messages that publish calls brought are delivered in the order of their
acceptance, each at most once. A subscriber that is there has taken, or has waiting, exactly the
messages delivered since the loop knows it, but for those that came while `subscriberCapacity` were
waiting. In any other run in which the same is delivered and a subscriber does the same in between,
it gets the same. -/
theorem best_effort_delivery (actions : List (Session.Action μ)) (s : Session μ)
    (events : List (Session.Event μ)) (hrun : ({} : Session μ).run actions = some (s, events)) :
    let h := historyOf {} actions
    ((acceptedCalls events).Nodup ∧
      (acceptedIn h).map some =
        (acceptedCalls events).map fun call => (publishedIn actions)[call]?) ∧
    (deliveredIn h ++ s.broker.pending.toList <+: acceptedIn h ∧
      (s.broker.phase ≠ .stopped → acceptedIn h = deliveredIn h ++ s.broker.pending.toList)) ∧
    (∀ id, s.broker.isHeld id = true →
      (deliveriesTo id h).map (·.1) = deliveredIn (sinceRegistered id h) ∧
      takenBy id h ++ unread s.broker id =
        ((deliveriesTo id h).filter fun x => x.2 < subscriberCapacity).map (·.1)) ∧
    ∀ actions' s' events' id id', ({} : Session μ).run actions' = some (s', events') →
      viewOf id h = viewOf id' (historyOf {} actions') →
      takenBy id h = takenBy id' (historyOf {} actions') ∧
        unread s.broker id = unread s'.broker id' := by
  intro h
  have hc : Course {} h s.broker := course_run .nil hrun
  have hpublishers := publishers_run publishers_default hrun
  simp only [List.nil_append] at hpublishers
  refine ⟨⟨hpublishers.nodup, hpublishers.brought⟩, delivered_of_accepted fresh_default hc,
    fun id hheld => ⟨deliveriesTo_messages id h, ?_⟩, ?_⟩
  · exact (account_course fresh_default hc).ledger.exact id hheld
  · intro actions' s' events' id id' hrun' hview
    have hc' : Course {} (historyOf {} actions') s'.broker := course_run .nil hrun'
    have hinbox : inboxOf id h s.broker = inboxOf id' (historyOf {} actions') s'.broker := by
      rw [← inbox_course hc, ← inbox_course hc', hview]
    simp only [inboxOf, Inbox.mk.injEq] at hinbox
    exact ⟨hinbox.2.2, hinbox.2.1⟩

/-- One subscriber reads as it goes, the other never does. -/
def stalled : List (Session.Action Nat) :=
  [.start, .subscribe, .subscribe, .turn, .turn] ++
    (List.range 7).flatMap fun n => [.publish n, .enter n, .turn, .receive 1]

/-- The subscriber that reads gets everything, the other the first five messages. -/
theorem stalled_subscriber_holds_up_nobody :
    ∃ s events, ({} : Session Nat).run stalled = some (s, events) ∧
      takenBy 1 (historyOf {} stalled) ++ unread s.broker 1 = [0, 1, 2, 3, 4, 5, 6] ∧
      takenBy 0 (historyOf {} stalled) ++ unread s.broker 0 = [0, 1, 2, 3, 4] := by
  have hsome : (({} : Session Nat).run stalled).isSome = true := by decide +kernel
  obtain ⟨⟨s, events⟩, hrun⟩ := Option.isSome_iff_exists.mp hsome
  have hheld : ∀ r ∈ ({} : Session Nat).run stalled,
      r.1.broker.isHeld 0 = true ∧ r.1.broker.isHeld 1 = true := by decide +kernel
  obtain ⟨hzero, hone⟩ := hheld _ hrun
  have h := (best_effort_delivery stalled s events hrun).2.2.1
  refine ⟨s, events, hrun, ?_, ?_⟩
  · rw [(h 1 hone).2]
    decide +kernel
  · rw [(h 0 hzero).2]
    decide +kernel

end InverterLink.Proofs
