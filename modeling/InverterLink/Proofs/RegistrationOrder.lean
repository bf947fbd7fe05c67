import InverterLink.Proofs.BestEffort

/-!
# Who is registered when a message goes out

Requests and messages reach the control loop on two ways, and the loop looks at the requests first.
So it knows a subscription before it delivers anything that came later: a message whose publish call
begins behind the subscription is offered to it. Of the messages that came before, at most the one
that still waits for the loop is offered, and then ahead of all others. `Tally` counts the messages
on their way, `Enrolled` says that the loop hears of a subscription in time.
-/

namespace InverterLink.Proofs
open Broker Broker.Session

variable {μ : Type}

/-- A delivery of the loop: what had been seen until then, and the broker just before and just
after. -/
structure Delivery (μ : Type) where
  seen : List (Session.Event μ)
  broker : Broker μ
  message : μ
  after : Broker μ

/-- The publish call of the message: the last one whose message found room, since there is room for
one. -/
def Delivery.call? (d : Delivery μ) : Option Nat := (acceptedCalls d.seen).getLast?

/-- The message is offered to the subscription: the loop knows it, and it is not given up. -/
def Delivery.offeredTo (d : Delivery μ) (id : SubscriberId) : Bool :=
  d.broker.members.contains id && d.broker.isHeld id

/-- The message that an event delivers. -/
def handed? : Session.Event μ → Option μ
  | .turned (.delivered m) => some m
  | _ => none

/-- The delivery of a step, if it is one. -/
def deliveryIn (seen : List (Session.Event μ)) (s : Session μ) (event : Session.Event μ)
    (s' : Session μ) : List (Delivery μ) :=
  (handed? event).toList.map fun m => ⟨seen, s.broker, m, s'.broker⟩

/-- The deliveries of a run, behind what had been seen before. -/
def deliveriesOf (s : Session μ) (seen : List (Session.Event μ)) :
    List (Session.Action μ) → List (Delivery μ)
  | [] => []
  | action :: rest =>
    match s.step action with
    | some (s', event) =>
      deliveryIn seen s event s' ++ deliveriesOf s' (seen ++ [event]) rest
    | none => []

section Moves

variable {b b' : Broker μ} {deed : Deed μ}

lemma pending_move (hm : Move b deed b') (hp : b'.phase ≠ .stopped) :
    b'.pending.toList.length + (delivered? deed).toList.length =
      b.pending.toList.length + (accepted? deed).toList.length := by
  cases hm with
  | start =>
    unfold Broker.start
    split <;> rfl
  | stop => exact absurd rfl hp
  | join =>
    rw [subscribe_pending]
    rfl
  | leave id held =>
    rw [release_pending held]
    rfl
  | accept m phase pending =>
    rw [pending]
    rfl
  | take id m rest queue =>
    rw [receive_of_unread queue]
    rfl
  | deliver m phase requests pending =>
    rw [pending]
    rfl
  | _ => rfl

lemma requests_move {r : Request} (hm : Move b deed b') (hp : b'.phase ≠ .stopped)
    (hr : r ∈ b.requests) : r ∈ b'.requests ∨ deed = .applied r := by
  cases hm with
  | start =>
    refine .inl ?_
    unfold Broker.start
    split <;> exact hr
  | stop => exact absurd rfl hp
  | join =>
    rw [subscribe_phase] at hp
    rw [subscribe_requests hp]
    exact .inl (List.mem_append_left _ hr)
  | leave id held =>
    rw [release_phase held] at hp
    rw [release_requests held hp]
    exact .inl (List.mem_append_left _ hr)
  | take id m rest queue =>
    rw [receive_of_unread queue]
    exact .inl hr
  | apply request rest phase requests =>
    rw [requests] at hr
    rcases List.mem_cons.mp hr with rfl | hr
    · exact .inr rfl
    · exact .inl hr
  | _ => exact .inl hr

lemma deliver_cases {m : μ} (hm : Move b (.delivered m) b') :
    b.phase = .running ∧ b.requests = [] ∧ b.pending = some m := by
  cases hm with
  | deliver _ phase requests pending => exact ⟨phase, requests, pending⟩

lemma unread_deliver_move {m : μ} (hm : Move b (.delivered m) b') (id : SubscriberId) :
    unread b' id =
      if id ∈ b.members ∧ b.isHeld id = true then pushed (unread b id) m else unread b id := by
  cases hm with
  | deliver _ phase requests pending => exact unread_deliver { b with pending := none } id m

end Moves

/-- Every message that found room was delivered or still waits, and the deliveries go by the order
in which the calls were accepted. -/
structure Tally (seen : List (Session.Event μ)) (done : List (Delivery μ)) (s : Session μ) :
    Prop where
  count : s.broker.phase ≠ .stopped →
    (acceptedCalls seen).length = done.length + s.broker.pending.toList.length
  order : done.map (·.call?) <+: (acceptedCalls seen).map some

/-- The loop has applied the registration, or will before it delivers anything. -/
def Enrolled (id : SubscriberId) (seen : List (Session.Event μ)) (b : Broker μ) : Prop :=
  b.phase ≠ .stopped →
    .register id ∈ b.requests ∨ .turned (.applied (.register id)) ∈ seen

section Runs

variable {s s' : Session μ} {action : Session.Action μ} {actions : List (Session.Action μ)}
  {event : Session.Event μ} {events seen : List (Session.Event μ)} {done : List (Delivery μ)}
  {id : SubscriberId}

lemma acceptedCalls_append (first second : List (Session.Event μ)) :
    acceptedCalls (first ++ second) = acceptedCalls first ++ acceptedCalls second :=
  List.filterMap_append

lemma event_shows (hs : s.step action = some (s', event)) :
    (acceptedCalls [event]).length = (accepted? (deedOf s action event)).toList.length ∧
      handed? event = delivered? (deedOf s action event) := by
  cases sessionStep_step hs with
  | accepted call m b waiting =>
    simp [deedOf, waiting, acceptedCalls, accepted?, delivered?, handed?]
  | receive id => cases (s.broker.receive id).2 <;> exact ⟨rfl, rfl⟩
  | turn b turn => cases turn <;> exact ⟨rfl, rfl⟩
  | _ => exact ⟨rfl, rfl⟩

lemma event_of_applied {request : Request} (h : deedOf s action event = .applied request) :
    event = .turned (.applied request) := by
  unfold deedOf at h
  split at h
  · cases h
  · cases h
  · rename_i call _
    cases hm : s.publishing.lookup call <;> simp [hm] at h
  · cases h
  · rename_i turn _
    cases turn <;> cases h
    rfl
  · cases h

lemma handed_move {m : μ} (hs : s.step action = some (s', event)) (he : handed? event = some m) :
    Move s.broker (.delivered m) s'.broker := by
  have hm := move_step hs
  have hdeed : delivered? (deedOf s action event) = some m := (event_shows hs).2 ▸ he
  cases hd : deedOf s action event with
  | delivered m' =>
    rw [hd] at hm hdeed
    cases hdeed
    exact hm
  | _ =>
    rw [hd] at hdeed
    cases hdeed

lemma mem_deliveryIn {d : Delivery μ} (hd : d ∈ deliveryIn seen s event s') :
    ∃ m, handed? event = some m ∧ d = ⟨seen, s.broker, m, s'.broker⟩ := by
  obtain ⟨m, hm, rfl⟩ := List.mem_map.mp hd
  exact ⟨m, Option.mem_toList.mp hm, rfl⟩

theorem tally_step (ht : Tally seen done s) (hs : s.step action = some (s', event)) :
    Tally (seen ++ [event]) (done ++ deliveryIn seen s event s') s' := by
  have hm := move_step hs
  obtain ⟨haccepted, hhanded⟩ := event_shows hs
  constructor
  · intro hp
    have hbefore : s.broker.phase ≠ .stopped := fun hn => hp (stopped_move hm hn)
    have hcount := ht.count hbefore
    have hpending := pending_move hm hp
    rw [acceptedCalls_append, List.length_append, List.length_append, deliveryIn,
      List.length_map, haccepted, hhanded]
    omega
  · rw [acceptedCalls_append, List.map_append, List.map_append, deliveryIn]
    cases he : handed? event with
    | none => simpa using ht.order.trans (List.prefix_append _ _)
    | some m =>
      -- the loop delivers the message that waits, which is that of the last accepted call
      obtain ⟨phase, -, pending⟩ := deliver_cases (handed_move hs he)
      obtain ⟨rest, hrest⟩ := ht.order
      have hlast : (done.map (·.call?)) ++ [(acceptedCalls seen).getLast?] =
          (acceptedCalls seen).map some := by
        have hcount := ht.count (not_stopped phase)
        have hlen := congrArg List.length hrest
        simp only [List.length_append, List.length_map, pending, Option.toList_some,
          List.length_singleton] at hcount hlen
        obtain ⟨call, rfl⟩ := List.length_eq_one_iff.mp (show rest.length = 1 by omega)
        have hcall : ((acceptedCalls seen).map some).getLast? = some call := by
          rw [← hrest, List.getLast?_concat]
        rw [List.getLast?_map, Option.map_eq_some_iff] at hcall
        obtain ⟨last, hcall, rfl⟩ := hcall
        rw [hcall, hrest]
      rw [Option.toList_some, List.map_singleton, List.map_singleton,
        show (Delivery.mk seen s.broker m s'.broker).call? = (acceptedCalls seen).getLast? from rfl,
        hlast]
      exact List.prefix_append _ _

theorem tally_run (ht : Tally seen done s) (hr : s.run actions = some (s', events)) :
    Tally (seen ++ events) (done ++ deliveriesOf s seen actions) s' := by
  induction actions generalizing s seen done events with
  | nil =>
    cases hr
    simpa [deliveriesOf] using ht
  | cons action rest ih =>
    obtain ⟨s₁, event, behind, hs, hrest, rfl⟩ := shown_cases hr
    have hrun := ih (tally_step ht hs) hrest
    simpa [deliveriesOf, hs, List.append_assoc] using hrun

lemma tally_default : Tally ([] : List (Session.Event μ)) [] {} :=
  ⟨fun _ => rfl, List.prefix_refl _⟩

variable (seen) in
lemma deliveriesOf_messages (hr : s.run actions = some (s', events)) :
    (deliveriesOf s seen actions).map (·.message) = deliveredIn (historyOf s actions) := by
  induction actions generalizing s seen events with
  | nil => rfl
  | cons action rest ih =>
    obtain ⟨s₁, event, behind, hs, hrest, rfl⟩ := shown_cases hr
    have hdelivered : deliveredIn (historyOf s (action :: rest)) =
        (delivered? (deedOf s action event)).toList ++ deliveredIn (historyOf s₁ rest) := by
      rw [historyOf, hs]
      exact List.filterMap_append (l := [_])
    rw [hdelivered, ← ih (seen ++ [event]) hrest, ← (event_shows hs).2]
    simp only [deliveriesOf, hs, deliveryIn, List.map_append, List.map_map]
    cases handed? event <;> rfl

lemma enrolled_join (b : Broker μ) (seen : List (Session.Event μ)) :
    Enrolled b.queues.length seen b.subscribe.1 := by
  intro hp
  rw [subscribe_phase] at hp
  rw [subscribe_requests hp]
  exact .inl (List.mem_append_right _ (List.mem_singleton_self _))

lemma enrolled_step (he : Enrolled id seen s.broker) (hs : s.step action = some (s', event)) :
    Enrolled id (seen ++ [event]) s'.broker := by
  intro hp
  have hm := move_step hs
  rcases he fun hn => hp (stopped_move hm hn) with hr | hr
  · rcases requests_move hm hp hr with hr | hr
    · exact .inl hr
    · have hevent := event_of_applied hr
      exact .inr (List.mem_append_right _ (hevent ▸ List.mem_singleton_self _))
  · exact .inr (List.mem_append_left _ hr)

/-- As soon as somebody has subscribed, every delivery comes behind the registration. -/
theorem enrolled_run (he : Enrolled id seen s.broker) (hr : s.run actions = some (s', events))
    (d : Delivery μ) (hd : d ∈ deliveriesOf s seen actions) :
    .turned (.applied (.register id)) ∈ d.seen := by
  induction actions generalizing s seen events with
  | nil => cases hd
  | cons action rest ih =>
    obtain ⟨s₁, event, behind, hs, hrest, rfl⟩ := shown_cases hr
    simp only [deliveriesOf, hs, List.mem_append] at hd
    rcases hd with hd | hd
    · obtain ⟨m, hm, rfl⟩ := mem_deliveryIn hd
      obtain ⟨phase, requests, -⟩ := deliver_cases (handed_move hs hm)
      rcases he (not_stopped phase) with hreq | hseen
      · rw [requests] at hreq
        cases hreq
      · exact hseen
    · exact ih (enrolled_step he hs) hrest hd

/-- Every delivery of a run is a move of the broker, made in good order. -/
theorem delivery_move (hsound : Sound s.broker) (hr : s.run actions = some (s', events))
    (d : Delivery μ) (hd : d ∈ deliveriesOf s seen actions) :
    Sound d.broker ∧ Move d.broker (.delivered d.message) d.after := by
  induction actions generalizing s seen events with
  | nil => cases hd
  | cons action rest ih =>
    obtain ⟨s₁, event, behind, hs, hrest, rfl⟩ := shown_cases hr
    simp only [deliveriesOf, hs, List.mem_append] at hd
    rcases hd with hd | hd
    · obtain ⟨m, hm, rfl⟩ := mem_deliveryIn hd
      exact ⟨hsound, handed_move hs hm⟩
    · exact ih (sound_move hsound (move_step hs)) hrest hd

lemma offered_of_held {d : Delivery μ} (hsound : Sound d.broker)
    (hm : Move d.broker (.delivered d.message) d.after) (held : d.broker.isHeld id = true) :
    d.offeredTo id = true := by
  obtain ⟨phase, requests, -⟩ := deliver_cases hm
  have hmem := member_of_held hsound phase requests held
  simpa [Delivery.offeredTo, hmem] using held

lemma unread_offered {d : Delivery μ} (hm : Move d.broker (.delivered d.message) d.after)
    (id : SubscriberId) :
    unread d.after id =
      if d.offeredTo id then pushed (unread d.broker id) d.message else unread d.broker id := by
  simp only [unread_deliver_move hm, Delivery.offeredTo, Bool.and_eq_true, List.contains_iff_mem]

lemma queues_run (hr : s.run actions = some (s', events)) :
    s.broker.queues.length ≤ s'.broker.queues.length := by
  refine run_induction (P := fun s' => s.broker.queues.length ≤ s'.broker.queues.length)
    (Nat.le_refl _) (fun s₁ action s₂ shown hlen hs => ?_) hr
  obtain ⟨event, hstep, -⟩ := showing_cases hs
  exact hlen.trans (queues_move (move_step hstep))

lemma delivery_within (hr : s.run actions = some (s', events)) (d : Delivery μ)
    (hd : d ∈ deliveriesOf s seen actions) :
    d.seen <+: seen ++ events ∧ d.broker.queues.length ≤ s'.broker.queues.length := by
  induction actions generalizing s seen events with
  | nil => cases hd
  | cons action rest ih =>
    have hwhole := queues_run hr
    obtain ⟨s₁, event, behind, hs, hrest, rfl⟩ := shown_cases hr
    simp only [deliveriesOf, hs, List.mem_append] at hd
    rcases hd with hd | hd
    · obtain ⟨m, -, rfl⟩ := mem_deliveryIn hd
      exact ⟨List.prefix_append _ _, hwhole⟩
    · simpa using ih hrest hd

lemma unoffered_of_unmade {d : Delivery μ} (hd : d.broker.queues.length ≤ id) :
    d.offeredTo id = false := by
  by_contra hn
  rw [Bool.not_eq_false, Delivery.offeredTo, Bool.and_eq_true] at hn
  exact absurd (lt_of_isHeld hn.2) (Nat.not_lt.mpr hd)

variable (seen) in
lemma deliveriesOf_append {first : List (Session.Action μ)} {s₁ : Session μ}
    {ahead : List (Session.Event μ)} (hfirst : s.run first = some (s₁, ahead))
    (second : List (Session.Action μ)) :
    deliveriesOf s seen (first ++ second) =
      deliveriesOf s seen first ++ deliveriesOf s₁ (seen ++ ahead) second := by
  induction first generalizing s seen ahead with
  | nil =>
    cases hfirst
    rw [List.append_nil]
    rfl
  | cons action rest ih =>
    obtain ⟨s₂, event, later, hs, hrest, rfl⟩ := shown_cases hfirst
    have hdeliveries := ih (seen ++ [event]) hrest
    simp [deliveriesOf, hs, hdeliveries]

end Runs

section Deliveries

variable {s s₁ s₂ : Session μ} {actions before after : List (Session.Action μ)}
  {events seen : List (Session.Event μ)}

lemma getElem?_of_prefix {α : Type} {short long : List α} {i : Nat} {a : α}
    (h : short <+: long) (hi : short[i]? = some a) : long[i]? = some a := by
  obtain ⟨rest, rfl⟩ := h
  rw [List.getElem?_append_left (List.getElem?_eq_some_iff.mp hi).1, hi]

/-- The loop delivers the messages that its publish calls brought, in the order of acceptance. -/
theorem delivery_at (hr : ({} : Session μ).run actions = some (s, events)) {i : Nat}
    {d : Delivery μ} (hd : (deliveriesOf {} [] actions)[i]? = some d) :
    ∃ call, d.call? = some call ∧ (acceptedCalls events)[i]? = some call ∧
      (acceptedIn (historyOf {} actions))[i]? = some d.message ∧
      (publishedIn actions)[call]? = some d.message := by
  have htally := tally_run tally_default hr
  have hpublishers := publishers_run publishers_default hr
  simp only [List.nil_append] at htally hpublishers
  have hcall : ((acceptedCalls events).map some)[i]? = some d.call? :=
    getElem?_of_prefix htally.order (by rw [List.getElem?_map, hd, Option.map_some])
  rw [List.getElem?_map, Option.map_eq_some_iff] at hcall
  obtain ⟨call, hi, hcall⟩ := hcall
  have hmessage : (acceptedIn (historyOf {} actions))[i]? = some d.message := by
    have hcourse := (delivered_of_accepted fresh_default (course_run .nil hr)).1
    refine getElem?_of_prefix ((List.prefix_append _ _).trans hcourse) ?_
    rw [List.nil_append, ← deliveriesOf_messages [] hr, List.getElem?_map, hd,
      Option.map_some]
  have hbrought := congrArg (·[i]?) hpublishers.brought
  simp only [List.getElem?_map, hi, hmessage, Option.map_some, Option.some.injEq] at hbrought
  exact ⟨call, hcall.symm, hi, hmessage, hbrought.symm⟩

lemma delivered_begun (hr : ({} : Session μ).run actions = some (s, events)) {d : Delivery μ}
    (hd : d ∈ deliveriesOf {} [] actions) {call : Nat} (hcall : d.call? = some call) :
    call < s.begun := by
  have hmem : call ∈ acceptedCalls events :=
    ((delivery_within hr d hd).1.filterMap _).subset (List.mem_of_getLast? hcall)
  have hpublishers := publishers_run publishers_default hr
  rw [List.nil_append, List.nil_append] at hpublishers
  exact hpublishers.begun ▸ (hpublishers.past call hmem).1

lemma deliveriesOf_stopped (hp : s.broker.phase = .stopped) : deliveriesOf s seen actions = [] := by
  induction actions generalizing s seen with
  | nil => rfl
  | cons action rest ih =>
    rw [deliveriesOf]
    split
    · rename_i s' event hs
      rw [ih (stopped_move (move_step hs) hp), List.append_nil, List.eq_nil_iff_forall_not_mem]
      intro d hd
      obtain ⟨m, hm, -⟩ := mem_deliveryIn hd
      rw [(deliver_cases (handed_move hs hm)).1] at hp
      cases hp
    · rfl

/-- Only the message that waits for the loop can be delivered later on. It comes first. -/
theorem leftover_first (hbefore : ({} : Session μ).run before = some (s₁, seen))
    (hafter : s₁.run after = some (s₂, events)) {i call : Nat} {d : Delivery μ}
    (hd : (deliveriesOf s₁ seen after)[i]? = some d) (hcall : d.call? = some call)
    (hold : call ∈ acceptedCalls seen) : i = 0 ∧ s₁.broker.pending = some d.message := by
  have hrun := runs_append hbefore hafter
  have hall := deliveriesOf_append [] hbefore after
  rw [List.nil_append] at hall
  have hat : (deliveriesOf {} [] (before ++ after))[(deliveriesOf {} [] before).length + i]? =
      some d := by
    rw [hall, List.getElem?_append_right (Nat.le_add_right _ _), Nat.add_sub_cancel_left, hd]
  obtain ⟨call', hcall', hi, -, hmessage⟩ := delivery_at hrun hat
  obtain rfl : call' = call := by rwa [hcall', Option.some.injEq] at hcall
  -- the calls before are the first ones, and the loop has delivered all of them but one
  have hnodup := (publishers_run publishers_default hrun).nodup
  rw [List.nil_append] at hnodup
  obtain ⟨j, hj⟩ := List.mem_iff_getElem?.mp hold
  have hjlt := (List.getElem?_eq_some_iff.mp hj).1
  have hij : (deliveriesOf {} [] before).length + i = j := by
    refine (List.getElem?_inj (List.getElem?_eq_some_iff.mp hi).1 hnodup).mp ?_
    rw [hi, acceptedCalls_append, List.getElem?_append_left hjlt, hj]
  have hrunning : s₁.broker.phase ≠ .stopped := by
    intro hn
    rw [deliveriesOf_stopped hn] at hd
    cases hd
  have hcount := (tally_run tally_default hbefore).count hrunning
  rw [List.nil_append, List.nil_append] at hcount
  cases hpending : s₁.broker.pending with
  | none =>
    rw [hpending, Option.toList_none, List.length_nil] at hcount
    omega
  | some m =>
    rw [hpending, Option.toList_some, List.length_singleton] at hcount
    obtain rfl : i = 0 := by omega
    refine ⟨rfl, ?_⟩
    have haccepted : (acceptedIn (historyOf {} before))[j]? = some m := by
      have hcourse := (delivered_of_accepted fresh_default (course_run .nil hbefore)).2 hrunning
      rw [List.nil_append, hpending, Option.toList_some] at hcourse
      have hlen : (deliveredIn (historyOf {} before)).length = j := by
        rw [← deliveriesOf_messages [] hbefore, List.length_map, ← hij, Nat.add_zero]
      rw [hcourse, ← hlen, List.getElem?_concat_length]
    have hpublished : (publishedIn before)[call']? = some m := by
      have hbrought := congrArg (·[j]?) (publishers_run publishers_default hbefore).brought
      simpa [haccepted, hj, eq_comm] using hbrought
    have hsplit : publishedIn (before ++ after) = publishedIn before ++ publishedIn after :=
      List.filterMap_append
    rw [hsplit, List.getElem?_append_left (List.getElem?_eq_some_iff.mp hpublished).1,
      hpublished] at hmessage
    exact hmessage

end Deliveries

lemma mem_of_mem_tail_filter {α : Type} {p : α → Bool} {l : List α} {a : α}
    (h : a ∈ (l.filter p).tail) : a ∈ l.tail := by
  cases l with
  | nil => exact h
  | cons b rest =>
    rw [List.filter_cons] at h
    split at h
    · exact List.mem_of_mem_filter h
    · exact List.mem_of_mem_filter (List.mem_of_mem_tail h)

/-- In every run of a broker, with any number of publishers and subscribers that act in any order,
and at every subscription made in it: the loop delivers the messages of the publish calls in the
order in which they found room, each once. It has registered the subscription before it delivers a
message whose call begins later, so that it offers that message to the subscription, unless it is
given up by then. Of the messages whose calls had returned before, it offers at most one, the one
that waited for the loop, and that one first. What is offered to a subscription goes to the end of
its queue, unless the queue is full; what is not leaves the queue as it is. -/
theorem registration_order (before after : List (Session.Action μ)) (s₁ s₂ : Session μ)
    (seen events : List (Session.Event μ)) (id : SubscriberId)
    (hbefore : ({} : Session μ).run before = some (s₁, seen))
    (hafter : s₁.run (.subscribe :: after) = some (s₂, .subscribed id :: events)) :
    let actions := before ++ .subscribe :: after
    let deliveries := deliveriesOf {} [] actions
    let offers := deliveries.filter (·.offeredTo id)
    (deliveries.map (·.call?) <+:
        (acceptedCalls (seen ++ .subscribed id :: events)).map some ∧
      ∀ d ∈ deliveries, ∃ call, d.call? = some call ∧
        (publishedIn actions)[call]? = some d.message) ∧
    (∀ d ∈ deliveries, ∀ call, d.call? = some call → s₁.begun ≤ call →
      .turned (.applied (.register id)) ∈ d.seen ∧
        (d.broker.isHeld id = true → d ∈ offers)) ∧
    (∀ d ∈ offers, ∀ call, d.call? = some call → call ∈ acceptedCalls seen →
      s₁.broker.pending = some d.message) ∧
    (∀ d ∈ offers.tail, ∀ call, d.call? = some call → call ∉ acceptedCalls seen) ∧
    ∀ d ∈ deliveries, ∀ j, unread d.after j =
      if d.offeredTo j then pushed (unread d.broker j) d.message else unread d.broker j := by
  intro actions deliveries offers
  have hrun := runs_append hbefore hafter
  have hsplit := deliveriesOf_append [] hbefore (.subscribe :: after)
  rw [List.nil_append] at hsplit
  obtain ⟨s, event, later, hs, hlater, heq⟩ := shown_cases hafter
  cases heq
  obtain ⟨rfl, hbroker⟩ : id = s₁.broker.queues.length ∧ s.broker = s₁.broker.subscribe.1 := by
    cases sessionStep_step hs
    exact ⟨rfl, rfl⟩
  have hmoves : ∀ d ∈ deliveries,
      Sound d.broker ∧ Move d.broker (.delivered d.message) d.after :=
    delivery_move fresh_default.sound hrun
  have hoffers : offers =
      (deliveriesOf s₁ seen (.subscribe :: after)).filter
        (·.offeredTo s₁.broker.queues.length) := by
    rw [show offers = _ from congrArg _ hsplit, List.filter_append, List.append_left_eq_self,
      List.filter_eq_nil_iff]
    intro d hd
    simp [unoffered_of_unmade (delivery_within hbefore d hd).2]
  refine ⟨⟨?_, ?_⟩, ?_, ?_, ?_, fun d hd => unread_offered (hmoves d hd).2⟩
  · have htally := tally_run tally_default hrun
    simpa using htally.order
  · intro d hd
    obtain ⟨i, hi⟩ := List.mem_iff_getElem?.mp hd
    obtain ⟨call, hcall, -, -, hmessage⟩ := delivery_at hrun hi
    exact ⟨call, hcall, hmessage⟩
  · intro d hd call hcall hbegun
    have hlate : d ∈ deliveriesOf s (seen ++ [.subscribed s₁.broker.queues.length]) after := by
      rw [show deliveries = _ from hsplit, List.mem_append] at hd
      rcases hd with hd | hd
      · exact absurd hbegun (Nat.not_le.mpr (delivered_begun hbefore hd hcall))
      · simpa [deliveriesOf, hs, deliveryIn, handed?] using hd
    have henrolled := enrolled_join s₁.broker (seen ++ [.subscribed s₁.broker.queues.length])
    rw [← hbroker] at henrolled
    refine ⟨enrolled_run henrolled hlater d hlate, fun held => List.mem_filter.mpr ⟨hd, ?_⟩⟩
    exact offered_of_held (hmoves d hd).1 (hmoves d hd).2 held
  · intro d hd call hcall hold
    rw [hoffers] at hd
    obtain ⟨i, hi⟩ := List.mem_iff_getElem?.mp (List.mem_of_mem_filter hd)
    exact (leftover_first hbefore hafter hi hcall hold).2
  · intro d hd call hcall hold
    rw [hoffers] at hd
    obtain ⟨i, hi⟩ := List.mem_iff_getElem?.mp (mem_of_mem_tail_filter hd)
    rw [List.getElem?_tail] at hi
    cases (leftover_first hbefore hafter hi hcall hold).1

/-- The loop lags: it has delivered one message, another one waits for it, and a third for room. -/
def lagging : List (Session.Action Nat) :=
  [.start, .publish 7, .enter 0, .turn, .publish 8, .enter 1, .publish 9]

/-- A fourth message comes behind the subscription, and the loop goes on. -/
def caughtUp : List (Session.Action Nat) :=
  [.publish 10, .turn, .turn, .enter 2, .turn, .enter 3, .turn]

/-- The queue of the subscription fills with the message that waited and those behind it, but not
with the first one. -/
theorem lagging_loop_keeps_order :
    ∃ s₁ s₂ seen events, ({} : Session Nat).run lagging = some (s₁, seen) ∧
      s₁.run (.subscribe :: caughtUp) = some (s₂, .subscribed 0 :: events) ∧
      acceptedCalls seen = [0, 1] ∧ s₁.broker.pending = some 8 ∧
      (let offers := (deliveriesOf {} [] (lagging ++ .subscribe :: caughtUp)).filter
        (·.offeredTo 0)
      offers.map (·.message) = [8, 9, 10] ∧
      offers.map (fun d => unread d.after 0) = [[8], [8, 9], [8, 9, 10]] ∧
      (∀ d ∈ offers, ∀ call, d.call? = some call → call ∈ acceptedCalls seen → d.message = 8) ∧
      ∀ d ∈ offers.tail, ∀ call, d.call? = some call → call ∉ acceptedCalls seen) := by
  have hsome : (({} : Session Nat).run lagging).isSome = true := by decide +kernel
  obtain ⟨⟨s₁, seen⟩, hbefore⟩ := Option.isSome_iff_exists.mp hsome
  have hbehind : ∀ r ∈ ({} : Session Nat).run lagging, acceptedCalls r.2 = [0, 1] ∧
      r.1.broker.pending = some 8 ∧
      ((r.1.run (.subscribe :: caughtUp)).map fun x => x.2.head?) =
        some (some (.subscribed 0)) := by decide +kernel
  obtain ⟨hcalls, hpending, hhead⟩ := hbehind _ hbefore
  obtain ⟨⟨s₂, all⟩, hafter, hhead⟩ := Option.map_eq_some_iff.mp hhead
  obtain ⟨events, rfl⟩ := List.head?_eq_some_iff.mp hhead
  obtain ⟨-, -, hwaited, hlater, hqueues⟩ :=
    registration_order lagging caughtUp s₁ s₂ seen events 0 hbefore hafter
  refine ⟨s₁, s₂, seen, events, hbefore, hafter, hcalls, hpending, by decide +kernel, ?_, ?_,
    hlater⟩
  · have hpushed : ∀ d ∈ (deliveriesOf {} [] (lagging ++ .subscribe :: caughtUp)).filter
        (·.offeredTo 0), unread d.after 0 = pushed (unread d.broker 0) d.message := by
      intro d hd
      obtain ⟨hmem, hoffered⟩ := List.mem_filter.mp hd
      rw [hqueues d hmem 0, if_pos hoffered]
    exact (List.map_congr_left hpushed).trans (by decide +kernel)
  · intro d hd call hcall hold
    exact (Option.some.inj (hpending.symm.trans (hwaited d hd call hcall hold))).symm

end InverterLink.Proofs
