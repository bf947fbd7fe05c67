import InverterLink.Proofs.BrokerMoves

/-!
# What subscribers get

A history lists what was done with a broker, each time with the broker as it was. From it one can
tell what a subscription gets: the messages delivered since the loop knows it, less those that came
while five were unread (`keptFor`). Of the other subscribers nothing can be seen there: what a
subscriber does itself and what is delivered determine its queue (`Inbox`). What the loop delivers
is what was accepted, in the same order.
-/

namespace InverterLink.Proofs

variable {μ : Type}

/-- What was done, and the broker just before. -/
structure Moment (μ : Type) where
  broker : Broker μ
  deed : Deed μ

def delivered? : Deed μ → Option μ
  | .delivered m => some m
  | _ => none

def accepted? : Deed μ → Option μ
  | .accepted m => some m
  | _ => none

def took? (id : SubscriberId) : Deed μ → Option μ
  | .took j m => if j = id then some m else none
  | _ => none

/-- The loop gets to know the subscription. -/
def registers (id : SubscriberId) : Deed μ → Bool
  | .applied (.register j) => j = id
  | _ => false

/-- The messages that the loop delivered, in order. -/
def deliveredIn (h : List (Moment μ)) : List μ := h.filterMap fun x => delivered? x.deed

/-- The messages that found room, in order. -/
def acceptedIn (h : List (Moment μ)) : List μ := h.filterMap fun x => accepted? x.deed

/-- The messages that a subscriber took out of its queue, in order. -/
def takenBy (id : SubscriberId) (h : List (Moment μ)) : List μ :=
  h.filterMap fun x => took? id x.deed

/-- The loop knows the subscription, or did once. -/
def registered (id : SubscriberId) (h : List (Moment μ)) : Bool :=
  h.any fun x => registers id x.deed

/-- What happened since the loop knows the subscription. -/
def sinceRegistered (id : SubscriberId) (h : List (Moment μ)) : List (Moment μ) :=
  (h.dropWhile fun x => !registers id x.deed).tail

/-- The messages delivered since the loop knows a subscription, each with the count of messages
that were unread there at that moment. -/
def deliveriesTo (id : SubscriberId) (h : List (Moment μ)) : List (μ × Nat) :=
  (sinceRegistered id h).filterMap fun x =>
    (delivered? x.deed).map fun m => (m, (unread x.broker id).length)

/-- The messages that found room in the queue of a subscription. -/
def keptFor (id : SubscriberId) (h : List (Moment μ)) : List μ :=
  ((deliveriesTo id h).filter fun x => x.2 < subscriberCapacity).map (·.1)

/-- How a history leads from one broker to another. -/
inductive Course (b₀ : Broker μ) : List (Moment μ) → Broker μ → Prop where
  | nil : Course b₀ [] b₀
  | snoc {h : List (Moment μ)} {b b' : Broker μ} {deed : Deed μ} (before : Course b₀ h b)
    (move : Move b deed b') : Course b₀ (h ++ [⟨b, deed⟩]) b'

/-- A broker at the start: nobody is known, nothing is on the way. -/
structure Fresh (b : Broker μ) : Prop where
  sound : Sound b
  members : b.members = []
  pending : b.pending = none
  unread : ∀ id, unread b id = []

lemma fresh_default : Fresh ({} : Broker μ) where
  sound := ⟨nofun, nofun, nofun, fun _ _ hheld => absurd (lt_of_isHeld hheld) (Nat.not_lt_zero _),
    fun _ _ => rfl⟩
  members := rfl
  pending := rfl
  unread _ := rfl

lemma fresh_subscribe {b : Broker μ} (h : Fresh b) : Fresh b.subscribe.1 where
  sound := sound_join h.sound
  members := by rw [subscribe_members, h.members]
  pending := by rw [subscribe_pending, h.pending]
  unread id := by rw [unread_subscribe, h.unread]

section Lists

variable (id : SubscriberId) (h : List (Moment μ)) (x : Moment μ)

lemma deliveriesTo_messages :
    (deliveriesTo id h).map (·.1) = deliveredIn (sinceRegistered id h) := by
  simp only [deliveriesTo, deliveredIn, List.map_filterMap, Option.map_map]
  congr 1
  funext x
  cases delivered? x.deed <;> rfl

lemma deliveredIn_concat :
    deliveredIn (h ++ [x]) = deliveredIn h ++ (delivered? x.deed).toList := by
  rw [deliveredIn, List.filterMap_append]
  rfl

lemma acceptedIn_concat :
    acceptedIn (h ++ [x]) = acceptedIn h ++ (accepted? x.deed).toList := by
  rw [acceptedIn, List.filterMap_append]
  rfl

lemma takenBy_concat : takenBy id (h ++ [x]) = takenBy id h ++ (took? id x.deed).toList := by
  rw [takenBy, List.filterMap_append]
  rfl

lemma registered_concat :
    registered id (h ++ [x]) = (registered id h || registers id x.deed) := by
  simp [registered]

lemma sinceRegistered_concat :
    sinceRegistered id (h ++ [x]) =
      sinceRegistered id h ++ if registered id h = true then [x] else [] := by
  have hempty : (h.dropWhile fun x => !registers id x.deed) = [] ↔ registered id h = false := by
    rw [List.dropWhile_eq_nil_iff]
    simp [registered]
  rw [sinceRegistered, sinceRegistered, List.dropWhile_append]
  by_cases hr : registered id h = true
  · have hne : (h.dropWhile fun x => !registers id x.deed) ≠ [] := by
      rw [Ne, hempty, hr]
      nofun
    rw [if_pos hr, if_neg (by simpa using hne), List.tail_append_of_ne_nil hne]
  · have hnil := hempty.mpr (Bool.eq_false_iff.mpr hr)
    rw [if_neg hr, hnil]
    simp only [List.isEmpty_nil, if_true, List.dropWhile_cons, List.dropWhile_nil, List.tail_nil,
      List.append_nil]
    split <;> rfl

variable {id h x}

lemma keptFor_unregistered (hr : registered id h = false) : keptFor id h = [] := by
  have hnil : (h.dropWhile fun x => !registers id x.deed) = [] := by
    rw [List.dropWhile_eq_nil_iff]
    simpa [registered] using hr
  rw [keptFor, deliveriesTo, sinceRegistered, hnil]
  rfl

lemma keptFor_concat_other (hx : delivered? x.deed = none) :
    keptFor id (h ++ [x]) = keptFor id h := by
  rw [keptFor, keptFor, deliveriesTo, deliveriesTo, sinceRegistered_concat]
  split <;> simp [hx]

lemma keptFor_concat_delivered {b : Broker μ} {m : μ} (hr : registered id h = true) :
    keptFor id (h ++ [⟨b, .delivered m⟩]) =
      keptFor id h ++ if (unread b id).length < subscriberCapacity then [m] else [] := by
  rw [keptFor, keptFor, deliveriesTo, deliveriesTo, sinceRegistered_concat, if_pos hr,
    List.filterMap_append, List.filter_append, List.map_append]
  congr 1
  by_cases hroom : (unread b id).length < subscriberCapacity <;> simp [delivered?, hroom]

lemma unread_length_move {b b' : Broker μ} {deed : Deed μ} (hm : Move b deed b')
    (hnone : delivered? deed = none) : (unread b' id).length ≤ (unread b id).length := by
  cases hm with
  | start => rw [unread_of_queues (start_queues b)]
  | join => rw [unread_subscribe]
  | leave j held =>
    rw [unread_release held]
    split
    · exact Nat.zero_le _
    · exact Nat.le_refl _
  | take j m rest queue =>
    rw [unread_receive queue]
    split
    · rename_i he
      rw [← he, queue]
      exact Nat.le_succ _
    · exact Nat.le_refl _
  | deliver m phase requests pending => cases hnone
  | _ => exact Nat.le_refl _

lemma took_unmade {b b' : Broker μ} {deed : Deed μ} (hm : Move b deed b')
    (hid : b.queues.length ≤ id) : took? id deed = none := by
  cases hm with
  | take j m rest queue =>
    refine if_neg ?_
    rintro rfl
    rw [unread_unmade hid] at queue
    cases queue
  | _ => rfl

lemma pushed_drop (messages : List μ) (m : μ) :
    messages ++ (pushed messages m).drop messages.length = pushed messages m := by
  unfold pushed
  split
  · rw [List.drop_left]
  · rw [List.drop_length, List.append_nil]

/-- What is taken out of a queue was in it, and so is what is new in it, behind the rest. -/
lemma unread_move {b b' : Broker μ} {deed : Deed μ} (hm : Move b deed b')
    (hleft : deed = .left id → unread b id = []) :
    (took? id deed).toList ++ unread b' id =
      unread b id ++ (unread b' id).drop (unread b id).length := by
  have hsame : took? id deed = none → unread b' id = unread b id →
      (took? id deed).toList ++ unread b' id =
        unread b id ++ (unread b' id).drop (unread b id).length := by
    intro htook hunread
    rw [htook, hunread, List.drop_length, List.append_nil]
    rfl
  cases hm with
  | idle handles => exact hsame rfl rfl
  | start => exact hsame rfl (unread_of_queues (start_queues b) id)
  | stop => exact hsame rfl rfl
  | join => exact hsame rfl (unread_subscribe b id)
  | leave j held =>
    refine hsame rfl ?_
    rw [unread_release held]
    split
    · rename_i he
      exact (hleft (congrArg Deed.left he)).symm
    · rfl
  | accept m phase pending => exact hsame rfl rfl
  | take j m rest queue =>
    by_cases he : j = id
    · subst he
      rw [unread_receive queue, if_pos rfl, queue, took?, if_pos rfl,
        List.drop_eq_nil_of_le (by simp), List.append_nil]
      rfl
    · exact hsame (if_neg he) (by rw [unread_receive queue, if_neg he])
  | apply request rest phase requests => exact hsame rfl rfl
  | deliver m phase requests pending =>
    by_cases hin : id ∈ b.members ∧ b.isHeld id = true
    · have hpush : unread ({ b with pending := none }.deliver m) id = pushed (unread b id) m := by
        rw [unread_deliver]
        exact if_pos hin
      rw [hpush]
      exact (pushed_drop (unread b id) m).symm
    · refine hsame rfl ?_
      rw [unread_deliver]
      exact if_neg hin

lemma pushed_eq (messages : List μ) (m : μ) :
    pushed messages m = messages ++ if messages.length < subscriberCapacity then [m] else [] := by
  unfold pushed
  split
  · rfl
  · rw [List.append_nil]

end Lists

section Accounts

variable {b₀ b b' : Broker μ} {h : List (Moment μ)} {deed : Deed μ}

/-- Whom the loop knows: whoever was registered and is still held. -/
structure Roll (h : List (Moment μ)) (b : Broker μ) : Prop where
  known : ∀ id, registered id h = true → id < b.queues.length
  member : ∀ id ∈ b.members, registered id h = true
  stays : b.phase ≠ .stopped → ∀ id, b.isHeld id = true → registered id h = true → id ∈ b.members

lemma roll_of_members (hr : Roll h b) (hdeed : ∀ id, registers id deed = false)
    (hlen : b.queues.length ≤ b'.queues.length) (hmem : ∀ id ∈ b'.members, id ∈ b.members)
    (hphase : b'.phase ≠ .stopped → b.phase ≠ .stopped)
    (hheld : b'.phase ≠ .stopped → ∀ id, b'.isHeld id = true → id < b.queues.length →
      b.isHeld id = true ∧ (id ∈ b.members → id ∈ b'.members)) :
    Roll (h ++ [⟨b, deed⟩]) b' := by
  have hsame : ∀ id, registered id (h ++ [⟨b, deed⟩]) = registered id h := by
    intro id
    rw [registered_concat, hdeed id, Bool.or_false]
  constructor
  · intro id hid
    rw [hsame] at hid
    exact Nat.lt_of_lt_of_le (hr.known id hid) hlen
  · intro id hid
    rw [hsame]
    exact hr.member id (hmem id hid)
  · intro hp id hh hid
    rw [hsame] at hid
    obtain ⟨hh', hin⟩ := hheld hp id hh (hr.known id hid)
    exact hin (hr.stays (hphase hp) id hh' hid)

lemma roll_apply {request : Request} {rest : List Request} (hs : Sound b) (hr : Roll h b)
    (phase : b.phase = .running) (requests : b.requests = request :: rest) :
    Roll (h ++ [⟨b, .applied request⟩]) ({ b with requests := rest }.apply request) := by
  have hfirst : request ∈ b.requests := by
    rw [requests]
    exact List.mem_cons_self
  have hrunning := not_stopped phase
  cases request with
  | register j =>
    have hall : ∀ id, registered id (h ++ [⟨b, .applied (.register j)⟩]) =
        (registered id h || decide (j = id)) := fun id => registered_concat id h _
    constructor
    · intro id hid
      rw [hall, Bool.or_eq_true, decide_eq_true_eq] at hid
      rcases hid with hid | rfl
      · exact hr.known id hid
      · exact hs.registering j hfirst
    · intro id hid
      rw [hall, Bool.or_eq_true, decide_eq_true_eq]
      rcases List.mem_append.mp hid with hid | hid
      · exact .inl (hr.member id hid)
      · exact .inr (List.mem_singleton.mp hid).symm
    · intro _ id hh hid
      rw [hall, Bool.or_eq_true, decide_eq_true_eq] at hid
      rcases hid with hid | rfl
      · exact List.mem_append_left _ (hr.stays hrunning id hh hid)
      · exact List.mem_append_right _ (List.mem_singleton_self _)
  | remove j =>
    refine roll_of_members hr (fun _ => rfl) (Nat.le_refl _)
      (fun id hid => List.mem_of_mem_filter hid) (fun _ => hrunning) ?_
    intro _ id hh _
    refine ⟨hh, fun hin => List.mem_filter.mpr ⟨hin, ?_⟩⟩
    -- whoever is to be removed is not held any more
    have hne : id ≠ j := by
      rintro rfl
      have hh : b.isHeld id = true := hh
      rw [(hs.removing id hfirst).2] at hh
      cases hh
    simpa using hne

theorem roll_move (hs : Sound b) (hr : Roll h b) (hm : Move b deed b') :
    Roll (h ++ [⟨b, deed⟩]) b' := by
  cases hm with
  | idle handles =>
    exact roll_of_members hr (fun _ => rfl) (Nat.le_refl _) (fun _ hid => hid) (fun hp => hp)
      (fun _ _ hh _ => ⟨hh, fun hin => hin⟩)
  | start =>
    have hphase : b.start.phase ≠ .stopped → b.phase ≠ .stopped := by
      intro hp hn
      exact hp (stopped_move (.start b) hn)
    have hq : b.start.queues = b.queues ∧ b.start.members = b.members := by
      unfold Broker.start
      split <;> exact ⟨rfl, rfl⟩
    refine roll_of_members hr (fun _ => rfl) (by rw [hq.1]) (fun id hid => hq.2 ▸ hid) hphase ?_
    intro _ id hh _
    rw [isHeld_of_queues hq.1] at hh
    exact ⟨hh, fun hin => hq.2 ▸ hin⟩
  | stop =>
    exact roll_of_members hr (fun _ => rfl) (Nat.le_refl _) (by simp [Broker.stop])
      (fun hp => absurd rfl hp)
      (fun hp => absurd rfl hp)
  | join =>
    refine roll_of_members hr (fun _ => rfl) ?_ (fun id hid => subscribe_members b ▸ hid)
      (fun hp => subscribe_phase b ▸ hp) ?_
    · rw [subscribe_queues, List.length_append]
      exact Nat.le_add_right _ _
    · intro _ id hh hlt
      rw [isHeld_subscribe, Bool.or_eq_true, beq_iff_eq] at hh
      rw [subscribe_members]
      exact ⟨hh.resolve_right hlt.ne, fun hin => hin⟩
  | leave j held =>
    refine roll_of_members hr (fun _ => rfl) ?_ (fun id hid => release_members held ▸ hid)
      (fun hp => release_phase held ▸ hp) ?_
    · rw [release_queues held, List.length_modify]
    · intro _ id hh _
      rw [isHeld_release held] at hh
      rw [release_members held]
      split at hh
      · cases hh
      · exact ⟨hh, fun hin => hin⟩
  | accept m phase pending =>
    exact roll_of_members hr (fun _ => rfl) (Nat.le_refl _) (fun _ hid => hid) (fun hp => hp)
      (fun _ _ hh _ => ⟨hh, fun hin => hin⟩)
  | take j m rest queue =>
    have hheld := isHeld_receive queue
    rw [receive_of_unread queue] at hheld ⊢
    refine roll_of_members hr (fun _ => rfl) (by simp) (fun _ hid => hid) (fun hp => hp) ?_
    intro _ id hh _
    rw [hheld] at hh
    exact ⟨hh, fun hin => hin⟩
  | apply request rest phase requests => exact roll_apply hs hr phase requests
  | deliver m phase requests pending =>
    refine roll_of_members hr (fun _ => rfl) (by simp [Broker.deliver])
      (fun id hid => List.mem_of_mem_filter hid) (fun hp => hp) ?_
    intro _ id hh _
    have hh : b.isHeld id = true := by rwa [isHeld_deliver] at hh
    exact ⟨hh, fun hin => List.mem_filter.mpr ⟨hin, hh⟩⟩

/-- What a subscriber has taken and what waits for it is what found room in its queue. -/
structure Ledger (h : List (Moment μ)) (b : Broker μ) : Prop where
  untaken : ∀ id, b.queues.length ≤ id → takenBy id h = []
  exact : ∀ id, b.isHeld id = true → takenBy id h ++ unread b id = keptFor id h

lemma ledger_of_unread (hl : Ledger h b) (hr : Roll h b) (htook : ∀ id, took? id deed = none)
    (hnone : delivered? deed = none) (hlen : b.queues.length ≤ b'.queues.length)
    (hheld : ∀ id, b'.isHeld id = true → unread b' id = unread b id ∧
      (b.isHeld id = true ∨ b.queues.length ≤ id)) :
    Ledger (h ++ [⟨b, deed⟩]) b' := by
  have hsame : ∀ id, takenBy id (h ++ [⟨b, deed⟩]) = takenBy id h := by
    intro id
    rw [takenBy_concat, htook id, Option.toList_none, List.append_nil]
  constructor
  · intro id hid
    rw [hsame]
    exact hl.untaken id (Nat.le_trans hlen hid)
  · intro id hid
    obtain ⟨hunread, hold | hnew⟩ := hheld id hid
    · rw [hsame, hunread, keptFor_concat_other hnone]
      exact hl.exact id hold
    · -- nothing has been done yet with a new subscription
      have hun : registered id h = false := by
        by_contra hn
        exact absurd (hr.known id (by simpa using hn)) (Nat.not_lt.mpr hnew)
      rw [hsame, hunread, unread_unmade hnew, hl.untaken id hnew, keptFor_concat_other hnone,
        keptFor_unregistered hun]
      rfl

lemma ledger_take {id : SubscriberId} {m : μ} {rest : List μ} (hl : Ledger h b)
    (queue : unread b id = m :: rest) :
    Ledger (h ++ [⟨b, .took id m⟩]) (b.receive id).1 := by
  have hheld := isHeld_receive queue
  have hunread := unread_receive queue
  have hlen : (b.receive id).1.queues.length = b.queues.length := by
    rw [receive_of_unread queue, List.length_modify]
  have htook : ∀ j, takenBy j (h ++ [⟨b, .took id m⟩]) =
      takenBy j h ++ if id = j then [m] else [] := by
    intro j
    rw [takenBy_concat, took?]
    split <;> rfl
  constructor
  · intro j hj
    have hne : id ≠ j := by
      rintro rfl
      rw [unread_unmade (hlen ▸ hj)] at queue
      cases queue
    rw [htook, if_neg hne, hl.untaken j (hlen ▸ hj)]
    rfl
  · intro j hj
    rw [hheld] at hj
    rw [htook, hunread, keptFor_concat_other rfl, ← hl.exact j hj]
    split
    · rename_i he
      rw [← he, queue, List.append_assoc, List.singleton_append]
    · rw [List.append_nil]

lemma ledger_deliver {m : μ} (hl : Ledger h b) (hs : Sound b) (hr : Roll h b)
    (phase : b.phase = .running) (requests : b.requests = []) (pending : b.pending = some m) :
    Ledger (h ++ [⟨b, .delivered m⟩]) ({ b with pending := none }.deliver m) := by
  have hsame : ∀ id, takenBy id (h ++ [⟨b, .delivered m⟩]) = takenBy id h := by
    intro id
    rw [takenBy_concat]
    exact List.append_nil _
  constructor
  · intro id hid
    rw [hsame]
    exact hl.untaken id (by simpa [Broker.deliver] using hid)
  · intro id hid
    have hid : b.isHeld id = true := by rwa [isHeld_deliver] at hid
    have hmem := member_of_held hs phase requests hid
    rw [hsame, unread_delivered hs (.deliver b m phase requests pending) hid, pushed_eq,
      keptFor_concat_delivered (hr.member id hmem), ← hl.exact id hid, List.append_assoc]

theorem ledger_move (hl : Ledger h b) (hs : Sound b) (hr : Roll h b) (hm : Move b deed b') :
    Ledger (h ++ [⟨b, deed⟩]) b' := by
  cases hm with
  | idle handles =>
    exact ledger_of_unread hl hr (fun _ => rfl) rfl (Nat.le_refl _)
      (fun _ hh => ⟨rfl, .inl hh⟩)
  | start =>
    have hq := start_queues b
    refine ledger_of_unread hl hr (fun _ => rfl) rfl (by rw [hq]) fun id hh => ?_
    rw [isHeld_of_queues hq] at hh
    exact ⟨unread_of_queues hq id, .inl hh⟩
  | stop =>
    exact ledger_of_unread hl hr (fun _ => rfl) rfl (Nat.le_refl _)
      (fun _ hh => ⟨rfl, .inl hh⟩)
  | join =>
    refine ledger_of_unread hl hr (fun _ => rfl) rfl ?_ fun id hh => ?_
    · rw [subscribe_queues, List.length_append]
      exact Nat.le_add_right _ _
    · rw [isHeld_subscribe, Bool.or_eq_true, beq_iff_eq] at hh
      exact ⟨unread_subscribe b id, hh.imp_right fun he => he.ge⟩
  | leave j held =>
    refine ledger_of_unread hl hr (fun _ => rfl) rfl ?_ fun id hh => ?_
    · rw [release_queues held, List.length_modify]
    · rw [isHeld_release held] at hh
      rw [unread_release held]
      split at hh
      · cases hh
      · rename_i hne
        exact ⟨if_neg hne, .inl hh⟩
  | accept m phase pending =>
    exact ledger_of_unread hl hr (fun _ => rfl) rfl (Nat.le_refl _)
      (fun _ hh => ⟨rfl, .inl hh⟩)
  | take j m rest queue => exact ledger_take hl queue
  | apply request rest phase requests =>
    exact ledger_of_unread hl hr (fun _ => rfl) rfl (Nat.le_refl _)
      (fun _ hh => ⟨rfl, .inl hh⟩)
  | deliver m phase requests pending => exact ledger_deliver hl hs hr phase requests pending

/-- What a history tells about a broker. -/
structure Account (h : List (Moment μ)) (b : Broker μ) : Prop where
  sound : Sound b
  roll : Roll h b
  ledger : Ledger h b

theorem account_course (hf : Fresh b₀) (hc : Course b₀ h b) : Account h b := by
  induction hc with
  | nil =>
    refine ⟨hf.sound, ⟨nofun, ?_, nofun⟩, ⟨fun _ _ => rfl, fun id _ => hf.unread id⟩⟩
    rw [hf.members]
    nofun
  | snoc _ move ih =>
    exact ⟨sound_move ih.sound move, roll_move ih.sound ih.roll move,
      ledger_move ih.ledger ih.sound ih.roll move⟩

/-- The loop delivers what was accepted, in the same order. -/
theorem delivered_of_accepted (hf : Fresh b₀) (hc : Course b₀ h b) :
    deliveredIn h ++ b.pending.toList <+: acceptedIn h ∧
      (b.phase ≠ .stopped → acceptedIn h = deliveredIn h ++ b.pending.toList) := by
  induction hc with
  | nil => simp [deliveredIn, acceptedIn, hf.pending]
  | @snoc h b b' deed _ move ih =>
    rw [deliveredIn_concat, acceptedIn_concat]
    cases move with
    | idle handles => simpa [delivered?, accepted?] using ih
    | start =>
      have hp : b.start.pending = b.pending ∧ (b.start.phase ≠ .stopped → b.phase ≠ .stopped) := by
        unfold Broker.start
        split
        · rename_i hp
          exact ⟨rfl, fun _ => by rw [hp]; nofun⟩
        · exact ⟨rfl, fun hp => hp⟩
      rw [hp.1]
      simpa [delivered?, accepted?] using ⟨ih.1, fun h => ih.2 (hp.2 h)⟩
    | stop =>
      have hprefix := (List.prefix_append _ _).trans ih.1
      exact ⟨by simpa [delivered?, accepted?, Broker.stop] using hprefix, fun hp => absurd rfl hp⟩
    | join =>
      rw [subscribe_pending, subscribe_phase]
      simpa [delivered?, accepted?] using ih
    | leave id held =>
      rw [release_pending held, release_phase held]
      simpa [delivered?, accepted?] using ih
    | accept m phase pending =>
      have he := ih.2 phase
      rw [pending] at he
      have he : acceptedIn h = deliveredIn h := by simpa using he
      simp [delivered?, accepted?, he]
    | take id m rest queue =>
      rw [receive_of_unread queue]
      simpa [delivered?, accepted?] using ih
    | apply request rest phase requests =>
      simpa [delivered?, accepted?, Broker.apply] using ih
    | deliver m phase requests pending =>
      rw [pending] at ih
      simpa [delivered?, accepted?, Broker.deliver] using ih

end Accounts

/-- What a subscriber can tell of a deed: what it does itself, and what is delivered. -/
inductive Sight (μ : Type) where
  | joined
  | left
  | took
  | delivered (m : μ)

def sight? (id : SubscriberId) : Deed μ → Option (Sight μ)
  | .joined j => if j = id then some .joined else none
  | .left j => if j = id then some .left else none
  | .took j _ => if j = id then some .took else none
  | .delivered m => some (.delivered m)
  | _ => none

/-- What a subscriber can tell of a history. -/
def viewOf (id : SubscriberId) (h : List (Moment μ)) : List (Sight μ) :=
  h.filterMap fun x => sight? id x.deed

/-- A subscriber by itself. -/
structure Inbox (μ : Type) where
  listens : Bool := false
  unread : List μ := []
  taken : List μ := []

def Inbox.see (x : Inbox μ) : Sight μ → Inbox μ
  | .joined => { x with listens := true }
  | .left => { x with listens := false, unread := [] }
  | .took => { x with unread := x.unread.tail, taken := x.taken ++ x.unread.take 1 }
  | .delivered m => if x.listens then { x with unread := pushed x.unread m } else x

section Views

variable {b b' : Broker μ} {h : List (Moment μ)} {deed : Deed μ} {id : SubscriberId}

lemma viewOf_concat (id : SubscriberId) (h : List (Moment μ)) (x : Moment μ) :
    viewOf id (h ++ [x]) = viewOf id h ++ (sight? id x.deed).toList := by
  rw [viewOf, List.filterMap_append]
  rfl

/-- What the broker has for a subscription, and what was taken from it. -/
def inboxOf (id : SubscriberId) (h : List (Moment μ)) (b : Broker μ) : Inbox μ :=
  ⟨b.isHeld id, unread b id, takenBy id h⟩

lemma inbox_move (hs : Sound b) (hm : Move b deed b') :
    inboxOf id (h ++ [⟨b, deed⟩]) b' =
      (sight? id deed).toList.foldl Inbox.see (inboxOf id h b) := by
  have hsame : took? id deed = none → takenBy id (h ++ [⟨b, deed⟩]) = takenBy id h := by
    intro hn
    rw [takenBy_concat, hn, Option.toList_none, List.append_nil]
  cases hm with
  | idle handles => simp only [inboxOf, hsame rfl]; rfl
  | start =>
    have hq := start_queues b
    simp only [inboxOf, hsame rfl, isHeld_of_queues hq, unread_of_queues hq]
    rfl
  | stop => simp only [inboxOf, hsame rfl]; rfl
  | join =>
    simp only [inboxOf, hsame rfl, isHeld_subscribe, unread_subscribe, sight?]
    by_cases he : b.queues.length = id
    · simp [he, Inbox.see]
    · have hne : (id == b.queues.length) = false := by simpa using Ne.symm he
      simp [he, hne]
  | leave j held =>
    simp only [inboxOf, hsame rfl, isHeld_release held, unread_release held, sight?]
    by_cases he : j = id <;> simp [he, Inbox.see]
  | accept m phase pending => simp only [inboxOf, hsame rfl]; rfl
  | take j m rest queue =>
    simp only [inboxOf, isHeld_receive queue, unread_receive queue, takenBy_concat, took?, sight?]
    by_cases he : j = id
    · rw [he] at queue
      simp [he, Inbox.see, queue]
    · simp [he]
  | apply request rest phase requests => simp only [inboxOf, hsame rfl]; rfl
  | deliver m phase requests pending =>
    have hheld : ({ b with pending := none }.deliver m).isHeld id = b.isHeld id :=
      isHeld_deliver _ id m
    simp only [inboxOf, hsame rfl, hheld, sight?, Option.toList_some, List.foldl_cons,
      List.foldl_nil, Inbox.see]
    by_cases hh : b.isHeld id = true
    · rw [if_pos hh, unread_delivered hs (.deliver b m phase requests pending) hh]
    · rw [if_neg hh, unread_deliver, if_neg fun hn => hh hn.2]
      rfl

/-- A subscriber's own deeds and the deliveries make up what it gets. -/
theorem inbox_course (hc : Course {} h b) :
    (viewOf id h).foldl Inbox.see {} = inboxOf id h b := by
  have hall : Account h b ∧ (viewOf id h).foldl Inbox.see {} = inboxOf id h b := by
    induction hc with
    | nil => exact ⟨account_course fresh_default .nil, rfl⟩
    | snoc before move ih =>
      refine ⟨account_course fresh_default (.snoc before move), ?_⟩
      rw [viewOf_concat, List.foldl_append, ih.2, inbox_move ih.1.sound move]
  exact hall.2

end Views
end InverterLink.Proofs
