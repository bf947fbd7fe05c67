import InverterLink.Proofs.RegistrationOrder

/-!
# Who is a member

The loop of a broker hears of subscriptions in the order in which they are made and given up, so
its members, once it has applied the requests that wait for it, are the subscriptions that somebody
holds (`Rostered`). There is a second way out: a delivery forgets the members that are gone. The
loop looks for requests before it looks for a message, but meanwhile others act, and then it comes
upon members whose removal still waits (`lateTurn`). Nothing goes wrong by that: nobody is forgotten
who is there, nobody comes back, and both ways out lead to the same members.
-/

namespace InverterLink.Proofs
open Broker Broker.Session

variable {μ : Type}

section Rosters

variable {b b' : Broker μ} {deed : Deed μ} {id : SubscriberId}

/-- The subscriptions that somebody holds, in the order in which they were made. -/
def heldSubscriptions (b : Broker μ) : List SubscriberId :=
  (List.range b.queues.length).filter b.isHeld

/-- The members behind a request. -/
def enroll (members : List SubscriberId) : Request → List SubscriberId
  | .register id => members ++ [id]
  | .remove id => members.filter (· ≠ id)

/-- The loop knows the subscriptions that are held, but for the requests that wait for it, and has
announced how many it knows. -/
structure Rostered (b : Broker μ) : Prop where
  roster : b.phase ≠ .stopped → b.requests.foldl enroll b.members = heldSubscriptions b
  count : b.phase ≠ .stopped → b.count = b.members.length

lemma mem_heldSubscriptions :
    id ∈ heldSubscriptions b ↔ b.isHeld id = true := by
  rw [heldSubscriptions, List.mem_filter, List.mem_range]
  exact ⟨fun h => h.2, fun h => ⟨lt_of_isHeld h, h⟩⟩

lemma nodup_heldSubscriptions (b : Broker μ) : (heldSubscriptions b).Nodup :=
  List.nodup_range.filter _

lemma heldSubscriptions_congr (hlen : b'.queues.length = b.queues.length)
    (hheld : ∀ id, b'.isHeld id = b.isHeld id) : heldSubscriptions b' = heldSubscriptions b := by
  rw [heldSubscriptions, heldSubscriptions, hlen]
  exact List.filter_congr fun id _ => hheld id

lemma heldSubscriptions_subscribe (b : Broker μ) :
    heldSubscriptions b.subscribe.1 = heldSubscriptions b ++ [b.queues.length] := by
  rw [heldSubscriptions, subscribe_queues, List.length_append, List.length_singleton,
    List.range_succ, List.filter_append]
  congr 1
  · refine List.filter_congr fun id hid => ?_
    have hne : (id == b.queues.length) = false := by simpa using (List.mem_range.mp hid).ne
    rw [isHeld_subscribe, hne, Bool.or_false]
  · simp [isHeld_subscribe]

lemma heldSubscriptions_release (held : b.isHeld id = true) :
    heldSubscriptions (b.release id) = (heldSubscriptions b).filter (· ≠ id) := by
  rw [heldSubscriptions, heldSubscriptions, release_queues held, List.length_modify,
    List.filter_filter]
  refine List.filter_congr fun j _ => ?_
  rw [isHeld_release held]
  by_cases he : id = j
  · simp [he]
  · simp [he, Ne.symm he]

lemma heldSubscriptions_deliver (b : Broker μ) (m : μ) :
    heldSubscriptions (b.deliver m) = heldSubscriptions b :=
  heldSubscriptions_congr (by simp [Broker.deliver]) fun id => isHeld_deliver b id m

section Requests

variable {members members' : List SubscriberId} {p : SubscriberId → Bool}

lemma enroll_sublist (h : members'.Sublist members) (request : Request) :
    (enroll members' request).Sublist (enroll members request) := by
  cases request with
  | register id => exact h.append_right [id]
  | remove id => exact h.filter _

lemma enroll_filter (h : members'.filter p = members.filter p) (request : Request) :
    (enroll members' request).filter p = (enroll members request).filter p := by
  cases request with
  | register id => rw [enroll, enroll, List.filter_append, List.filter_append, h]
  | remove id => rw [enroll, enroll, List.filter_comm, h, List.filter_comm]

lemma foldl_enroll_filter {requests : List Request}
    (h : ∀ id ∈ requests.foldl enroll members, p id = true) :
    requests.foldl enroll (members.filter p) = requests.foldl enroll members := by
  have hboth : ∀ early : List SubscriberId, early.Sublist members →
      early.filter p = members.filter p →
      (requests.foldl enroll early).Sublist (requests.foldl enroll members) ∧
        (requests.foldl enroll early).filter p = (requests.foldl enroll members).filter p := by
    clear h
    induction requests generalizing members with
    | nil => exact fun early hsub heq => ⟨hsub, heq⟩
    | cons request rest ih =>
      exact fun early hsub heq =>
        ih (enroll early request) (enroll_sublist hsub request) (enroll_filter heq request)
  obtain ⟨hsub, heq⟩ := hboth (members.filter p) List.filter_sublist (by simp)
  rwa [List.filter_eq_self.mpr h,
    List.filter_eq_self.mpr fun id hid => h id (hsub.subset hid)] at heq

end Requests

lemma rostered_deliver (hr : Rostered b) (m : μ) :
    Rostered ({ b with pending := none }.deliver m) := by
  refine ⟨fun hp => ?_, fun _ => rfl⟩
  have hheld : ∀ id ∈ b.requests.foldl enroll b.members, b.isHeld id = true := by
    intro id hid
    rw [hr.roster hp] at hid
    exact mem_heldSubscriptions.mp hid
  rw [heldSubscriptions_deliver]
  exact (foldl_enroll_filter hheld).trans (hr.roster hp)

theorem rostered_move (hr : Rostered b) (hm : Move b deed b') : Rostered b' := by
  cases hm with
  | idle handles => exact ⟨hr.roster, hr.count⟩
  | start =>
    unfold Broker.start
    split
    · rename_i hidle
      have hp : b.phase ≠ .stopped := by rw [hidle]; nofun
      exact ⟨fun _ => hr.roster hp, fun _ => hr.count hp⟩
    · exact hr
  | stop => exact ⟨fun hn => absurd rfl hn, fun hn => absurd rfl hn⟩
  | join =>
    constructor
    · intro hp
      rw [subscribe_phase] at hp
      rw [subscribe_requests hp, subscribe_members, List.foldl_concat, hr.roster hp,
        heldSubscriptions_subscribe]
      rfl
    · intro hp
      rw [subscribe_phase] at hp
      rw [subscribe_members, subscribe_eq]
      exact hr.count hp
  | leave id held =>
    constructor
    · intro hp
      rw [release_phase held] at hp
      rw [release_requests held hp, release_members held, List.foldl_concat, hr.roster hp,
        heldSubscriptions_release held]
      rfl
    · intro hp
      rw [release_phase held] at hp
      rw [release_members held, release_eq held]
      exact hr.count hp
  | accept m phase pending => exact ⟨hr.roster, hr.count⟩
  | take id m rest queue =>
    have hheld := isHeld_receive queue
    rw [receive_of_unread queue] at hheld ⊢
    refine ⟨fun hp => ?_, hr.count⟩
    rw [heldSubscriptions_congr (b := b) (List.length_modify ..) hheld]
    exact hr.roster hp
  | apply request rest phase requests =>
    refine ⟨fun _ => ?_, fun _ => rfl⟩
    have hroster := hr.roster (not_stopped phase)
    rw [requests, List.foldl_cons] at hroster
    cases request <;> exact hroster
  | deliver m phase requests pending => exact rostered_deliver hr m

/-- The subscriptions that the loop is asked to register, in order. -/
def registering (requests : List Request) : List SubscriberId :=
  requests.filterMap fun
    | .register id => some id
    | .remove _ => none

/-- Whoever the loop knows or is to know, it gets to know only once. -/
def RegisteredOnce (b : Broker μ) : Prop := (b.members ++ registering b.requests).Nodup

/-- The loop has seen the registration, if there was one. -/
structure Arrived (id : SubscriberId) (b : Broker μ) : Prop where
  made : id < b.queues.length
  seen : .register id ∉ b.requests

lemma mem_registering {requests : List Request} :
    id ∈ registering requests ↔ .register id ∈ requests := by
  rw [registering, List.mem_filterMap]
  constructor
  · rintro ⟨request, hmem, he⟩
    cases request <;> cases he
    exact hmem
  · exact fun hmem => ⟨_, hmem, rfl⟩

lemma registering_release (held : b.isHeld id = true) :
    registering (b.release id).requests = registering b.requests := by
  by_cases hp : b.phase = .stopped
  · rw [Broker.release, if_pos held, Broker.ask, if_pos hp]
  · rw [release_requests held hp, registering, List.filterMap_append]
    exact List.append_nil _

lemma arrived_of_member (hs : Sound b) (ho : RegisteredOnce b) (hid : id ∈ b.members) :
    Arrived id b := by
  refine ⟨hs.members id hid, fun hmem => ?_⟩
  exact (List.nodup_append.mp ho).2.2 id hid id (mem_registering.mpr hmem) rfl

lemma once_join (hs : Sound b) (ho : RegisteredOnce b) : RegisteredOnce b.subscribe.1 := by
  by_cases hp : b.phase = .stopped
  · have hrequests : b.subscribe.1.requests = b.requests := by
      rw [Broker.subscribe, Broker.ask, if_pos hp]
    rw [RegisteredOnce, subscribe_members, hrequests]
    exact ho
  · rw [RegisteredOnce, subscribe_members, subscribe_requests hp, registering,
      List.filterMap_append, ← List.append_assoc]
    refine List.nodup_append.mpr ⟨ho, List.nodup_singleton _, ?_⟩
    rintro id hid _ hnew rfl
    obtain rfl := List.mem_singleton.mp hnew
    -- the name is new
    rcases List.mem_append.mp hid with hid | hid
    · exact Nat.lt_irrefl _ (hs.members _ hid)
    · exact Nat.lt_irrefl _ (hs.registering _ (mem_registering.mp hid))

theorem once_deliver (ho : RegisteredOnce b) (m : μ) :
    RegisteredOnce ({ b with pending := none }.deliver m) :=
  ho.sublist (List.filter_sublist.append_right _)

theorem once_move (hs : Sound b) (ho : RegisteredOnce b) (hm : Move b deed b') :
    RegisteredOnce b' := by
  cases hm with
  | start =>
    unfold Broker.start
    split <;> exact ho
  | stop => exact List.nodup_nil
  | join => exact once_join hs ho
  | leave id held =>
    rw [RegisteredOnce, release_members held, registering_release held]
    exact ho
  | take id m rest queue =>
    rw [receive_of_unread queue]
    exact ho
  | apply request rest phase requests =>
    rw [RegisteredOnce, requests] at ho
    cases request with
    | register id =>
      rw [RegisteredOnce, Broker.apply, List.append_assoc]
      exact ho
    | remove id => exact ho.sublist (List.filter_sublist.append_right _)
  | deliver m => exact once_deliver ho m
  | _ => exact ho

lemma arrived_deliver (ha : Arrived id b) (m : μ) :
    Arrived id ({ b with pending := none }.deliver m) ∧
      (id ∈ ({ b with pending := none }.deliver m).members → id ∈ b.members) :=
  ⟨⟨by simpa [Broker.deliver] using ha.made, ha.seen⟩, List.mem_of_mem_filter⟩

/-- Whose registration is past does not become a member again. -/
theorem arrived_move (ha : Arrived id b) (hm : Move b deed b') :
    Arrived id b' ∧ (id ∈ b'.members → id ∈ b.members) := by
  have hmade := ha.made.trans_le (queues_move hm)
  cases hm with
  | start =>
    unfold Broker.start
    split <;> exact ⟨⟨ha.made, ha.seen⟩, fun hid => hid⟩
  | stop => exact ⟨⟨hmade, nofun⟩, nofun⟩
  | join =>
    refine ⟨⟨hmade, fun hmem => ?_⟩, fun hid => subscribe_members b ▸ hid⟩
    rcases mem_subscribe b hmem with hmem | hmem
    · exact ha.seen hmem
    · cases hmem
      exact Nat.lt_irrefl _ ha.made
  | leave j held =>
    refine ⟨⟨hmade, fun hmem => ?_⟩, fun hid => release_members held ▸ hid⟩
    rcases mem_release held hmem with hmem | hmem
    · exact ha.seen hmem
    · cases hmem
  | take j m rest queue =>
    rw [receive_of_unread queue] at hmade ⊢
    exact ⟨⟨hmade, ha.seen⟩, fun hid => hid⟩
  | apply request rest phase requests =>
    have hseen := ha.seen
    rw [requests, List.mem_cons, not_or] at hseen
    refine ⟨⟨hmade, hseen.2⟩, fun hid => ?_⟩
    cases request with
    | register j =>
      refine (List.mem_append.mp hid).resolve_right fun hj => hseen.1 ?_
      rw [List.mem_singleton.mp hj]
    | remove j => exact List.mem_of_mem_filter hid
  | deliver m => exact arrived_deliver ha m
  | _ => exact ⟨⟨ha.made, ha.seen⟩, fun hid => hid⟩

end Rosters

/-- The second half of a turn: the loop looks for a message. It does not see what has come since it
looked for its cancellation and for requests. -/
def lateTurn (b : Broker μ) : Option (Broker μ × Turn μ) :=
  if b.phase ≠ .running then none
  else
    match b.pending with
    | some m => some ({ b with pending := none }.deliver m, .delivered m)
    | none => if b.handles = 0 then some (b.stop, .stopped) else none

/-- What happens in a session whose loop takes its time. -/
inductive Happening (μ : Type) where
  | act (action : Session.Action μ)
  | lateTurn

/-- The effect of what happens, and what can be seen of it; none if it is not possible now. -/
def happen (s : Session μ) : Happening μ → Option (Session μ × Session.Event μ)
  | .act action => s.step action
  | .lateTurn =>
    (lateTurn s.broker).map fun (broker, turn) => ({ s with broker }, .turned turn)

/-- The events of a run of which every part is possible. -/
def happenAll (s : Session μ) (happenings : List (Happening μ)) :
    Option (Session μ × List (Session.Event μ)) :=
  runSteps (showing happen) s happenings

def subscribed? : Session.Event μ → Option SubscriberId
  | .subscribed id => some id
  | _ => none

def released? : Happening μ → Option SubscriberId
  | .act (.release id) => some id
  | _ => none

/-- The subscriptions that were made, in order. -/
def subscribedIn (events : List (Session.Event μ)) : List SubscriberId :=
  events.filterMap subscribed?

/-- The subscriptions that were given up, in order. -/
def releasedIn (happenings : List (Happening μ)) : List SubscriberId :=
  happenings.filterMap released?

/-- What a deed makes of a broker whose loop takes its time. -/
inductive Shift : Broker μ → Deed μ → Broker μ → Prop where
  | move {b b' : Broker μ} {deed : Deed μ} (hm : Move b deed b') : Shift b deed b'
  | deliver (b : Broker μ) (m : μ) (phase : b.phase = .running) (pending : b.pending = some m) :
    Shift b (.delivered m) ({ b with pending := none }.deliver m)

/-- The deed of a happening. -/
def deedIn (s : Session μ) : Happening μ → Session.Event μ → Deed μ
  | .act action, event => deedOf s action event
  | .lateTurn, .turned turn => deedOfTurn turn
  | .lateTurn, _ => .other

section Shifts

variable {b b' : Broker μ} {deed : Deed μ} {id : SubscriberId}

theorem sound_shift (hs : Sound b) (hm : Shift b deed b') : Sound b' := by
  cases hm with
  | move hm => exact sound_move hs hm
  | deliver m => exact sound_deliver hs m

theorem rostered_shift (hr : Rostered b) (hm : Shift b deed b') : Rostered b' := by
  cases hm with
  | move hm => exact rostered_move hr hm
  | deliver m => exact rostered_deliver hr m

theorem once_shift (hs : Sound b) (ho : RegisteredOnce b) (hm : Shift b deed b') :
    RegisteredOnce b' := by
  cases hm with
  | move hm => exact once_move hs ho hm
  | deliver m => exact once_deliver ho m

theorem arrived_shift (ha : Arrived id b) (hm : Shift b deed b') :
    Arrived id b' ∧ (id ∈ b'.members → id ∈ b.members) := by
  cases hm with
  | move hm => exact arrived_move ha hm
  | deliver m => exact arrived_deliver ha m

lemma range_shift (hm : Shift b deed b') :
    List.range b'.queues.length = List.range b.queues.length ++ (newcomer? deed).toList := by
  have hsame : b'.queues.length = b.queues.length → newcomer? deed = none →
      List.range b'.queues.length = List.range b.queues.length ++ (newcomer? deed).toList := by
    intro hlen hnone
    rw [hlen, hnone, Option.toList_none, List.append_nil]
  cases hm with
  | move hm =>
    cases hm with
    | start => exact hsame (by rw [start_queues]) rfl
    | join =>
      rw [subscribe_queues, List.length_append, List.length_singleton, List.range_succ]
      rfl
    | leave id held => exact hsame (by rw [release_queues held, List.length_modify]) rfl
    | take id m rest queue => exact hsame (by rw [receive_of_unread queue, List.length_modify]) rfl
    | deliver m => exact hsame (by simp [Broker.deliver]) rfl
    | _ => exact hsame rfl rfl
  | deliver m => exact hsame (by simp [Broker.deliver]) rfl

lemma held_of_left (hm : Shift b deed b') (hleft : left? deed = some id) :
    b.isHeld id = true := by
  cases hm with
  | move hm =>
    cases hm with
    | leave j held =>
      cases hleft
      exact held
    | _ => cases hleft
  | deliver m => cases hleft

lemma held_shift (hm : Shift b deed b') :
    b'.isHeld id = true ↔
      (b.isHeld id = true ∨ newcomer? deed = some id) ∧ left? deed ≠ some id := by
  cases hm with
  | move hm => exact held_iff_move hm
  | deliver m =>
    have hheld : ({ b with pending := none }.deliver m).isHeld id = b.isHeld id :=
      isHeld_deliver _ id m
    simp [hheld, newcomer?, left?]

end Shifts

section Happenings

variable {s s' : Session μ} {x : Happening μ} {happenings later : List (Happening μ)}
  {event : Session.Event μ} {events more : List (Session.Event μ)} {id : SubscriberId}

lemma lateTurn_cases {b b' : Broker μ} {turn : Turn μ} (ht : lateTurn b = some (b', turn)) :
    b.phase = .running ∧
      ((∃ m, b.pending = some m ∧ b' = { b with pending := none }.deliver m ∧
          turn = .delivered m) ∨
        b' = b.stop ∧ turn = .stopped) := by
  unfold lateTurn at ht
  split at ht
  · cases ht
  · rename_i hphase
    refine ⟨not_not.mp hphase, ?_⟩
    split at ht
    · rename_i m hm
      cases ht
      exact .inl ⟨m, hm, rfl, rfl⟩
    · split at ht <;> cases ht
      exact .inr ⟨rfl, rfl⟩

lemma late_cases (hs : happen s .lateTurn = some (s', event)) :
    ∃ turn, lateTurn s.broker = some (s'.broker, turn) ∧ event = .turned turn := by
  rw [happen, Option.map_eq_some_iff] at hs
  obtain ⟨⟨broker, turn⟩, ht, hs⟩ := hs
  cases hs
  exact ⟨turn, ht, rfl⟩

/-- Whatever happens in a session, its broker makes a move or a late delivery. -/
theorem shift_happen (hs : happen s x = some (s', event)) :
    Shift s.broker (deedIn s x event) s'.broker := by
  cases x with
  | act action => exact .move (move_step hs)
  | lateTurn =>
    obtain ⟨turn, ht, rfl⟩ := late_cases hs
    obtain ⟨hphase, ⟨m, hm, hbroker, rfl⟩ | ⟨hbroker, rfl⟩⟩ := lateTurn_cases ht
    · exact hbroker ▸ .deliver s.broker m hphase hm
    · exact hbroker ▸ .move (.stop s.broker)

lemma deed_happen (hs : happen s x = some (s', event)) :
    newcomer? (deedIn s x event) = subscribed? event ∧
      left? (deedIn s x event) = released? x := by
  cases x with
  | act action =>
    cases sessionStep_step hs with
    | accepted call m b waiting =>
      simp [deedIn, deedOf, waiting, newcomer?, subscribed?, left?, released?]
    | receive id => cases (s.broker.receive id).2 <;> exact ⟨rfl, rfl⟩
    | turn b turn => cases turn <;> exact ⟨rfl, rfl⟩
    | _ => exact ⟨rfl, rfl⟩
  | lateTurn =>
    obtain ⟨turn, -, rfl⟩ := late_cases hs
    cases turn <;> exact ⟨rfl, rfl⟩

/-- The books of a session, kept along what happens: the names that were given out, and who of
them is there. -/
structure Registry (happenings : List (Happening μ)) (events : List (Session.Event μ))
    (s : Session μ) : Prop where
  sound : Sound s.broker
  rostered : Rostered s.broker
  once : RegisteredOnce s.broker
  names : subscribedIn events = List.range s.broker.queues.length
  held : ∀ id, s.broker.isHeld id = true ↔
    id ∈ subscribedIn events ∧ id ∉ releasedIn happenings
  released : ∀ id ∈ releasedIn happenings, id ∈ subscribedIn events

lemma registry_default : Registry ([] : List (Happening μ)) [] {} where
  sound := fresh_default.sound
  rostered := ⟨fun _ => rfl, fun _ => rfl⟩
  once := List.nodup_nil
  names := rfl
  held _ := ⟨fun h => absurd (lt_of_isHeld h) (Nat.not_lt_zero _), fun h => nomatch h.1⟩
  released := nofun

theorem registry_happen (hr : Registry happenings events s)
    (hs : happen s x = some (s', event)) :
    Registry (happenings ++ [x]) (events ++ [event]) s' := by
  have hm := shift_happen hs
  obtain ⟨hnewcomer, hleft⟩ := deed_happen hs
  have hsubscribed : subscribedIn (events ++ [event]) =
      subscribedIn events ++ (newcomer? (deedIn s x event)).toList := by
    rw [subscribedIn, List.filterMap_append, hnewcomer]
    rfl
  have hreleased : releasedIn (happenings ++ [x]) =
      releasedIn happenings ++ (left? (deedIn s x event)).toList := by
    rw [releasedIn, List.filterMap_append, hleft]
    rfl
  have hnames : subscribedIn (events ++ [event]) = List.range s'.broker.queues.length := by
    rw [hsubscribed, hr.names, range_shift hm]
  refine ⟨sound_shift hr.sound hm, rostered_shift hr.rostered hm, once_shift hr.sound hr.once hm,
    hnames, fun id => ?_, fun id hid => ?_⟩
  · have hfresh : newcomer? (deedIn s x event) = some id → id ∉ releasedIn happenings := by
      intro hjoined hid
      have hnodup : (subscribedIn (events ++ [event])).Nodup := hnames ▸ List.nodup_range
      rw [hsubscribed, hjoined] at hnodup
      exact (List.nodup_append.mp hnodup).2.2 id (hr.released id hid) id (by simp) rfl
    rw [held_shift hm, hr.held id, hsubscribed, hreleased]
    simp only [List.mem_append, Option.mem_toList, not_or]
    tauto
  · rw [hreleased, List.mem_append, Option.mem_toList] at hid
    rw [hsubscribed]
    refine List.mem_append_left _ ?_
    rcases hid with hid | hid
    · exact hr.released id hid
    · exact ((hr.held id).mp (held_of_left hm hid)).1

theorem registry_run (hr : Registry happenings events s)
    (hrun : happenAll s later = some (s', more)) :
    Registry (happenings ++ later) (events ++ more) s' := by
  induction later generalizing s happenings events more with
  | nil =>
    cases hrun
    simpa using hr
  | cons x rest ih =>
    obtain ⟨s₁, event, behind, hs, hrest, rfl⟩ := shown_cases hrun
    simpa using ih (registry_happen hr hs) hrest

lemma arrived_run (ha : Arrived id s.broker) (hrun : happenAll s later = some (s', more)) :
    Arrived id s'.broker ∧ (id ∈ s'.broker.members → id ∈ s.broker.members) := by
  refine run_induction (P := fun s' => Arrived id s'.broker ∧
    (id ∈ s'.broker.members → id ∈ s.broker.members)) ⟨ha, fun hid => hid⟩ ?_ hrun
  rintro s₁ x s₂ shown ⟨ha₁, hback₁⟩ hs
  obtain ⟨event, hstep, -⟩ := showing_cases hs
  obtain ⟨ha₂, hback₂⟩ := arrived_shift ha₁ (shift_happen hstep)
  exact ⟨ha₂, fun hid => hback₁ (hback₂ hid)⟩

/-- How many members the loop knew at the end of a turn. The last turn ends with those that it
found. -/
def knownAfter (b b' : Broker μ) : Turn μ → Nat
  | .stopped => b.members.length
  | _ => b'.members.length

lemma count_turn {b b' : Broker μ} {cancelled : Bool} {turn : Turn μ} (hr : Rostered b)
    (ht : b.turn cancelled = some (b', turn)) : b'.count = knownAfter b b' turn := by
  unfold Broker.turn at ht
  split at ht
  · cases ht
  · rename_i hphase
    have hcount := hr.count (not_stopped (not_not.mp hphase))
    split at ht
    · cases ht
      exact hcount
    · split at ht
      · cases ht
        rfl
      · cases ht
        rfl
      · split at ht <;> cases ht
        exact hcount

lemma count_lateTurn {b b' : Broker μ} {turn : Turn μ} (hr : Rostered b)
    (ht : lateTurn b = some (b', turn)) : b'.count = knownAfter b b' turn := by
  obtain ⟨hphase, ⟨m, -, rfl, rfl⟩ | ⟨rfl, rfl⟩⟩ := lateTurn_cases ht
  · rfl
  · exact hr.count (not_stopped hphase)

lemma count_turned {turn : Turn μ} (hr : Rostered s.broker)
    (hs : happen s x = some (s', .turned turn)) :
    s'.broker.count = knownAfter s.broker s'.broker turn := by
  cases x with
  | act action =>
    cases sessionStep_step hs with
    | turn b turn turns => exact count_turn hr turns
  | lateTurn =>
    obtain ⟨_, ht, he⟩ := late_cases hs
    cases he
    exact count_lateTurn hr ht

lemma apply_deliver {b : Broker μ} (m : μ) (hgone : b.isHeld id = false) :
    (b.deliver m).apply (.remove id) = (b.apply (.remove id)).deliver m := by
  have hmembers : (b.members.filter b.isHeld).filter (· ≠ id) =
      (b.members.filter (· ≠ id)).filter b.isHeld := List.filter_comm ..
  -- whoever is gone gets nothing either way
  have hout : ∀ j, (j ∈ (b.members.filter (· ≠ id)).filter b.isHeld) =
      (j ∈ b.members.filter b.isHeld) := by
    intro j
    rw [← hmembers, List.mem_filter, eq_iff_iff, and_iff_left_iff_imp]
    intro hj
    have hne : j ≠ id := by
      rintro rfl
      rw [(List.mem_filter.mp hj).2] at hgone
      cases hgone
    simpa using hne
  have hheld : (b.apply (.remove id)).isHeld = b.isHeld := rfl
  rw [Broker.deliver, Broker.deliver, Broker.apply, hheld]
  simp only [Broker.apply, hmembers, hout]

lemma happen_delivery {m : μ} (hphase : s.broker.phase = .running)
    (hpending : s.broker.pending = some m) :
    happen s .lateTurn =
      some ({ s with broker := { s.broker with pending := none }.deliver m },
        .turned (.delivered m)) := by
  simp [happen, lateTurn, hphase, hpending]

lemma happen_request {request : Request} {rest : List Request}
    (hphase : s.broker.phase = .running) (hcancelled : s.cancelled = false)
    (hrequests : s.broker.requests = request :: rest) :
    happen s (.act .turn) =
      some ({ s with broker := { s.broker with requests := rest }.apply request },
        .turned (.applied request)) := by
  simp [happen, Session.step, Broker.turn, hphase, hcancelled, hrequests]

/-- The loop comes to the same whether it hears first that a subscription is gone, or finds out. -/
lemma removal_orders {m : μ} {rest : List Request} (hs : Sound s.broker)
    (hphase : s.broker.phase = .running) (hcancelled : s.cancelled = false)
    (hrequests : s.broker.requests = .remove id :: rest) (hpending : s.broker.pending = some m) :
    ∃ s₁ s₂ s', happen s .lateTurn = some (s₁, .turned (.delivered m)) ∧
      happen s₁ (.act .turn) = some (s', .turned (.applied (.remove id))) ∧
      happen s (.act .turn) = some (s₂, .turned (.applied (.remove id))) ∧
      happen s₂ .lateTurn = some (s', .turned (.delivered m)) := by
  have hgone : s.broker.isHeld id = false := (hs.removing id (by simp [hrequests])).2
  have hboth := apply_deliver (b := { s.broker with pending := none, requests := rest }) m hgone
  have hlate := happen_delivery
    (s := { s with broker := { s.broker with requests := rest }.apply (.remove id) })
    hphase hpending
  refine ⟨_, _, _, happen_delivery hphase hpending, happen_request hphase hcancelled hrequests,
    happen_request hphase hcancelled hrequests, hlate.trans ?_⟩
  exact congrArg (fun b => some (({ s with broker := b } : Session μ), _)) hboth.symm

end Happenings

/-- However slow the loop is: names are given out once, and as numbers of 64 bits they differ as
long as there are no more than those. At the end of every turn, and until the next one, the
announced count is that of the members, none of whom is listed twice. When the loop runs and no
requests wait for it, the members are exactly the subscriptions that were made and have not been
given up. A member remains one until it is given up, and once it is no member, it never is again. A
removal that was asked for and a delivery may come in either order, and lead to the same
session. -/
theorem membership (happenings : List (Happening μ)) (s : Session μ)
    (events : List (Session.Event μ)) (hrun : happenAll {} happenings = some (s, events)) :
    let subscribed := subscribedIn events
    (subscribed.Nodup ∧
      (subscribed.length ≤ UInt64.size → (subscribed.map UInt64.ofNat).Nodup)) ∧
    ((∀ x s' turn, happen s x = some (s', .turned turn) →
        s'.broker.count = knownAfter s.broker s'.broker turn) ∧
      (s.broker.phase ≠ .stopped → s.broker.count = s.broker.members.length) ∧
      s.broker.members.Nodup) ∧
    (s.broker.phase = .running → s.broker.requests = [] →
      s.broker.members = subscribed.filter fun id => id ∉ releasedIn happenings) ∧
    (∀ later s' more, happenAll s later = some (s', more) → ∀ id ∈ s.broker.members,
      (s'.broker.phase ≠ .stopped → id ∉ releasedIn (happenings ++ later) →
        id ∈ s'.broker.members) ∧
      (id ∉ s'.broker.members → ∀ last s'' rest, happenAll s' last = some (s'', rest) →
        id ∉ s''.broker.members)) ∧
    ∀ id rest m, s.broker.phase = .running → s.cancelled = false →
      s.broker.requests = .remove id :: rest → s.broker.pending = some m →
      ∃ s₁ s₂ s', happen s .lateTurn = some (s₁, .turned (.delivered m)) ∧
        happen s₁ (.act .turn) = some (s', .turned (.applied (.remove id))) ∧
        happen s (.act .turn) = some (s₂, .turned (.applied (.remove id))) ∧
        happen s₂ .lateTurn = some (s', .turned (.delivered m)) := by
  intro subscribed
  have hr : Registry happenings events s := by
    simpa using registry_run registry_default hrun
  have hnames : subscribed = List.range s.broker.queues.length := hr.names
  have hnodup : subscribed.Nodup := hnames ▸ List.nodup_range
  refine ⟨⟨hnodup, fun hfew => ?_⟩, ⟨fun x s' turn hs => count_turned hr.rostered hs,
    hr.rostered.count, hr.once.of_append_left⟩, fun hphase hrequests => ?_, ?_, ?_⟩
  · have hsmall : ∀ id ∈ subscribed, id < UInt64.size := by
      intro id hid
      rw [hnames, List.length_range] at hfew
      rw [hnames, List.mem_range] at hid
      exact hid.trans_le hfew
    refine hnodup.map_on fun i hi j hj he => ?_
    rw [← UInt64.toNat_ofNat_of_lt' (hsmall i hi), he, UInt64.toNat_ofNat_of_lt' (hsmall j hj)]
  · have hroster := hr.rostered.roster (not_stopped hphase)
    rw [hrequests, List.foldl_nil] at hroster
    rw [hroster, heldSubscriptions, hnames]
    refine List.filter_congr fun id hid => ?_
    rw [← hnames] at hid
    rw [Bool.eq_iff_iff, hr.held id, decide_eq_true_eq]
    exact and_iff_right hid
  · intro later s' more hlater id hid
    have ha := arrived_of_member hr.sound hr.once hid
    obtain ⟨ha', -⟩ := arrived_run ha hlater
    have hr' := registry_run hr hlater
    refine ⟨fun hphase hstays => ?_, fun hout last s'' rest hlast hin => ?_⟩
    · -- whoever is there is a member or waits to be one, and this one does not wait
      have hmade : id ∈ subscribedIn (events ++ more) := by
        rw [hr'.names, List.mem_range]
        exact ha'.made
      have held := (hr'.held id).mpr ⟨hmade, hstays⟩
      exact (hr'.sound.known hphase id held).resolve_right ha'.seen
    · exact hout ((arrived_run ha' hlast).2 hin)
  · intro id rest m hphase hcancelled hrequests hpending
    exact removal_orders hr.sound hphase hcancelled hrequests hpending

/-- Three subscribe. One leaves, and the loop hears of it. Another one leaves while a message
waits. -/
def departures : List (Happening Nat) :=
  [.act .start, .act .subscribe, .act .subscribe, .act .subscribe, .act .turn, .act .turn,
    .act .turn, .act (.release 1), .act .turn, .act (.publish 7), .act (.enter 0),
    .act (.release 2)]

/-- The loop delivers the message first and finds that somebody has left; then it hears of it. The
other way round it comes to the same, and whoever has left is never a member again. -/
theorem departure_noticed_twice :
    ∃ s events s₁ s₂ s', happenAll {} departures = some (s, events) ∧
      s.broker.members = [0, 2] ∧
      happen s .lateTurn = some (s₁, .turned (.delivered 7)) ∧ s₁.broker.members = [0] ∧
      happen s₁ (.act .turn) = some (s', .turned (.applied (.remove 2))) ∧
      happen s (.act .turn) = some (s₂, .turned (.applied (.remove 2))) ∧
      happen s₂ .lateTurn = some (s', .turned (.delivered 7)) ∧
      s'.broker.members = [0] ∧ s'.broker.count = 1 ∧
      ∀ last s'' rest, happenAll s' last = some (s'', rest) → 2 ∉ s''.broker.members := by
  have hsome : (happenAll ({} : Session Nat) departures).isSome = true := by decide +kernel
  obtain ⟨⟨s, events⟩, hrun⟩ := Option.isSome_iff_exists.mp hsome
  have hbefore : ∀ r ∈ happenAll ({} : Session Nat) departures,
      r.1.broker.phase = .running ∧ r.1.cancelled = false ∧ r.1.broker.requests = [.remove 2] ∧
      r.1.broker.pending = some 7 ∧ r.1.broker.members = [0, 2] ∧
      (∀ x ∈ happen r.1 .lateTurn, x.1.broker.members = [0]) ∧
      (happenAll r.1 [.lateTurn, .act .turn]).map (·.1) =
        (happenAll {} (departures ++ [.lateTurn, .act .turn])).map (·.1) := by decide +kernel
  obtain ⟨hphase, hcancelled, hrequests, hpending, hmembers, hearly, hsame⟩ := hbefore _ hrun
  obtain ⟨-, -, -, hstays, horders⟩ := membership departures s events hrun
  obtain ⟨s₁, s₂, s', hlate, hturn, hturn', hlate'⟩ :=
    horders 2 [] 7 hphase hcancelled hrequests hpending
  have hboth : happenAll s [.lateTurn, .act .turn] =
      some (s', [.turned (.delivered 7), .turned (.applied (.remove 2))]) :=
    run_cons (showing_eq hlate) (run_cons (showing_eq hturn) rfl)
  rw [hboth] at hsame
  obtain ⟨⟨_, events'⟩, hrun', hend⟩ := Option.map_eq_some_iff.mp hsame.symm
  cases hend
  have hafter : ∀ r ∈ happenAll ({} : Session Nat) (departures ++ [.lateTurn, .act .turn]),
      r.1.broker.phase = .running ∧ r.1.broker.requests = [] ∧ subscribedIn r.2 = [0, 1, 2] := by
    decide +kernel
  obtain ⟨hphase', hrequests', hsubscribed⟩ := hafter _ hrun'
  obtain ⟨-, ⟨-, hcount, -⟩, hexact, -, -⟩ :=
    membership (departures ++ [.lateTurn, .act .turn]) s' events' hrun'
  have hleft : s'.broker.members = [0] := by
    rw [hexact hphase' hrequests', hsubscribed]
    decide +kernel
  refine ⟨s, events, s₁, s₂, s', hrun, hmembers, hlate, hearly _ hlate, hturn, hturn', hlate',
    hleft, ?_, ?_⟩
  · rw [hcount (not_stopped hphase'), hleft]
    rfl
  · have hmember : 2 ∈ s.broker.members := hmembers ▸ by decide
    exact (hstays _ s' _ hboth 2 hmember).2 (by simp [hleft])

end InverterLink.Proofs
