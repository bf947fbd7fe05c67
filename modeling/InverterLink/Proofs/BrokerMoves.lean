import InverterLink.Broker.Basic
import Mathlib

/-!
# The moves of a broker

Whatever happens around a broker, the broker itself makes one of a few moves: somebody makes or
gives up a subscription, a message finds room or is taken out of a queue, and the control loop
applies a request, delivers a message or ends. `Move` lists them. `Sound` is what all of them keep:
the loop knows a subscription that is still held, or will before it delivers anything.
-/

namespace InverterLink.Proofs

variable {μ : Type}

/-- The messages that wait in the queue of a subscription. -/
def unread (b : Broker μ) (id : SubscriberId) : List μ :=
  ((b.queues[id]?).map (·.messages)).getD []

/-- What a queue holds behind a delivery. A full queue misses the message. -/
def pushed (messages : List μ) (m : μ) : List μ :=
  if messages.length < subscriberCapacity then messages ++ [m] else messages

section Queues

variable (b : Broker μ) (id j : SubscriberId)

lemma unread_of_queues {b b' : Broker μ} (h : b'.queues = b.queues) (id : SubscriberId) :
    unread b' id = unread b id := by
  simp only [unread, h]

lemma unread_unmade {b : Broker μ} {id : SubscriberId} (h : b.queues.length ≤ id) :
    unread b id = [] := by
  rw [unread, List.getElem?_eq_none h]
  rfl

lemma isHeld_of_queues {b b' : Broker μ} (h : b'.queues = b.queues) (id : SubscriberId) :
    b'.isHeld id = b.isHeld id := by
  simp only [Broker.isHeld, h]

lemma lt_of_isHeld {b : Broker μ} {id : SubscriberId} (h : b.isHeld id = true) :
    id < b.queues.length := by
  by_contra hn
  rw [Broker.isHeld, List.getElem?_eq_none (Nat.not_lt.mp hn)] at h
  cases h

lemma start_queues : b.start.queues = b.queues := by
  unfold Broker.start
  split <;> rfl

lemma ask_eq (request : Request) :
    b.ask request = { b with requests := (b.ask request).requests } := by
  unfold Broker.ask
  split <;> rfl

lemma ask_requests {b : Broker μ} (h : b.phase ≠ .stopped) (request : Request) :
    (b.ask request).requests = b.requests ++ [request] := by
  unfold Broker.ask
  rw [if_neg h]

lemma mem_ask {request r : Request} (h : r ∈ (b.ask request).requests) :
    r ∈ b.requests ∨ r = request := by
  unfold Broker.ask at h
  split at h
  · exact .inl h
  · simpa using h

lemma subscribe_eq :
    b.subscribe.1 =
      { b with queues := b.queues ++ [{}], requests := b.subscribe.1.requests } :=
  ask_eq { b with queues := b.queues ++ [{}] } (.register b.queues.length)

lemma subscribe_queues : b.subscribe.1.queues = b.queues ++ [({} : Queue μ)] := by
  rw [subscribe_eq]

lemma subscribe_members : b.subscribe.1.members = b.members := by rw [subscribe_eq]

lemma subscribe_phase : b.subscribe.1.phase = b.phase := by rw [subscribe_eq]

lemma subscribe_pending : b.subscribe.1.pending = b.pending := by rw [subscribe_eq]

lemma subscribe_requests {b : Broker μ} (h : b.phase ≠ .stopped) :
    b.subscribe.1.requests = b.requests ++ [.register b.queues.length] :=
  ask_requests (b := { b with queues := b.queues ++ [{}] }) h _

lemma mem_subscribe {r : Request} (h : r ∈ b.subscribe.1.requests) :
    r ∈ b.requests ∨ r = .register b.queues.length :=
  mem_ask { b with queues := b.queues ++ [{}] } h

lemma unread_subscribe : unread b.subscribe.1 id = unread b id := by
  rw [unread, unread, subscribe_queues]
  rcases Nat.lt_trichotomy id b.queues.length with h | h | h
  · rw [List.getElem?_append_left h]
  · rw [h, List.getElem?_concat_length, List.getElem?_eq_none (Nat.le_refl _)]
    rfl
  · rw [List.getElem?_eq_none (by simpa using h), List.getElem?_eq_none (by omega)]

lemma isHeld_subscribe :
    b.subscribe.1.isHeld id = (b.isHeld id || id == b.queues.length) := by
  rw [Broker.isHeld, Broker.isHeld, subscribe_queues]
  rcases Nat.lt_trichotomy id b.queues.length with h | h | h
  · have hne : (id == b.queues.length) = false := by simpa using h.ne
    rw [List.getElem?_append_left h, hne, Bool.or_false]
  · rw [h, List.getElem?_concat_length]
    simp
  · have hne : (id == b.queues.length) = false := by simpa using h.ne'
    rw [List.getElem?_eq_none (by simpa using h), List.getElem?_eq_none (by omega), hne]
    rfl

lemma release_eq {b : Broker μ} {id : SubscriberId} (h : b.isHeld id = true) :
    b.release id =
      { b with
        queues := b.queues.modify id Queue.drop
        requests := (b.release id).requests } := by
  rw [Broker.release, if_pos h]
  exact ask_eq { b with queues := b.queues.modify id Queue.drop } (.remove id)

lemma release_requests {b : Broker μ} {id : SubscriberId} (h : b.isHeld id = true)
    (hp : b.phase ≠ .stopped) : (b.release id).requests = b.requests ++ [.remove id] := by
  rw [Broker.release, if_pos h]
  exact ask_requests (b := { b with queues := b.queues.modify id Queue.drop }) hp _

lemma mem_release {b : Broker μ} {id : SubscriberId} (h : b.isHeld id = true) {r : Request}
    (hr : r ∈ (b.release id).requests) : r ∈ b.requests ∨ r = .remove id := by
  rw [Broker.release, if_pos h] at hr
  exact mem_ask { b with queues := b.queues.modify id Queue.drop } hr

lemma release_queues {b : Broker μ} {id : SubscriberId} (h : b.isHeld id = true) :
    (b.release id).queues = b.queues.modify id Queue.drop := by rw [release_eq h]

lemma release_members {b : Broker μ} {id : SubscriberId} (h : b.isHeld id = true) :
    (b.release id).members = b.members := by rw [release_eq h]

lemma release_phase {b : Broker μ} {id : SubscriberId} (h : b.isHeld id = true) :
    (b.release id).phase = b.phase := by rw [release_eq h]

lemma release_pending {b : Broker μ} {id : SubscriberId} (h : b.isHeld id = true) :
    (b.release id).pending = b.pending := by rw [release_eq h]

lemma unread_release {b : Broker μ} {id : SubscriberId} (h : b.isHeld id = true)
    (j : SubscriberId) : unread (b.release id) j = if id = j then [] else unread b j := by
  rw [unread, unread, release_queues h, List.getElem?_modify]
  split
  · cases b.queues[j]? <;> rfl
  · simp

lemma isHeld_release {b : Broker μ} {id : SubscriberId} (h : b.isHeld id = true)
    (j : SubscriberId) : (b.release id).isHeld j = if id = j then false else b.isHeld j := by
  rw [Broker.isHeld, Broker.isHeld, release_queues h, List.getElem?_modify]
  split
  · cases b.queues[j]? <;> rfl
  · simp

lemma receive_of_unread {b : Broker μ} {id : SubscriberId} {m : μ} {rest : List μ}
    (h : unread b id = m :: rest) :
    b.receive id =
      ({ b with queues := b.queues.modify id fun q => { q with messages := rest } },
        .message m) := by
  unfold unread at h
  cases hq : b.queues[id]? with
  | none => simp [hq] at h
  | some q =>
    have hm : q.messages = m :: rest := by simpa [hq] using h
    simp [Broker.receive, hq, hm]

lemma receive_of_empty {b : Broker μ} {id : SubscriberId} (h : unread b id = []) :
    b.receive id = (b, if b.isFed id then .waiting else .closed) := by
  unfold unread at h
  cases hq : b.queues[id]? with
  | none => simp [Broker.receive, hq]
  | some q =>
    have hm : q.messages = [] := by simpa [hq] using h
    simp [Broker.receive, hq, hm]

lemma unread_receive {b : Broker μ} {id : SubscriberId} {m : μ} {rest : List μ}
    (h : unread b id = m :: rest) (j : SubscriberId) :
    unread (b.receive id).1 j = if id = j then rest else unread b j := by
  have hsome : (b.queues[id]?).isSome = true := by
    unfold unread at h
    cases hq : b.queues[id]? with
    | none => simp [hq] at h
    | some q => rfl
  rw [receive_of_unread h, unread, unread, List.getElem?_modify]
  split
  · rename_i he
    rw [← he]
    cases hq : b.queues[id]? with
    | none => simp [hq] at hsome
    | some q => rfl
  · simp

lemma isHeld_receive {b : Broker μ} {id : SubscriberId} {m : μ} {rest : List μ}
    (h : unread b id = m :: rest) (j : SubscriberId) :
    (b.receive id).1.isHeld j = b.isHeld j := by
  rw [receive_of_unread h, Broker.isHeld, Broker.isHeld, List.getElem?_modify]
  split
  · cases b.queues[j]? <;> rfl
  · simp

lemma deliver_queue (m : μ) (id : SubscriberId) :
    (b.deliver m).queues[id]? =
      (b.queues[id]?).map fun q => if id ∈ b.members.filter b.isHeld then q.push m else q := by
  simp only [Broker.deliver, List.getElem?_mapIdx]

lemma isHeld_deliver (m : μ) : (b.deliver m).isHeld id = b.isHeld id := by
  rw [Broker.isHeld, Broker.isHeld, deliver_queue]
  cases b.queues[id]? with
  | none => rfl
  | some q =>
    simp only [Option.map_some, Option.any_some]
    split
    · unfold Queue.push
      split <;> rfl
    · rfl

lemma unread_deliver (m : μ) :
    unread (b.deliver m) id =
      if id ∈ b.members ∧ b.isHeld id = true then pushed (unread b id) m else unread b id := by
  rw [unread, unread, deliver_queue]
  simp only [List.mem_filter]
  cases hq : b.queues[id]? with
  | none => simp [Broker.isHeld, hq]
  | some q =>
    simp only [Option.map_some, Option.getD_some]
    split
    · unfold Queue.push pushed
      split <;> rfl
    · rfl

end Queues

/-- What is done with a broker in one step. -/
inductive Deed (μ : Type) where
  | joined (id : SubscriberId)
  | left (id : SubscriberId)
  | accepted (m : μ)
  | took (id : SubscriberId) (m : μ)
  | applied (request : Request)
  | delivered (m : μ)
  | other

/-- The deed of a turn of the control loop. -/
def deedOfTurn : Turn μ → Deed μ
  | .applied request => .applied request
  | .delivered m => .delivered m
  | .stopped => .other

/-- What a deed makes of a broker. -/
inductive Move : Broker μ → Deed μ → Broker μ → Prop where
  | idle (b : Broker μ) (handles : Nat) : Move b .other { b with handles }
  | start (b : Broker μ) : Move b .other b.start
  | stop (b : Broker μ) : Move b .other b.stop
  | join (b : Broker μ) : Move b (.joined b.queues.length) b.subscribe.1
  | leave (b : Broker μ) (id : SubscriberId) (held : b.isHeld id = true) :
    Move b (.left id) (b.release id)
  | accept (b : Broker μ) (m : μ) (phase : b.phase ≠ .stopped) (pending : b.pending = none) :
    Move b (.accepted m) { b with pending := some m }
  | take (b : Broker μ) (id : SubscriberId) (m : μ) (rest : List μ)
    (queue : unread b id = m :: rest) : Move b (.took id m) (b.receive id).1
  | apply (b : Broker μ) (request : Request) (rest : List Request) (phase : b.phase = .running)
    (requests : b.requests = request :: rest) :
    Move b (.applied request) ({ b with requests := rest }.apply request)
  | deliver (b : Broker μ) (m : μ) (phase : b.phase = .running) (requests : b.requests = [])
    (pending : b.pending = some m) :
    Move b (.delivered m) ({ b with pending := none }.deliver m)

section Moves

variable {b b' : Broker μ} {m : μ} {deed : Deed μ}

lemma move_rfl (b : Broker μ) : Move b .other b := .idle b b.handles

lemma move_turn {cancelled : Bool} {turn : Turn μ} (h : b.turn cancelled = some (b', turn)) :
    Move b (deedOfTurn turn) b' := by
  unfold Broker.turn at h
  split at h
  · cases h
  · rename_i hphase
    have hphase : b.phase = .running := not_not.mp hphase
    split at h
    · cases h
      exact .stop b
    · split at h
      · rename_i request rest hr
        cases h
        exact .apply b request rest hphase hr
      · rename_i m hr hp
        cases h
        exact .deliver b m hphase hr hp
      · split at h
        · cases h
          exact .stop b
        · cases h

lemma move_offer (h : b.offer m = (b', .accepted)) : Move b (.accepted m) b' := by
  unfold Broker.offer at h
  split at h
  · cases h
  · cases h
  · rename_i hp hphase
    cases h
    exact .accept b m hphase hp

/-- The subscription whose subscriber acts. -/
def touched? : Deed μ → Option SubscriberId
  | .left id | .took id _ => some id
  | _ => none

/-- The subscription that is new. -/
def newcomer? : Deed μ → Option SubscriberId
  | .joined id => some id
  | _ => none

/-- The subscription that is given up. -/
def left? : Deed μ → Option SubscriberId
  | .left id => some id
  | _ => none

lemma newcomer_move {id : SubscriberId} (hm : Move b deed b') (hnew : newcomer? deed = some id) :
    id = b.queues.length := by
  cases hm with
  | join =>
    cases hnew
    rfl
  | _ => cases hnew

lemma held_iff_move {id : SubscriberId} (hm : Move b deed b') :
    b'.isHeld id = true ↔
      (b.isHeld id = true ∨ newcomer? deed = some id) ∧ left? deed ≠ some id := by
  have hsame : b'.isHeld id = b.isHeld id → newcomer? deed = none → left? deed = none →
      (b'.isHeld id = true ↔
        (b.isHeld id = true ∨ newcomer? deed = some id) ∧ left? deed ≠ some id) := by
    intro hheld hnew hleft
    simp [hheld, hnew, hleft]
  cases hm with
  | start => exact hsame (isHeld_of_queues (start_queues b) id) rfl rfl
  | join =>
    rw [isHeld_subscribe, Bool.or_eq_true, beq_iff_eq]
    exact ⟨fun h => ⟨h.imp_right fun he => congrArg some he.symm, nofun⟩,
      fun h => h.1.imp_right fun he => (Option.some.inj he).symm⟩
  | leave j held =>
    rw [isHeld_release held]
    by_cases he : j = id <;> simp [newcomer?, left?, he]
  | take j m rest queue => exact hsame (isHeld_receive queue id) rfl rfl
  | deliver m phase requests pending => exact hsame (isHeld_deliver _ id m) rfl rfl
  | _ => exact hsame rfl rfl rfl

lemma isHeld_move {id : SubscriberId} (hm : Move b deed b') (hid : id < b.queues.length)
    (hdeed : touched? deed ≠ some id) : b'.isHeld id = b.isHeld id := by
  have hnew : newcomer? deed ≠ some id := fun hnew => hid.ne (newcomer_move hm hnew)
  have hleft : left? deed ≠ some id := by
    intro hleft
    cases deed <;> cases hleft
    exact hdeed rfl
  rw [Bool.eq_iff_iff, held_iff_move hm]
  simp [hnew, hleft]

lemma queues_move (hm : Move b deed b') : b.queues.length ≤ b'.queues.length := by
  cases hm with
  | start => rw [start_queues]
  | join =>
    rw [subscribe_queues, List.length_append]
    exact Nat.le_add_right _ _
  | leave id held => rw [release_queues held, List.length_modify]
  | take id m rest queue => rw [receive_of_unread queue, List.length_modify]
  | deliver m phase requests pending => simp [Broker.deliver]
  | _ => exact Nat.le_refl _

lemma stopped_move (hm : Move b deed b') (h : b.phase = .stopped) : b'.phase = .stopped := by
  cases hm with
  | start =>
    rw [Broker.start, if_neg (by rw [h]; nofun)]
    exact h
  | stop => rfl
  | join => rwa [subscribe_phase]
  | leave id held => rwa [release_phase held]
  | take id m rest queue => rwa [receive_of_unread queue]
  | deliver m phase requests pending =>
    rw [phase] at h
    cases h
  | _ => exact h

/-- What all moves keep. -/
structure Sound (b : Broker μ) : Prop where
  members : ∀ id ∈ b.members, id < b.queues.length
  registering : ∀ id, .register id ∈ b.requests → id < b.queues.length
  removing : ∀ id, .remove id ∈ b.requests → id < b.queues.length ∧ b.isHeld id = false
  /-- The loop knows who is there, or learns it before it delivers anything. -/
  known : b.phase ≠ .stopped → ∀ id, b.isHeld id = true →
    id ∈ b.members ∨ .register id ∈ b.requests
  emptied : ∀ id, b.isHeld id = false → unread b id = []

lemma sound_join (h : Sound b) : Sound b.subscribe.1 := by
  have hlen : b.subscribe.1.queues.length = b.queues.length + 1 := by
    rw [subscribe_queues, List.length_append, List.length_singleton]
  constructor
  · intro id hid
    rw [subscribe_members] at hid
    exact hlen ▸ Nat.lt_succ_of_lt (h.members id hid)
  · intro id hid
    rw [hlen]
    rcases mem_subscribe b hid with hid | hid
    · exact Nat.lt_succ_of_lt (h.registering id hid)
    · cases hid
      exact Nat.lt_succ_self _
  · intro id hid
    rw [hlen, isHeld_subscribe]
    rcases mem_subscribe b hid with hid | hid
    · obtain ⟨hlt, hheld⟩ := h.removing id hid
      exact ⟨Nat.lt_succ_of_lt hlt, by simpa [hheld] using hlt.ne⟩
    · cases hid
  · intro hphase id hheld
    rw [subscribe_phase] at hphase
    rw [subscribe_members, subscribe_requests hphase]
    rw [isHeld_subscribe, Bool.or_eq_true, beq_iff_eq] at hheld
    rcases hheld with hheld | rfl
    · rcases h.known hphase id hheld with hk | hk
      · exact .inl hk
      · exact .inr (List.mem_append_left _ hk)
    · exact .inr (List.mem_append_right _ (List.mem_singleton_self _))
  · intro id hheld
    rw [isHeld_subscribe, Bool.or_eq_false_iff] at hheld
    rw [unread_subscribe, h.emptied id hheld.1]

lemma sound_leave {id : SubscriberId} (h : Sound b) (held : b.isHeld id = true) :
    Sound (b.release id) := by
  have hlen : (b.release id).queues.length = b.queues.length := by
    rw [release_queues held, List.length_modify]
  constructor
  · intro j hj
    rw [release_members held] at hj
    exact hlen ▸ h.members j hj
  · intro j hj
    rw [hlen]
    rcases mem_release held hj with hj | hj
    · exact h.registering j hj
    · cases hj
  · intro j hj
    rw [hlen, isHeld_release held]
    rcases mem_release held hj with hj | hj
    · obtain ⟨hlt, hheld⟩ := h.removing j hj
      exact ⟨hlt, by simp [hheld]⟩
    · cases hj
      exact ⟨lt_of_isHeld held, by simp⟩
  · intro hphase j hheld
    rw [release_phase held] at hphase
    rw [release_members held, release_requests held hphase]
    rw [isHeld_release held] at hheld
    split at hheld
    · cases hheld
    · rcases h.known hphase j hheld with hk | hk
      · exact .inl hk
      · exact .inr (List.mem_append_left _ hk)
  · intro j hheld
    rw [unread_release held]
    rw [isHeld_release held] at hheld
    split
    · rfl
    · rename_i hne
      rw [if_neg hne] at hheld
      exact h.emptied j hheld

lemma sound_take {id : SubscriberId} {rest : List μ} (h : Sound b)
    (queue : unread b id = m :: rest) : Sound (b.receive id).1 := by
  have hheld := isHeld_receive queue
  have hunread := unread_receive queue
  rw [receive_of_unread queue] at hheld hunread ⊢
  constructor
  · simpa using h.members
  · simpa using h.registering
  · intro j hj
    rw [hheld]
    simpa using h.removing j hj
  · intro hphase j hj
    rw [hheld] at hj
    exact h.known hphase j hj
  · intro j hj
    rw [hheld] at hj
    rw [hunread]
    split
    · rename_i he
      -- a subscription that is given up has nothing to take
      subst he
      rw [h.emptied id hj] at queue
      cases queue
    · exact h.emptied j hj

lemma sound_apply {request : Request} {rest : List Request} (h : Sound b)
    (requests : b.requests = request :: rest) :
    Sound ({ b with requests := rest }.apply request) := by
  have hrest : ∀ r ∈ rest, r ∈ b.requests := by
    intro r hr
    rw [requests]
    exact List.mem_cons_of_mem _ hr
  have hfirst : request ∈ b.requests := by
    rw [requests]
    exact List.mem_cons_self
  constructor
  · intro id hid
    cases request with
    | register j =>
      rcases List.mem_append.mp hid with hid | hid
      · exact h.members id hid
      · rw [List.mem_singleton.mp hid]
        exact h.registering j hfirst
    | remove j => exact h.members id (List.mem_of_mem_filter hid)
  · intro id hid
    exact h.registering id (hrest _ hid)
  · intro id hid
    exact h.removing id (hrest _ hid)
  · intro hphase id hheld
    replace hheld : b.isHeld id = true := hheld
    have hknown := h.known hphase id hheld
    rw [requests, List.mem_cons] at hknown
    cases request with
    | register j =>
      rcases hknown with hk | hk | hk
      · exact .inl (List.mem_append_left _ hk)
      · cases hk
        exact .inl (List.mem_append_right _ (List.mem_singleton_self _))
      · exact .inr hk
    | remove j =>
      have hne : id ≠ j := by
        rintro rfl
        rw [(h.removing id hfirst).2] at hheld
        cases hheld
      rcases hknown with hk | hk | hk
      · exact .inl (List.mem_filter.mpr ⟨hk, by simpa using hne⟩)
      · cases hk
      · exact .inr hk
  · exact h.emptied

lemma sound_deliver (h : Sound b) (m : μ) : Sound ({ b with pending := none }.deliver m) := by
  have hheld : ∀ id, ({ b with pending := none }.deliver m).isHeld id = b.isHeld id :=
    fun id => isHeld_deliver _ id m
  have hlen : ({ b with pending := none }.deliver m).queues.length = b.queues.length := by
    simp [Broker.deliver]
  constructor
  · intro id hid
    rw [hlen]
    exact h.members id (List.mem_of_mem_filter hid)
  · intro id hid
    rw [hlen]
    exact h.registering id hid
  · intro id hid
    rw [hlen, hheld]
    exact h.removing id hid
  · intro hphase id hid
    rw [hheld] at hid
    rcases h.known hphase id hid with hk | hk
    · exact .inl (List.mem_filter.mpr ⟨hk, hid⟩)
    · exact .inr hk
  · intro id hid
    rw [hheld] at hid
    rw [unread_deliver, if_neg]
    · exact h.emptied id hid
    · rintro ⟨-, hh⟩
      rw [show b.isHeld id = true from hh] at hid
      cases hid

lemma not_stopped (h : b.phase = .running) : b.phase ≠ .stopped := by simp [h]

lemma member_of_held {id : SubscriberId} (h : Sound b) (phase : b.phase = .running)
    (requests : b.requests = []) (held : b.isHeld id = true) : id ∈ b.members := by
  rcases h.known (not_stopped phase) id held with hk | hk
  · exact hk
  · rw [requests] at hk
    cases hk

lemma isFed_of_held {id : SubscriberId} (h : Sound b) (phase : b.phase ≠ .stopped)
    (held : b.isHeld id = true) : b.isFed id = true := by
  rcases h.known phase id held with hk | hk <;> simp [Broker.isFed, hk]

lemma delivering_not_stopped (hm : Move b (.delivered m) b') : b.phase ≠ .stopped := by
  cases hm with
  | deliver _ phase requests pending => exact not_stopped phase

lemma unread_delivered {id : SubscriberId} (h : Sound b) (hm : Move b (.delivered m) b')
    (held : b.isHeld id = true) : unread b' id = pushed (unread b id) m := by
  cases hm with
  | deliver _ phase requests pending =>
    have hmem := member_of_held h phase requests held
    rw [unread_deliver]
    exact if_pos ⟨hmem, held⟩

theorem sound_move (h : Sound b) (hm : Move b deed b') : Sound b' := by
  cases hm with
  | idle handles => exact ⟨h.members, h.registering, h.removing, h.known, h.emptied⟩
  | start =>
    unfold Broker.start
    split
    · rename_i hp
      refine ⟨h.members, h.registering, h.removing, fun _ => ?_, h.emptied⟩
      exact h.known (by rw [hp]; nofun)
    · exact h
  | stop => exact ⟨nofun, nofun, nofun, fun hs => absurd rfl hs, h.emptied⟩
  | join => exact sound_join h
  | leave id held => exact sound_leave h held
  | accept m phase pending =>
    exact ⟨h.members, h.registering, h.removing, h.known, h.emptied⟩
  | take id m rest queue => exact sound_take h queue
  | apply request rest phase requests => exact sound_apply h requests
  | deliver m phase requests pending => exact sound_deliver h m

end Moves
end InverterLink.Proofs
