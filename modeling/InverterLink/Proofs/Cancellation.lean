import InverterLink.Proofs.CacheCurrency
import InverterLink.Proofs.QueryAnswers
import InverterLink.Proofs.SocketLifecycle

/-!
# What cancellation leaves

The loop of a cancelled connection delivers nothing more. So what has arrived in a queue is final,
and its subscriber gets what waits there. A query that waits for its answer then ends with the first
datagram of its identifier that has arrived, and as cancelled if there is none. `Steady` collects
what every run of a connection keeps, cancelled or not.
-/

namespace InverterLink.Proofs
open Connection

section Moves

variable {μ : Type} {b b' : Broker μ} {deed : Deed μ} {id : SubscriberId}

/-- A loop that has ended knows nobody, and nobody asks it for anything. -/
def Ended (b : Broker μ) : Prop := b.phase = .stopped → b.members = [] ∧ b.requests = []

lemma ask_stopped (h : b.phase = .stopped) (request : Request) :
    (b.ask request).requests = b.requests := by
  rw [Broker.ask, if_pos h]

lemma ended_move (h : Ended b) (hm : Move b deed b') : Ended b' := by
  cases hm with
  | idle handles => exact h
  | start =>
    unfold Broker.start
    split
    · intro hp
      cases hp
    · exact h
  | stop => exact fun _ => ⟨rfl, rfl⟩
  | join =>
    intro hp
    rw [subscribe_phase] at hp
    obtain ⟨hmembers, hrequests⟩ := h hp
    refine ⟨(subscribe_members b).trans hmembers, ?_⟩
    exact (ask_stopped (b := { b with queues := b.queues ++ [{}] }) hp _).trans hrequests
  | leave id held =>
    intro hp
    rw [release_phase held] at hp
    obtain ⟨hmembers, hrequests⟩ := h hp
    rw [release_members held, Broker.release, if_pos held]
    refine ⟨hmembers, ?_⟩
    exact (ask_stopped (b := { b with queues := b.queues.modify id Queue.drop }) hp _).trans
      hrequests
  | accept m phase pending => exact h
  | take id m rest queue =>
    rw [receive_of_unread queue]
    exact h
  | apply request rest phase requests => exact fun hp => absurd hp (not_stopped phase)
  | deliver m phase requests pending => exact fun hp => absurd hp (not_stopped phase)

lemma unfed_of_stopped (h : Ended b) (hp : b.phase = .stopped) (id : SubscriberId) :
    b.isFed id = false := by
  obtain ⟨hmembers, hrequests⟩ := h hp
  simp [Broker.isFed, hmembers, hrequests]

lemma started_move (h : b.phase ≠ .idle) (hm : Move b deed b') : b'.phase ≠ .idle := by
  cases hm with
  | start =>
    rw [Broker.start, if_neg h]
    exact h
  | stop =>
    intro hp
    cases hp
  | join => rwa [subscribe_phase]
  | leave id held => rwa [release_phase held]
  | take id m rest queue => rwa [receive_of_unread queue]
  | _ => exact h

lemma held_move (hm : Move b deed b') (held : b'.isHeld id = true) :
    b.isHeld id = true ∨ b.queues.length ≤ id :=
  ((held_iff_move hm).mp held).1.imp_right fun hnew => (newcomer_move hm hnew).ge

lemma unread_undelivered (hm : Move b deed b') (hnone : delivered? deed = none)
    (held : b'.isHeld id = true) : (took? id deed).toList ++ unread b' id = unread b id := by
  have hstays : deed ≠ .left id := fun hdeed =>
    ((held_iff_move hm).mp held).2 (congrArg left? hdeed)
  have hmove := unread_move hm fun hdeed => absurd hdeed hstays
  rwa [List.drop_eq_nil_of_le (unread_length_move hm hnone), List.append_nil] at hmove

end Moves

/-- A call in this phase has locked the write side of the socket. -/
def holdsLock : CallPhase → Bool
  | .writing _ _ | .flushing _ => true
  | _ => false

/-- Whoever has locked the write side of the socket is about to write to it. -/
def Locked (s : State) : Prop :=
  ∀ n, s.writer = some n → ∃ c, s.calls[n]? = some c ∧ holdsLock c.phase = true

section Locks

variable {s s' : State} {action : Action} {events : List Event} {n m : CallId} {c : Call}

lemma unlock_writer (h : (s.unlock m).writer = some n) : s.writer = some n ∧ m ≠ n := by
  unfold State.unlock at h
  split at h
  · cases h
  · rename_i hne
    exact ⟨h, fun he => hne (he ▸ h)⟩

lemma calls_callMove (hm : CallMove s m c action s' events) (hne : m ≠ n) :
    s'.calls[n]? = s.calls[n]? := by
  cases hm with
  | _ => exact List.getElem?_modify_ne _ _ hne

lemma locked_callMove (h : Locked s) (hc : s.calls[m]? = some c)
    (hm : CallMove s m c action s' events) : Locked s' := by
  have hother : ∀ n, s.writer = some n → m ≠ n →
      ∃ c, s'.calls[n]? = some c ∧ holdsLock c.phase = true := by
    intro n hn hne
    rw [calls_callMove hm hne]
    exact h n hn
  -- a call that has locked the socket goes on to write, or unlocks it
  have hown : ∀ n, s.writer = some n → holdsLock c.phase = false → m ≠ n := by
    rintro n hn hfree rfl
    obtain ⟨c', hc', hlock⟩ := h m hn
    cases hc.symm.trans hc'
    rw [hfree] at hlock
    cases hlock
  intro n hn
  cases hm with
  | advance _ phase writer _ step =>
    have hnew : m = n → holdsLock phase = true → ∃ c', (s.calls.modify m fun c =>
        { c with phase })[n]? = some c' ∧ holdsLock c'.phase = true := by
      rintro rfl hlock
      exact ⟨{ c with phase }, by simp [hc], hlock⟩
    cases step with
    | missed identifier before => exact hother n hn (hown n hn (by rw [before]; rfl))
    | passed before => exact hother n hn (hown n hn (by rw [before]; rfl))
    | locked socket before => exact hnew (Option.some.inj hn) rfl
    | written socket before =>
      by_cases he : m = n
      · exact hnew he rfl
      · exact hother n hn he
    | wrote socket rest count before =>
      by_cases he : m = n
      · exact hnew he rfl
      · exact hother n hn he
    | _ => exact hother n (unlock_writer hn).1 (unlock_writer hn).2
  | fail socket error phase => exact hother n (unlock_writer hn).1 (unlock_writer hn).2
  | join phase => exact hother n hn (hown n hn (by rw [phase]; rfl))

lemma phase_filterMove {f : Filter} (hm : FilterMove s m c f s' events) (n : CallId) :
    (s'.calls[n]?).map (·.phase) = (s.calls[n]?).map (·.phase) := by
  cases hm with
  | _ =>
    simp only [State.updateFilter, State.updateCall, State.endFilter, List.getElem?_modify]
    split
    · cases s.calls[n]? <;> rfl
    · simp

theorem locked_step (h : Locked s) (hs : s.step action = some (s', events)) : Locked s' := by
  rcases (changes_step hs).writer with hwriter | ⟨n, c, hc, hm⟩
  · have hkept : ∀ n, s'.writer = some n → ∃ c, s.calls[n]? = some c ∧ holdsLock c.phase = true :=
      fun n hn => h n (hwriter ▸ hn)
    intro n hn
    cases stepped_step hs with
    | call hc move => exact locked_callMove h hc move n hn
    | filter hc hf running move =>
      obtain ⟨c₀, hc₀, hlock⟩ := hkept n hn
      have hphase := phase_filterMove move n
      rw [hc₀, Option.map_some, Option.map_eq_some_iff] at hphase
      obtain ⟨c', hc', hphase⟩ := hphase
      exact ⟨c', hc', hphase ▸ hlock⟩
    | begin job =>
      obtain ⟨c₀, hc₀, hlock⟩ := hkept n hn
      refine ⟨c₀, ?_, hlock⟩
      exact (List.getElem?_append_left (List.getElem?_eq_some_iff.mp hc₀).1).trans hc₀
    | beside kept =>
      rw [kept.calls]
      exact hkept n hn
  · exact locked_callMove h hc hm

end Locks

/-- What every run of a connection keeps, cancelled or not. -/
structure Steady (settings : ConnectionBuilder) (h : List Visit) (s : State) : Prop where
  queries : Queries settings h s
  standing : Standing s
  locked : Locked s
  started : s.broker.phase ≠ .idle
  ended : Ended s.broker

section Runs

variable {settings : ConnectionBuilder} {h : List Visit} {s s' : State} {action : Action}
  {actions : List Action} {events : List Event} {id : SubscriberId}

theorem steady_step (hd : Steady settings h s) (hs : s.step action = some (s', events)) :
    Steady settings (h ++ [⟨s, action, s', events⟩]) s' := by
  have hm := (changes_step hs).move
  exact ⟨queries_step hd.queries hs, (upkeep_step hd.standing hs).standing,
    locked_step hd.locked hs, started_move hd.started hm, ended_move hd.ended hm⟩

lemma steady_start (settings : ConnectionBuilder) (now : Instant) (cancelled : Bool) :
    Steady settings [] (State.start settings now cancelled) := by
  have hrunning : (State.start settings now cancelled).broker.phase = .running := by
    cases hlogs : settings.logs <;> simp only [State.start, hlogs] <;> rfl
  refine ⟨queries_start settings now cancelled, standing_start settings now cancelled, ?_, ?_,
    fun hp => absurd hp (not_stopped hrunning)⟩
  · intro n hn
    cases hn
  · rw [hrunning]
    decide

theorem steady_run {start : State} {before : List Visit} (hstart : Steady settings before start)
    (hr : start.run actions = some (s, events)) :
    Steady settings (before ++ visitsOf start actions) s := by
  refine visits_induction (P := fun h s => Steady settings (before ++ h) s)
    (by rwa [List.append_nil]) ?_ hr
  intro h s action s' events hd hs
  rw [← List.append_assoc]
  exact steady_step hd hs

lemma cancelled_step (hc : s.cancelled = true) (hs : s.step action = some (s', events)) :
    s'.cancelled = true := by
  rw [(changes_step hs).token, hc, Bool.true_or]

lemma cancelled_run (hc : s.cancelled = true) (hr : s.run actions = some (s', events)) :
    s'.cancelled = true :=
  visits_induction (P := fun _ s => s.cancelled = true) hc
    (fun _ _ _ _ _ hc hs => cancelled_step hc hs) hr

lemma parent_run (hr : s.run actions = some (s', events)) :
    s'.parentCancelled = (s.parentCancelled || actions.any cancelsParent) :=
  flag_run State.parentCancelled (fun _ _ _ _ hs => (changes_step hs).parent) hr

lemma now_step (hs : s.step action = some (s', events)) : s.now ≤ s'.now := by
  by_cases hwait : ∃ time, action = .wait time
  · obtain ⟨time, rfl⟩ := hwait
    obtain ⟨hlater, rfl, -⟩ := wait_cases hs
    exact hlater
  · exact ((changes_step hs).clock fun time he => hwait ⟨time, he⟩).ge

lemma undelivered_of_cancelled (hc : s.cancelled = true)
    (hs : s.step action = some (s', events)) : delivered? (deedAt s action) = none := by
  by_cases hbroker : action = .stepBroker
  · subst hbroker
    obtain ⟨b, turn, ht, -, -⟩ := turn_cases hs
    have hstopped : turn = .stopped := by
      simp only [Broker.turn, hc, if_true] at ht
      split at ht <;> cases ht
      rfl
    simp only [deedAt, ht, hstopped]
    rfl
  · by_cases hdecoder : action = .stepDecoder
    · subst hdecoder
      simp only [deedAt]
      split
      · split <;> rfl
      · rfl
    · exact delivered_of_single (single_deed hdecoder hbroker)

/-- What a subscription has got when the connection is cancelled is all that it gets. -/
structure Final (s₀ : State) (h : List Visit) (s : State) : Prop where
  cancelled : s.cancelled = true
  holdings : Holdings h s
  arrivals : ∀ id, arrivals id h = []
  older : s₀.broker.queues.length ≤ s.broker.queues.length
  kept : ∀ id, s.broker.isHeld id = true →
    takenFrom id h ++ unread s.broker id = unread s₀.broker id

theorem final_step {s₀ : State} (hf : Final s₀ h s) (hs : s.step action = some (s', events)) :
    Final s₀ (h ++ [⟨s, action, s', events⟩]) s' := by
  have hm := (changes_step hs).move
  have hnone := undelivered_of_cancelled hf.cancelled hs
  refine ⟨cancelled_step hf.cancelled hs, holdings_step hf.holdings hs, fun id => ?_,
    hf.older.trans (queues_move hm), fun id held => ?_⟩
  · rw [arrivals_concat, hf.arrivals, added,
      List.drop_eq_nil_of_le (unread_length_move hm hnone)]
    rfl
  · rw [takenFrom_concat, List.append_assoc, unread_undelivered hm hnone held]
    rcases held_move hm held with hold | hnew
    · exact hf.kept id hold
    · -- nothing was there for a subscription that is made only now
      rw [(hf.holdings.unmade id hnew).2, unread_unmade hnew,
        unread_unmade (hf.older.trans hnew)]
      rfl

lemma final_start (hd : Steady settings h s) (hc : s.cancelled = true) : Final s [] s := by
  have hholdings := hd.queries.holdings
  exact ⟨hc, ⟨hholdings.sound, fun _ _ => ⟨rfl, rfl⟩, hholdings.made, hholdings.apart⟩,
    fun _ => rfl, Nat.le_refl _, fun _ _ => rfl⟩

theorem final_run {s₀ : State} (hd : Steady settings h s₀) (hc : s₀.cancelled = true)
    (hr : s₀.run actions = some (s, events)) : Final s₀ (visitsOf s₀ actions) s :=
  visits_induction (P := Final s₀) (final_start hd hc)
    (fun _ _ _ _ _ hf hs => final_step hf hs) hr

lemma arrivals_final {s₀ : State} {before : List Visit} (hf : Final s₀ h s) (id : SubscriberId) :
    arrivals id (before ++ h) = arrivals id before := by
  have happend : arrivals id (before ++ h) = arrivals id before ++ arrivals id h :=
    List.flatMap_append
  rw [happend, hf.arrivals, List.append_nil]

end Runs

/-- What a query that waits is told in the end: the first datagram of its identifier that has
arrived, or that the connection is cancelled. -/
def verdict (identifier : Identifier) (arrived : List Datagram) : LinkResult Outcome :=
  match arrived.find? (·.identifier = identifier) with
  | some d => .ok (.answered d)
  | none => .error .cancelled

section Waiting

variable {settings : ConnectionBuilder} {h : List Visit} {s s' : State} {action : Action}
  {actions : List Action} {events : List Event} {n : CallId} {c : Call} {f : Filter}
  {deadline : Instant} {identifier : Identifier} {id : SubscriberId}

/-- The call waits until the deadline for the answer to a query, which its filter looks for in the
subscription. -/
def Awaits (s : State) (n : CallId) (identifier : Identifier) (deadline : Instant)
    (id : SubscriberId) : Prop :=
  ∃ c f, s.calls[n]? = some c ∧ c.job = .query identifier ∧ c.phase = .awaiting deadline ∧
    c.filter = some f ∧ f.subscription = id

lemma answer_verdict {result : LinkResult Outcome} (ha : Attended h s n identifier f)
    (hsound : Sound s.broker) (hf : c.filter = some f) (hanswer : State.answer? c = some result) :
    result = verdict identifier ((arrivals f.subscription h).map (·.2)) := by
  simp only [State.answer?, hf, Option.bind_eq_bind, Option.bind_some] at hanswer
  split at hanswer
  · rename_i d _ hslot
    cases hanswer
    rw [verdict, first_arrival ha hslot]
  · cases hanswer
  · rename_i hslot hrunning
    cases hanswer
    have hempty := hsound.emptied _ (ha.listens.trans hrunning)
    have hbalanced := ha.balanced
    rw [Balanced, hempty, List.append_nil] at hbalanced
    rw [verdict, hbalanced, ← ha.slot, hslot]

/-- A query that waits goes on waiting, or ends with its answer or out of time, or is dropped. -/
lemma awaits_step (hw : Awaits s n identifier deadline id)
    (hs : s.step action = some (s', events)) :
    Awaits s' n identifier deadline id ∨ action = .dropCall n ∨
      ∃ c result, s.calls[n]? = some c ∧ c.phase = .awaiting deadline ∧
        .finished n result ∈ events ∧ (State.answer? c = some result ∨ deadline ≤ s.now) := by
  obtain ⟨c, f, hc, hjob, hphase, hf, hid⟩ := hw
  have hsame : s'.calls[n]? = some c → Awaits s' n identifier deadline id :=
    fun hc' => ⟨c, f, hc', hjob, hphase, hf, hid⟩
  cases stepped_step hs with
  | @call m c₁ _ _ _ hc₁ move =>
    by_cases hne : m = n
    · subst hne
      cases hc.symm.trans hc₁
      cases move with
      | advance _ phase writer _ step =>
        cases step with
        | answered _ result before answer =>
          exact .inr (.inr ⟨c, result, hc, hphase, List.mem_singleton_self _, .inl answer⟩)
        | expired _ before answer late =>
          cases hphase.symm.trans before
          exact .inr (.inr ⟨c, _, hc, hphase, List.mem_singleton_self _, .inr late⟩)
        | dropped => exact .inr (.inl rfl)
        | served _ _ before | missed _ before | barred before | passed before | unplugged before
        | locked _ before | written _ before | wrote _ _ _ before | sent _ _ before
        | asked _ _ before => cases hphase.symm.trans before
      | fail socket error phase =>
        rw [hphase] at phase
        exact phase.elim
      | join phase => cases hphase.symm.trans phase
    · exact .inl (hsame ((calls_callMove move hne).trans hc))
  | @filter m c₁ f₁ _ _ hc₁ hf₁ running move =>
    -- the filter keeps its subscription
    by_cases hne : m = n
    · subst hne
      cases hc.symm.trans hc₁
      cases hf.symm.trans hf₁
      cases move with
      | look d rest phase queue =>
        refine .inl ⟨{ c with filter := some (State.Filter.look f c.job d) }, _, ?_, hjob, hphase,
          rfl, ?_⟩
        · simp [State.updateFilter, State.updateCall, hc, hf]
        · rw [hjob, look_eq]
          exact hid
      | close why =>
        refine .inl ⟨{ c with filter := some { f with running := false } }, _, ?_, hjob, hphase,
          rfl, hid⟩
        simp [State.endFilter, State.updateFilter, State.updateCall, hc, hf]
    · refine .inl (hsame ?_)
      cases move with
      | _ => exact (List.getElem?_modify_ne _ _ hne).trans hc
  | begin job =>
    refine .inl (hsame ?_)
    exact (List.getElem?_append_left (List.getElem?_eq_some_iff.mp hc).1).trans hc
  | beside kept => exact .inl (hsame (kept.calls ▸ hc))

/-- A query that waits when the connection is cancelled goes on waiting or has got the verdict on
what had arrived by then, as long as its time is not over and the caller does not drop it. -/
theorem verdict_run {s₀ : State} (hd : Steady settings h s₀) (hc : s₀.cancelled = true)
    (hw : Awaits s₀ n identifier deadline id) (hr : s₀.run actions = some (s, events))
    (hlate : s.now < deadline) (hdrop : ∀ action ∈ actions, action ≠ .dropCall n) :
    Awaits s n identifier deadline id ∨
      .finished n (verdict identifier ((arrivals id h).map (·.2))) ∈ events := by
  have hall := visits_induction
    (P := fun h' s => Steady settings (h ++ h') s ∧ Final s₀ h' s ∧
      (s.now < deadline → (∀ w ∈ h', w.action ≠ .dropCall n) →
        Awaits s n identifier deadline id ∨
          .finished n (verdict identifier ((arrivals id h).map (·.2))) ∈ h'.flatMap (·.events)))
    ⟨by rwa [List.append_nil], final_start hd hc, fun _ _ => .inl hw⟩ ?_ hr
  · rw [events_eq hr]
    exact hall.2.2 hlate fun w hw => hdrop _ (action_mem hw)
  · intro h' s action s' events ⟨hd', hf, ih⟩ hs
    refine ⟨?_, final_step hf hs, fun hlate hdrop => ?_⟩
    · rw [← List.append_assoc]
      exact steady_step hd' hs
    · have hlate' : s.now < deadline := Nat.lt_of_le_of_lt (now_step hs) hlate
      rw [List.flatMap_append, List.flatMap_singleton, List.mem_append]
      rcases ih hlate' fun w hw => hdrop w (List.mem_append_left _ hw) with hw | hdone
      · rcases awaits_step hw hs with hw' | hdropped | ⟨c, result, hcall, hphase, hmem, hend⟩
        · exact .inl hw'
        · exact absurd hdropped (hdrop _ (List.mem_append_right _ (List.mem_singleton_self _)))
        · have hanswer := hend.resolve_right (Nat.not_le.mpr hlate')
          obtain ⟨c₁, f, hc₁, hjob, -, hfilter, hid⟩ := hw
          cases hcall.symm.trans hc₁
          obtain ⟨f₁, hf₁, ha⟩ := (hd'.queries.tracked n c hcall).attended identifier hjob
            (by rw [hphase]; rfl) (by rw [hphase]; rfl)
          cases hfilter.symm.trans hf₁
          have hverdict := answer_verdict ha hf.holdings.sound hfilter hanswer
          rw [arrivals_final hf, hid] at hverdict
          exact .inr (.inr (hverdict ▸ hmem))
      · exact .inr (.inl hdone)

end Waiting
end InverterLink.Proofs
