import InverterLink.Proofs.Delays
import InverterLink.Proofs.Runs
import InverterLink.Retry

/-!
# How a series of attempts ends

A run of a series is a list of legs, each an action between two states. What a leg can be is said
once, in `Stride`. From it follows where a series stands after the outcomes of its attempts: the
first success ends it, a failure ends it only when the time of the policy does not last for the next
delay, and a cancelled token lets nothing else happen any more. An attempt that is on its last step
goes before a token that is cancelled during that step.
-/

namespace InverterLink.Proofs
open Backoff Retry

variable {α : Type}

/-- What an action does to a series. -/
inductive Stride (s : Retry.State α) :
    Retry.Action α → Retry.State α → List (Retry.Event α) → Prop where
  | cancelled : Stride s .cancel { s with cancelled := true } []
  | waited (time : Instant) (later : s.now ≤ time) : Stride s (.wait time) { s with now := time } []
  | halted (token : s.cancelled = true) (unfinished : ¬ s.phase.isOver) :
    Stride s .halt { s with phase := .finished (.error .cancelled) }
      [.finished s.now (.error .cancelled)]
  | begun (phase : s.phase = .ready) (token : s.cancelled = false) :
    Stride s .attempt { s with phase := .attempting } [.begun s.now]
  | succeeded (cancels : Bool) (value : α) (draw : Draw) (phase : s.phase = .attempting)
    (token : s.cancelled = false) :
    Stride s (.complete cancels (.ok value) draw)
      { s with cancelled := cancels, phase := .finished (.ok value) }
      [.finished s.now (.ok value)]
  | failed (cancels : Bool) (error : LinkError) (draw : Draw) (backoff : Backoff) (delay : Duration)
    (phase : s.phase = .attempting) (token : s.cancelled = false)
    (asked : s.backoff.next s.now draw = (backoff, .ok (some delay))) :
    Stride s (.complete cancels (.error error) draw)
      { s with backoff, cancelled := cancels, phase := .pausing (s.now + delay.nanos) }
      [.failed s.now error]
  | exhausted (cancels : Bool) (error : LinkError) (draw : Draw) (backoff : Backoff)
    (phase : s.phase = .attempting) (token : s.cancelled = false)
    (asked : s.backoff.next s.now draw = (backoff, .ok none)) :
    Stride s (.complete cancels (.error error) draw)
      { s with
        backoff, cancelled := cancels
        phase := .finished (.error (.retriesExhausted (backoff.elapsed s.now) error)) }
      [.failed s.now error,
        .finished s.now (.error (.retriesExhausted (backoff.elapsed s.now) error))]
  | broke (cancels : Bool) (error : LinkError) (draw : Draw) (backoff : Backoff) (fault : Fault)
    (phase : s.phase = .attempting) (token : s.cancelled = false)
    (asked : s.backoff.next s.now draw = (backoff, .error fault)) :
    Stride s (.complete cancels (.error error) draw)
      { s with backoff, cancelled := cancels, phase := .broken fault } [.failed s.now error]
  | resumed (deadline : Instant) (phase : s.phase = .pausing deadline) (token : s.cancelled = false)
    (due : deadline ≤ s.now) : Stride s .resume { s with phase := .ready } [.called s.now]

/-- An action of a series, the states before and after it, and its events. -/
abbrev Leg (α : Type) : Type := Passage (Retry.State α) (Retry.Action α) (Retry.Event α)

abbrev legsOf (s : Retry.State α) (actions : List (Retry.Action α)) : List (Leg α) :=
  passagesOf step s actions

/-- How the attempt ended that an action completes. -/
def outcome? : Retry.Action α → Option (LinkResult α)
  | .complete _ result _ => some result
  | _ => none

/-- How the attempts ended. -/
def outcomes (h : List (Leg α)) : List (LinkResult α) := h.filterMap fun w => outcome? w.action

/-- When an attempt began. -/
def beginning? : Retry.Event α → Option Instant
  | .begun time => some time
  | _ => none

/-- When the attempts began. -/
def beginnings (events : List (Retry.Event α)) : List Instant := events.filterMap beginning?

/-- The interval after this many failures, before it is spread. -/
def intervalAfter (policy : BackoffPolicy) : Nat → Except Fault Duration
  | 0 => .ok policy.initialInterval
  | n + 1 => (intervalAfter policy n).bind (grow policy)

/-- The clock does not run on over the end of a pause or before an attempt that was called for. -/
def OnTime (w : Leg α) : Prop :=
  match w.state.phase, w.action with
  | .ready, .wait time => time ≤ w.state.now
  | .pausing deadline, .wait time => time ≤ deadline
  | _, _ => True

instance (w : Leg α) : Decidable (OnTime w) := by
  unfold OnTime
  split <;> infer_instance

section Legs

variable {policy : BackoffPolicy} {now : Instant} {start s s' : Retry.State α}
  {action : Retry.Action α} {actions : List (Retry.Action α)} {events shown : List (Retry.Event α)}
  {h : List (Leg α)}

theorem stride_step (hs : step s action = some (s', events)) : Stride s action s' events := by
  cases action with
  | cancel =>
    cases hs
    exact .cancelled
  | wait time =>
    simp only [step] at hs
    split at hs
    next hle =>
      cases hs
      exact .waited time hle
    next => cases hs
  | halt =>
    simp only [step] at hs
    split at hs
    next htoken =>
      cases hs
      exact .halted htoken.1 htoken.2
    next => cases hs
  | attempt =>
    simp only [step] at hs
    split at hs
    next hphase htoken =>
      cases hs
      exact .begun hphase htoken
    next => cases hs
  | complete cancels result draw =>
    simp only [step] at hs
    split at hs
    next value hphase htoken =>
      cases hs
      exact .succeeded cancels value draw hphase htoken
    next error hphase htoken =>
      rcases hn : s.backoff.next s.now draw with ⟨backoff, _ | _ | delay⟩
      · simp only [fail, hn] at hs
        cases hs
        exact .broke cancels error draw backoff _ hphase htoken hn
      · simp only [fail, hn, conclude] at hs
        cases hs
        exact .exhausted cancels error draw backoff hphase htoken hn
      · simp only [fail, hn] at hs
        cases hs
        exact .failed cancels error draw backoff delay hphase htoken hn
    next => cases hs
  | resume =>
    simp only [step] at hs
    split at hs
    next deadline hphase htoken =>
      split at hs
      next hdue =>
        cases hs
        exact .resumed deadline hphase htoken hdue
      next => cases hs
    next => cases hs

end Legs

/-! ### Where a series stands -/

/-- All attempts that ended have failed, and this many more have begun. -/
def Failing (policy : BackoffPolicy) (h : List (Leg α)) (events : List (Retry.Event α))
    (b : Backoff) (more : Nat) : Prop :=
  ∃ errors : List LinkError, outcomes h = errors.map .error ∧
    intervalAfter policy errors.length = .ok b.interval ∧
    (beginnings events).length = errors.length + more

/-- After its last attempt failed, the series would have taken too long with the next delay. -/
def GaveUp (policy : BackoffPolicy) (now : Instant) (h : List (Leg α)) (elapsed : Duration)
    (error : LinkError) : Prop :=
  policy.maxElapsedTime ≠ .zero ∧
    ∃ errors : List LinkError, outcomes h = errors.map .error ++ [.error error] ∧
      ∃ w ∈ h, ∃ cancels draw, w.action = .complete cancels (.error error) draw ∧
        w.next.phase = .finished (.error (.retriesExhausted elapsed error)) ∧
        elapsed = .between now w.state.now ∧
        ∃ interval delay, intervalAfter policy errors.length = .ok interval ∧
          randomize policy interval draw = .ok delay ∧
          policy.maxElapsedTime.nanos < elapsed.nanos + delay.nanos

/-- What the phase of a series says about the attempts so far. -/
def Accounts (policy : BackoffPolicy) (now : Instant) (h : List (Leg α))
    (events : List (Retry.Event α)) (s : Retry.State α) : Prop :=
  match s.phase with
  | .ready | .pausing _ => Failing policy h events s.backoff 0
  | .attempting => Failing policy h events s.backoff 1
  | .finished (.ok value) =>
    (∃ errors : List LinkError, outcomes h = errors.map .error ++ [.ok value]) ∧
      (beginnings events).length = (outcomes h).length
  | .finished (.error (.retriesExhausted elapsed error)) =>
    GaveUp policy now h elapsed error ∧ (beginnings events).length = (outcomes h).length
  | .finished (.error .cancelled) =>
    (∃ errors : List LinkError, outcomes h = errors.map .error) ∧ s.cancelled = true
  | .finished (.error _) => False
  | .broken _ => ∃ errors : List LinkError, outcomes h = errors.map .error

/-- What holds of a series all along. -/
structure Series (policy : BackoffPolicy) (now : Instant) (h : List (Leg α))
    (events : List (Retry.Event α)) (s : Retry.State α) : Prop where
  same : s.backoff.policy = policy
  since : s.backoff.start = now
  accounts : Accounts policy now h events s

section Standing

variable {policy : BackoffPolicy} {now : Instant} {s s' : Retry.State α} {w : Leg α}
  {action : Retry.Action α} {events shown : List (Retry.Event α)} {h : List (Leg α)}
  {b b' : Backoff} {more : Nat} {elapsed : Duration} {error : LinkError}

lemma outcomes_concat (h : List (Leg α)) (w : Leg α) :
    outcomes (h ++ [w]) = outcomes h ++ (outcome? w.action).toList := by
  rw [outcomes, List.filterMap_append, ← outcomes, List.filterMap_cons, List.filterMap_nil]
  cases outcome? w.action <;> rfl

lemma outcomes_quiet (hw : outcome? w.action = none) : outcomes (h ++ [w]) = outcomes h := by
  rw [outcomes_concat, hw, Option.toList_none, List.append_nil]

lemma outcomes_completed {result : LinkResult α} (hw : outcome? w.action = some result) :
    outcomes (h ++ [w]) = outcomes h ++ [result] := by
  rw [outcomes_concat, hw, Option.toList_some]

lemma outcomes_failed (errors : List LinkError) (hall : outcomes h = errors.map .error)
    (hw : outcome? w.action = some (.error error)) :
    outcomes (h ++ [w]) = (errors ++ [error]).map .error := by
  rw [outcomes_completed hw, hall, List.map_append, List.map_singleton]

lemma beginnings_append (events shown : List (Retry.Event α)) :
    beginnings (events ++ shown) = beginnings events ++ beginnings shown :=
  List.filterMap_append

lemma failing_quiet (hw : outcome? w.action = none)
    (hf : Failing policy h events b more) :
    Failing policy (h ++ [w]) (events ++ shown) b (more + (beginnings shown).length) := by
  obtain ⟨errors, hall, hinterval, hcount⟩ := hf
  refine ⟨errors, (outcomes_quiet hw).trans hall, hinterval, ?_⟩
  rw [beginnings_append, List.length_append]
  omega

lemma gaveUp_quiet (hw : outcome? w.action = none) (hg : GaveUp policy now h elapsed error) :
    GaveUp policy now (h ++ [w]) elapsed error := by
  obtain ⟨hlimited, errors, hall, w', hw', hlast⟩ := hg
  exact ⟨hlimited, errors, (outcomes_quiet hw).trans hall, w',
    List.mem_append_left _ hw', hlast⟩

lemma accounts_quiet (hw : outcome? w.action = none) (hshown : beginnings shown = [])
    (hphase : s'.phase = s.phase) (hbackoff : s'.backoff = s.backoff)
    (htoken : s.cancelled = true → s'.cancelled = true)
    (ha : Accounts policy now h events s) :
    Accounts policy now (h ++ [w]) (events ++ shown) s' := by
  have hcount : (beginnings (events ++ shown)).length = (beginnings events).length := by
    rw [beginnings_append, hshown, List.append_nil]
  have hfailing : ∀ more, Failing policy h events s.backoff more →
      Failing policy (h ++ [w]) (events ++ shown) s'.backoff more := by
    intro more hf
    have hstill : Failing policy (h ++ [w]) (events ++ shown) s.backoff
        (more + (beginnings shown).length) := failing_quiet hw hf
    rwa [hshown, List.length_nil, Nat.add_zero, ← hbackoff] at hstill
  unfold Accounts at ha ⊢
  rw [hphase, outcomes_quiet hw, hcount]
  split at ha
  · exact hfailing 0 ha
  · exact hfailing 0 ha
  · exact hfailing 1 ha
  · exact ha
  · exact ⟨gaveUp_quiet hw ha.1, ha.2⟩
  · exact ⟨ha.1, htoken ha.2⟩
  · exact ha
  · exact ha

lemma failing_failed {grown : Duration} (hw : outcome? w.action = some (.error error))
    (hgrown : grow policy b.interval = .ok grown) (hshown : beginnings shown = [])
    (hf : Failing policy h events b 1) :
    Failing policy (h ++ [w]) (events ++ shown) { b with interval := grown } 0 := by
  obtain ⟨errors, hall, hinterval, hcount⟩ := hf
  refine ⟨errors ++ [error], outcomes_failed errors hall hw, ?_, ?_⟩
  · rw [List.length_append, List.length_singleton, intervalAfter, hinterval]
    exact hgrown
  · rw [beginnings_append, hshown, List.append_nil, hcount, List.length_append]
    rfl

lemma accounts_ready (hphase : s.phase = .ready) :
    Accounts policy now h events s ↔ Failing policy h events s.backoff 0 := by
  rw [Accounts, hphase]

lemma accounts_attempting (hphase : s.phase = .attempting) :
    Accounts policy now h events s ↔ Failing policy h events s.backoff 1 := by
  rw [Accounts, hphase]

lemma accounts_pausing {deadline : Instant} (hphase : s.phase = .pausing deadline) :
    Accounts policy now h events s ↔ Failing policy h events s.backoff 0 := by
  rw [Accounts, hphase]

lemma accounts_cases (ha : Accounts policy now h events s) :
    (∃ errors : List LinkError, outcomes h = errors.map .error) ∨
      ∃ value, s.phase = .finished (.ok value) ∧
        ∃ errors : List LinkError, outcomes h = errors.map .error ++ [.ok value] := by
  have hfailing : ∀ more, Failing policy h events s.backoff more →
      ∃ errors : List LinkError, outcomes h = errors.map .error :=
    fun _ ⟨errors, hall, _⟩ => ⟨errors, hall⟩
  unfold Accounts at ha
  split at ha
  next => exact .inl (hfailing 0 ha)
  next => exact .inl (hfailing 0 ha)
  next => exact .inl (hfailing 1 ha)
  next value hphase => exact .inr ⟨value, hphase, ha.1⟩
  next elapsed error hphase =>
    obtain ⟨⟨-, errors, hall, -⟩, -⟩ := ha
    refine .inl ⟨errors ++ [error], ?_⟩
    rw [hall, List.map_append, List.map_singleton]
  next => exact .inl ha.1
  next => exact ha.elim
  next => exact .inl ha

lemma all_failed (hunfinished : ¬ s.phase.isOver) (ha : Accounts policy now h events s) :
    ∃ errors : List LinkError, outcomes h = errors.map .error := by
  refine (accounts_cases ha).resolve_right ?_
  rintro ⟨value, hphase, -⟩
  rw [hphase] at hunfinished
  exact hunfinished rfl

lemma series_begin (policy : BackoffPolicy) (now : Instant) (cancelled : Bool) :
    Series policy now [] [] (begin (α := α) policy now cancelled).1 :=
  ⟨rfl, rfl, (accounts_ready rfl).mpr ⟨[], rfl, rfl, rfl⟩⟩

lemma series_step (hseries : Series policy now h events s)
    (hs : step s action = some (s', shown)) :
    Series policy now (h ++ [⟨s, action, s', shown⟩]) (events ++ shown) s' := by
  have haccounts := hseries.accounts
  cases stride_step hs with
  | cancelled =>
    exact ⟨hseries.same, hseries.since,
      accounts_quiet (s := s) rfl rfl rfl rfl (fun _ => rfl) haccounts⟩
  | waited time =>
    exact ⟨hseries.same, hseries.since, accounts_quiet (s := s) rfl rfl rfl rfl id haccounts⟩
  | halted htoken hunfinished =>
    obtain ⟨errors, hall⟩ := all_failed hunfinished haccounts
    refine ⟨hseries.same, hseries.since, ⟨errors, ?_⟩, htoken⟩
    rw [outcomes_quiet rfl, hall]
  | begun hphase =>
    rw [accounts_ready hphase] at haccounts
    exact ⟨hseries.same, hseries.since, failing_quiet rfl haccounts⟩
  | succeeded cancels value draw hphase =>
    rw [accounts_attempting hphase] at haccounts
    obtain ⟨errors, hall, -, hcount⟩ := haccounts
    refine ⟨hseries.same, hseries.since, ⟨errors, ?_⟩, ?_⟩
    · rw [outcomes_completed rfl, hall]
    · rw [outcomes_completed rfl, hall, beginnings_append, List.length_append, hcount,
        List.length_append, List.length_map]
      rfl
  | failed cancels error draw backoff delay hphase htoken hnext =>
    rw [accounts_attempting hphase] at haccounts
    cases asked_of_next hnext with
    | granted _ grown _ growth =>
      rw [hseries.same] at growth
      exact ⟨hseries.same, hseries.since, failing_failed rfl growth rfl haccounts⟩
  | exhausted cancels error draw backoff hphase htoken hnext =>
    rw [accounts_attempting hphase] at haccounts
    obtain ⟨errors, hall, hinterval, hcount⟩ := haccounts
    cases asked_of_next hnext with
    | refused delay grown spread growth hlimited hexceeds =>
      rw [hseries.same] at hlimited hexceeds spread
      have helapsed : s.backoff.elapsed s.now = .between now s.now := by
        rw [← hseries.since]
        rfl
      refine ⟨hseries.same, hseries.since, ⟨hlimited, errors, ?_, _,
        List.mem_append_right _ (List.mem_singleton_self _), cancels, draw, rfl, rfl, helapsed,
        s.backoff.interval, delay, hinterval, spread, hexceeds⟩, ?_⟩
      · rw [outcomes_failed errors hall rfl, List.map_append]
        rfl
      · rw [outcomes_failed errors hall rfl, beginnings_append, List.length_append, hcount,
          List.length_map, List.length_append]
        rfl
  | broke cancels error draw backoff fault hphase htoken hnext =>
    rw [accounts_attempting hphase] at haccounts
    obtain ⟨errors, hall, -⟩ := haccounts
    obtain ⟨hpolicy, hstart⟩ := asked_series (asked_of_next hnext)
    exact ⟨hpolicy.trans hseries.same, hstart.trans hseries.since, errors ++ [error],
      outcomes_failed errors hall rfl⟩
  | resumed deadline hphase =>
    rw [accounts_pausing hphase] at haccounts
    exact ⟨hseries.same, hseries.since, failing_quiet rfl haccounts⟩

/-! ### Time and cancellation -/

/-- No attempt began too late, and the next one will not, if the clock lets it. -/
structure InTime (policy : BackoffPolicy) (now : Instant) (events : List (Retry.Event α))
    (s : Retry.State α) : Prop where
  past : ∀ time ∈ beginnings events, Duration.between now time ≤ policy.maxElapsedTime
  ready : s.phase = .ready → Duration.between now s.now ≤ policy.maxElapsedTime
  pausing : ∀ deadline, s.phase = .pausing deadline →
    s.now ≤ deadline ∧ Duration.between now deadline ≤ policy.maxElapsedTime

lemma inTime_begin (policy : BackoffPolicy) (now : Instant) (cancelled : Bool) :
    InTime policy now [] (begin (α := α) policy now cancelled).1 := by
  refine ⟨nofun, fun _ => ?_, nofun⟩
  change (Duration.between now now).nanos ≤ policy.maxElapsedTime.nanos
  rw [between_nanos]
  omega

lemma deadline_inTime {draw : Draw} {delay : Duration}
    (hlimited : b.policy.maxElapsedTime ≠ .zero)
    (hnext : b.next now draw = (b', .ok (some delay))) :
    Duration.between b.start (now + delay.nanos) ≤ b.policy.maxElapsedTime := by
  cases asked_of_next hnext with
  | granted _ _ _ _ hfits =>
    have hsum : (Duration.between b.start now).nanos + delay.nanos ≤
        b.policy.maxElapsedTime.nanos := hfits.resolve_left hlimited
    exact (between_add_le b.start now delay.nanos).trans hsum

lemma inTime_step (hlimited : policy.maxElapsedTime ≠ .zero)
    (hseries : Series policy now h events s) (hintime : InTime policy now events s)
    (hclock : OnTime ⟨s, action, s', shown⟩)
    (hs : step s action = some (s', shown)) : InTime policy now (events ++ shown) s' := by
  have hpast : ∀ time ∈ beginnings (events ++ shown), time ∈ beginnings shown ∨
      Duration.between now time ≤ policy.maxElapsedTime := by
    intro time ht
    rw [beginnings_append, List.mem_append] at ht
    exact ht.symm.imp_right (hintime.past time)
  cases stride_step hs with
  | cancelled => exact ⟨fun t ht => (hpast t ht).resolve_left nofun, hintime.ready, hintime.pausing⟩
  | waited time hlater =>
    refine ⟨fun t ht => (hpast t ht).resolve_left nofun, fun hphase => ?_,
      fun deadline hphase => ?_⟩
    · have hready : s.phase = .ready := hphase
      simp only [OnTime, hready] at hclock
      exact (between_mono now hclock).trans (hintime.ready hphase)
    · have hpausing : s.phase = .pausing deadline := hphase
      simp only [OnTime, hpausing] at hclock
      exact ⟨hclock, (hintime.pausing deadline hphase).2⟩
  | begun hphase =>
    refine ⟨fun t ht => (hpast t ht).elim (fun hnew => ?_) id, nofun, nofun⟩
    obtain rfl : t = s.now := List.mem_singleton.mp hnew
    exact hintime.ready hphase
  | failed cancels error draw backoff delay hphase htoken hnext =>
    refine ⟨fun t ht => (hpast t ht).resolve_left nofun, nofun, fun deadline hdeadline => ?_⟩
    cases hdeadline
    rw [← hseries.same] at hlimited ⊢
    rw [← hseries.since]
    exact ⟨Nat.le_add_right _ _, deadline_inTime hlimited hnext⟩
  | resumed deadline hphase =>
    obtain ⟨hnow, hdeadline⟩ := hintime.pausing deadline hphase
    refine ⟨fun t ht => (hpast t ht).resolve_left nofun, fun _ => ?_, nofun⟩
    exact (between_mono now hnow).trans hdeadline
  | halted | succeeded | exhausted | broke =>
    exact ⟨fun t ht => (hpast t ht).resolve_left nofun, nofun, nofun⟩

lemma over_shows (hover : s.phase.isOver) (hs : step s action = some (s', shown)) :
    s'.phase = s.phase ∧ shown = [] := by
  cases stride_step hs with
  | cancelled => exact ⟨rfl, rfl⟩
  | waited => exact ⟨rfl, rfl⟩
  | halted _ hunfinished => exact absurd hover hunfinished
  | begun hphase | succeeded _ _ _ hphase | failed _ _ _ _ _ hphase | exhausted _ _ _ _ hphase
  | broke _ _ _ _ _ hphase | resumed _ hphase =>
    rw [hphase] at hover
    cases hover

theorem over_series {actions : List (Retry.Action α)} (hover : s.phase.isOver)
    (hr : Retry.run s actions = some (s', events)) : s'.phase = s.phase ∧ events = [] := by
  refine passages_induction (P := fun _ seen s' => s'.phase = s.phase ∧ seen = []) ⟨rfl, rfl⟩ ?_ hr
  rintro h seen s₁ action s₂ shown ⟨hphase, rfl⟩ hs
  rw [← hphase] at hover ⊢
  exact over_shows hover hs

lemma cancelled_shows (htoken : s.cancelled = true) (hs : step s action = some (s', shown)) :
    s'.cancelled = true ∧ beginnings shown = [] ∧
      (s'.phase = s.phase ∨ s'.phase = .finished (.error .cancelled)) := by
  cases stride_step hs with
  | cancelled => exact ⟨rfl, rfl, .inl rfl⟩
  | waited => exact ⟨htoken, rfl, .inl rfl⟩
  | halted => exact ⟨htoken, rfl, .inr rfl⟩
  | begun _ hfree | succeeded _ _ _ _ hfree | failed _ _ _ _ _ _ hfree | exhausted _ _ _ _ _ hfree
  | broke _ _ _ _ _ _ hfree | resumed _ _ hfree =>
    rw [htoken] at hfree
    cases hfree

theorem cancelled_series {actions : List (Retry.Action α)} (htoken : s.cancelled = true)
    (hr : Retry.run s actions = some (s', events)) :
    s'.cancelled = true ∧ beginnings events = [] ∧
      (s'.phase = s.phase ∨ s'.phase = .finished (.error .cancelled)) := by
  refine passages_induction (P := fun _ seen s' => s'.cancelled = true ∧ beginnings seen = [] ∧
    (s'.phase = s.phase ∨ s'.phase = .finished (.error .cancelled)))
    ⟨htoken, rfl, .inl rfl⟩ ?_ hr
  rintro h seen s₁ action s₂ shown ⟨htoken, hnone, hphase⟩ hs
  obtain ⟨hstill, hshown, hnext⟩ := cancelled_shows htoken hs
  refine ⟨hstill, ?_, ?_⟩
  · rw [beginnings_append, hnone, hshown, List.append_nil]
  · rcases hnext with hsame | hend
    · rwa [hsame]
    · exact .inr hend

end Standing

/-- How a series of attempts ends. It has succeeded exactly if the last outcome is its first
success. It has given up only if the policy limits its time, and the time since its start and the
next delay together exceed the limit; the result carries the error of the last attempt. There is no
other result, save that of a cancelled token. After any of them nothing more happens. If every pause
is just as long as its delay, no attempt begins after the time of the policy. A token that is
cancelled before the end lets no further attempt begin, and has the series end as cancelled; only
the outcome of an attempt during whose last step it is cancelled can still be the result. -/
theorem series_of_attempts (policy : BackoffPolicy) (now : Instant) (cancelled : Bool)
    (actions : List (Retry.Action α)) (s : Retry.State α) (events : List (Retry.Event α))
    (hrun : Retry.run (begin policy now cancelled).1 actions = some (s, events)) :
    let h := legsOf (begin policy now cancelled).1 actions
    (∀ value, s.phase = .finished (.ok value) ↔
      ∃ errors : List LinkError, outcomes h = errors.map .error ++ [.ok value]) ∧
    (∀ elapsed error, s.phase = .finished (.error (.retriesExhausted elapsed error)) →
      policy.maxElapsedTime ≠ .zero ∧
        ∃ errors : List LinkError, outcomes h = errors.map .error ++ [.error error] ∧
          ∃ w ∈ h, ∃ cancels draw, w.action = .complete cancels (.error error) draw ∧
            w.next.phase = s.phase ∧ elapsed = .between now w.state.now ∧
            ∃ interval delay, intervalAfter policy errors.length = .ok interval ∧
              randomize policy interval draw = .ok delay ∧
              policy.maxElapsedTime.nanos < elapsed.nanos + delay.nanos) ∧
    (∀ result, s.phase = .finished result →
      ((∃ value, result = .ok value) ∨
        ∃ elapsed error, result = .error (.retriesExhausted elapsed error)) ∧
        (beginnings events).length = (outcomes h).length ∨
      result = .error .cancelled ∧ s.cancelled = true) ∧
    (s.phase.isOver → ∀ more s' later, Retry.run s more = some (s', later) →
      s'.phase = s.phase ∧ later = []) ∧
    (policy.maxElapsedTime ≠ .zero → (∀ w ∈ h, OnTime w) →
      ∀ time ∈ beginnings events, Duration.between now time ≤ policy.maxElapsedTime) ∧
    (s.cancelled = true → ¬ s.phase.isOver →
      (∃ s' shown, step s .halt = some (s', shown) ∧ s'.phase = .finished (.error .cancelled)) ∧
      ∀ more s' later, Retry.run s more = some (s', later) → beginnings later = [] ∧
        (s'.phase = s.phase ∨ s'.phase = .finished (.error .cancelled))) := by
  intro h
  have hboth : Series policy now h events s ∧
      (policy.maxElapsedTime ≠ .zero → (∀ w ∈ h, OnTime w) → InTime policy now events s) := by
    refine passages_induction (P := fun h events s => Series policy now h events s ∧
      (policy.maxElapsedTime ≠ .zero → (∀ w ∈ h, OnTime w) → InTime policy now events s))
      ⟨series_begin policy now cancelled, fun _ _ => inTime_begin policy now cancelled⟩ ?_ hrun
    rintro h seen s action s' shown ⟨hseries, hintime⟩ hs
    refine ⟨series_step hseries hs, fun hlimited hclock => ?_⟩
    have hbefore := hintime hlimited fun w hw => hclock w (List.mem_append_left _ hw)
    exact inTime_step hlimited hseries hbefore
      (hclock _ (List.mem_append_right _ (List.mem_singleton_self _))) hs
  obtain ⟨hseries, hintime⟩ := hboth
  have haccounts := hseries.accounts
  refine ⟨fun value => ⟨fun hphase => ?_, ?_⟩, fun elapsed error hphase => ?_,
    fun result hphase => ?_, fun hover _ _ _ hmore => over_series hover hmore,
    fun hlimited hclock => (hintime hlimited hclock).past,
    fun htoken hunfinished => ⟨?_, fun _ _ _ hmore => ?_⟩⟩
  · rw [Accounts, hphase] at haccounts
    exact haccounts.1
  · rintro ⟨errors, hvalue⟩
    rcases accounts_cases haccounts with ⟨errors', hall⟩ | ⟨value', hphase, errors', hall⟩
    · have hmem : .ok value ∈ outcomes h := by simp [hvalue]
      simp [hall] at hmem
    · rw [hvalue] at hall
      obtain ⟨-, hsame⟩ := List.append_inj' hall rfl
      rw [hphase, (List.cons.inj hsame).1]
  · rw [Accounts, hphase] at haccounts
    rw [hphase]
    exact haccounts.1
  · rw [Accounts, hphase] at haccounts
    cases result with
    | ok value => exact .inl ⟨.inl ⟨value, rfl⟩, haccounts.2⟩
    | error failure =>
      cases failure with
      | retriesExhausted elapsed error => exact .inl ⟨.inr ⟨elapsed, error, rfl⟩, haccounts.2⟩
      | cancelled => exact .inr ⟨rfl, haccounts.2⟩
      | _ => exact haccounts.elim
  · exact ⟨_, _, if_pos ⟨htoken, hunfinished⟩, rfl⟩
  · exact (cancelled_series htoken hmore).2

/-- An attempt that fails, and a pause of this many milliseconds. -/
def failThenPause (start pause : Nat) : List (Retry.Action Nat) :=
  [.attempt, .complete false (.error .timeout) 0, .wait ((start + pause) * nanosPerMilli), .resume]

/-- Two pauses, and a third attempt that fails. -/
def threeFailures : List (Retry.Action Nat) :=
  failThenPause 0 10 ++ failThenPause 10 20 ++ [.attempt, .complete false (.error .timeout) 0]

/-- The token is cancelled when the first pause ends. -/
def cancelledPause : List (Retry.Action Nat) :=
  [.attempt, .complete false (.error .timeout) 0, .wait (10 * nanosPerMilli), .cancel]

/-- Thirty milliseconds and the next delay are more than the time of the policy; and a pause that is
over does not go before the token. -/
theorem three_attempts_exhaust :
    (∃ s events, Retry.run (begin brief 0 false).1 threeFailures = some (s, events) ∧
      s.phase = .finished (.error (.retriesExhausted (.ofMillis 30) .timeout)) ∧
      (∃ errors : List LinkError, outcomes (legsOf (begin brief 0 false).1 threeFailures) =
        errors.map .error ++ [.error .timeout]) ∧
      beginnings events = [0, 10 * nanosPerMilli, 30 * nanosPerMilli] ∧
      ∀ time ∈ beginnings events, Duration.between 0 time ≤ brief.maxElapsedTime) ∧
    ∃ s events, Retry.run (begin brief 0 false).1 cancelledPause = some (s, events) ∧
      s.cancelled = true ∧ s.phase = .pausing s.now ∧
      ∃ s' shown, step s .halt = some (s', shown) ∧ s'.phase = .finished (.error .cancelled) := by
  constructor
  · have hresult : (Retry.run (begin brief 0 false).1 threeFailures).map
        (fun r => (r.1.phase, beginnings r.2)) =
        some (.finished (.error (.retriesExhausted (.ofMillis 30) .timeout)),
          [0, 10 * nanosPerMilli, 30 * nanosPerMilli]) := by decide +kernel
    obtain ⟨⟨s, events⟩, hrun, he⟩ := Option.map_eq_some_iff.mp hresult
    obtain ⟨hphase, hbegun⟩ := Prod.mk.inj he
    obtain ⟨-, hgaveUp, -, -, hintime, -⟩ := series_of_attempts brief 0 false _ s events hrun
    obtain ⟨hlimited, errors, hall, -⟩ := hgaveUp _ _ hphase
    have hclock : ∀ w ∈ legsOf (begin brief 0 false).1 threeFailures, OnTime w := by decide +kernel
    exact ⟨s, events, hrun, hphase, ⟨errors, hall⟩, hbegun, hintime hlimited hclock⟩
  · have hresult : (Retry.run (begin brief 0 false).1 cancelledPause).map
        (fun r => (r.1.phase, r.1.now, r.1.cancelled)) =
        some (.pausing (10 * nanosPerMilli), 10 * nanosPerMilli, true) := by decide +kernel
    obtain ⟨⟨s, events⟩, hrun, he⟩ := Option.map_eq_some_iff.mp hresult
    obtain ⟨hphase, hnow, htoken⟩ : s.phase = .pausing (10 * nanosPerMilli) ∧
      s.now = 10 * nanosPerMilli ∧ s.cancelled = true := by simpa using he
    have hunfinished : ¬ s.phase.isOver := by
      rw [hphase]
      nofun
    obtain ⟨-, -, -, -, -, hcancelled⟩ := series_of_attempts brief 0 false _ s events hrun
    exact ⟨s, events, hrun, htoken, by rw [hphase, hnow], (hcancelled htoken hunfinished).1⟩

/-- An attempt cancels the token and succeeds in the same step: its value is the result. -/
theorem success_goes_before_token :
    ∃ s events, Retry.run (begin (α := Nat) doubling 0 false).1
        [.attempt, .complete true (.ok 7) 0] = some (s, events) ∧
      s.cancelled = true ∧ s.phase = .finished (.ok 7) ∧
      s.phase ≠ .finished (.error .cancelled) := by
  have hresult : (Retry.run (begin (α := Nat) doubling 0 false).1
      [.attempt, .complete true (.ok 7) 0]).map (fun r => (r.1.cancelled, r.1.phase)) =
      some (true, .finished (.ok 7)) := by decide +kernel
  obtain ⟨⟨s, events⟩, hrun, he⟩ := Option.map_eq_some_iff.mp hresult
  obtain ⟨htoken, hphase⟩ := Prod.mk.inj he
  refine ⟨s, events, hrun, htoken, hphase, ?_⟩
  rw [show s.phase = .finished (.ok 7) from hphase]
  nofun

end InverterLink.Proofs
