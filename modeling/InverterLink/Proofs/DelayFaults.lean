import InverterLink.Proofs.ConnectionVisits
import InverterLink.Proofs.Delays
import InverterLink.Proofs.ReceiverMoves
import InverterLink.Proofs.Rounding
import Mathlib

/-!
# Faults of a backoff

The ceiling is put on the next interval after it has been computed, so it does not keep a large
factor from breaking the arithmetic. Each fault has its cause in the policy or in the time that a
series takes, and with none of these causes a backoff never breaks down, and neither does a receiver
that redials with it.
-/

namespace InverterLink.Proofs
open Backoff Connection

/-- The longest interval there can be: the initial one or the ceiling. -/
def longestInterval (policy : BackoffPolicy) : Duration :=
  if policy.initialInterval ≤ policy.maxInterval then policy.maxInterval
  else policy.initialInterval

/-- Why a backoff breaks down within a span of time. -/
inductive Cause (policy : BackoffPolicy) (span : Nat) : Fault → Prop where
  | negative (factor : policy.multiplier.toRat < 0) : Cause policy span .negativeSeconds
  | steep (factor : 0 ≤ policy.multiplier.toRat)
    (growth : ∀ d, (longestInterval policy).scale policy.multiplier ≠ .ok d) :
    Cause policy span .tooManySeconds
  | late (limited : policy.maxElapsedTime ≠ .zero)
    (long : durationLimit ≤ span + (longestInterval policy).nanos) :
    Cause policy span .durationOverflow

section Faults

variable {policy : BackoffPolicy} {d : Duration} {x : Binary64} {fault : Fault}

lemma seconds_nonneg (d : Duration) : 0 ≤ d.seconds :=
  round_nonneg (add_nonneg (round_nonneg (by positivity)) (round_nonneg (by positivity)))

lemma ofSeconds_error {q : ℚ} (h : Duration.ofSeconds q = .error fault) :
    (fault = .negativeSeconds ∧ q < 0) ∨ (fault = .tooManySeconds ∧ 0 < q) := by
  unfold Duration.ofSeconds at h
  split at h
  next hneg =>
    cases h
    exact .inl ⟨rfl, hneg⟩
  next hnonneg =>
    split at h
    next => cases h
    next hnone =>
      cases h
      refine .inr ⟨rfl, lt_of_le_of_ne (not_lt.mp hnonneg) ?_⟩
      rintro rfl
      exact absurd hnone (by decide +kernel)

lemma scale_error (h : d.scale x = .error fault) :
    (fault = .negativeSeconds ∧ x.toRat < 0) ∨ (fault = .tooManySeconds ∧ 0 ≤ x.toRat) := by
  have hseconds := seconds_nonneg d
  rcases ofSeconds_error h with ⟨rfl, hneg⟩ | ⟨rfl, hpos⟩
  · refine .inl ⟨rfl, ?_⟩
    by_contra hfactor
    have hproduct : 0 ≤ d.seconds * x.toRat := mul_nonneg hseconds (not_lt.mp hfactor)
    exact absurd hneg (not_lt.mpr (round_nonneg hproduct))
  · refine .inr ⟨rfl, ?_⟩
    by_contra hfactor
    have hproduct : d.seconds * x.toRat ≤ 0 :=
      mul_nonpos_of_nonneg_of_nonpos hseconds (not_le.mp hfactor).le
    have hround := round_mono hproduct
    rw [round_zero] at hround
    exact absurd hpos (not_lt.mpr hround)

lemma le_longest_initial (policy : BackoffPolicy) :
    policy.initialInterval.nanos ≤ (longestInterval policy).nanos := by
  unfold longestInterval
  split
  next hle => exact hle
  next => exact le_rfl

lemma le_longest_max (policy : BackoffPolicy) :
    policy.maxInterval.nanos ≤ (longestInterval policy).nanos := by
  unfold longestInterval
  split
  next => exact le_rfl
  next hlt => exact (Nat.lt_of_not_le hlt).le

lemma grow_error {interval : Duration} {span : Nat}
    (hle : interval.nanos ≤ (longestInterval policy).nanos)
    (h : grow policy interval = .error fault) : Cause policy span fault := by
  unfold grow at h
  cases hscale : interval.scale policy.multiplier with
  | ok scaled =>
    rw [hscale] at h
    cases h
  | error fault' =>
    rw [hscale] at h
    cases h
    rcases scale_error hscale with ⟨rfl, hneg⟩ | ⟨rfl, hfactor⟩
    · exact .negative hneg
    · refine .steep hfactor fun e he => ?_
      obtain ⟨c, hc, -⟩ := scale_mono hle hfactor le_rfl he
      rw [hscale] at hc
      cases hc

end Faults

/-- A backoff of the policy, begun no earlier than `first`, whose interval is in its bounds. -/
structure InBounds (policy : BackoffPolicy) (first : Instant) (b : Backoff) : Prop where
  same : b.policy = policy
  start : first ≤ b.start
  interval : b.interval.nanos ≤ (longestInterval policy).nanos

section Asking

variable {policy : BackoffPolicy} {b b' : Backoff} {first now : Instant} {draw : Draw}
  {answer : Except Fault (Option Duration)} {fault : Fault}

lemma inBounds_begin (hle : first ≤ now) : InBounds policy first (.begin policy now) :=
  ⟨rfl, hle, le_longest_initial policy⟩

lemma inBounds_next (hplain : Unspread policy) (hb : InBounds policy first b)
    (h : b.next now draw = (b', answer)) : InBounds policy first b' := by
  have hasked := asked_of_next h
  obtain ⟨hsame, hstart⟩ := asked_series hasked
  refine ⟨hsame.trans hb.same, hstart ▸ hb.start, ?_⟩
  rw [← hb.same] at hplain
  rcases (asked_unspread hplain hasked).2 with ⟨grown, hgrown, rfl⟩ | ⟨_, -, rfl, -⟩
  · rw [hb.same] at hgrown
    exact (grow_le hgrown).trans (le_longest_max policy)
  · exact hb.interval

lemma cause_next (hplain : Unspread policy) (hb : InBounds policy first b)
    (h : b.next now draw = (b', .error fault)) : Cause policy (now - first) fault := by
  have hsame := hb.same
  cases asked_of_next h with
  | broken _ cause =>
    rw [hsame, randomize_unspread hplain] at cause
    exact grow_error hb.interval (cause.resolve_left nofun)
  | overrun delay grown spread growth hlimited hlong =>
    rw [hsame] at hlimited
    rw [hsame, randomize_unspread hplain] at spread
    cases spread
    refine .late hlimited (hlong.trans (Nat.add_le_add ?_ hb.interval))
    rw [Backoff.elapsed, between_nanos]
    exact (Nat.min_le_left _ _).trans (Nat.sub_le_sub_left hb.start now)

lemma cause_later {span later : Nat} (hle : span ≤ later) (h : Cause policy span fault) :
    Cause policy later fault := by
  cases h with
  | negative factor => exact .negative factor
  | steep factor growth => exact .steep factor growth
  | late limited long => exact .late limited (long.trans (Nat.add_le_add_right hle _))

/-- With a factor that is neither negative nor too large, and little time, there is no cause. -/
lemma no_cause {span : Nat} {d : Duration} (hfactor : 0 ≤ policy.multiplier.toRat)
    (hgrowth : (longestInterval policy).scale policy.multiplier = .ok d)
    (hshort : policy.maxElapsedTime = .zero ∨
      span + (longestInterval policy).nanos < durationLimit) (fault : Fault) :
    ¬ Cause policy span fault := by
  rintro (hnegative | ⟨-, hsteep⟩ | ⟨hlimited, hlong⟩)
  · exact absurd hnegative (not_lt.mpr hfactor)
  · exact hsteep d hgrowth
  · exact absurd (hshort.resolve_left hlimited) (Nat.not_lt.mpr hlong)

end Asking

/-! ### Histories and connections -/

/-- A backoff in the course of time, each of whose faults has its cause. -/
structure Accountable (policy : BackoffPolicy) (first : Instant) (seen : List Notice)
    (c : Clocked) : Prop where
  bounds : InBounds policy first c.backoff
  later : first ≤ c.now
  causes : ∀ fault, .answered (.error fault) ∈ seen → Cause policy (c.now - first) fault

/-- A connection that redials with the policy, and whose receiver has not broken down without
cause. -/
structure Steadfast (policy : BackoffPolicy) (first : Instant) (s : State) : Prop where
  same : s.config.backoff = policy
  later : first ≤ s.now
  bounds : ∀ b, backoff? s.receiver = some b → InBounds policy first b
  causes : ∀ fault, s.receiver = .broken fault → Cause policy (s.now - first) fault

section Runs

variable {policy : BackoffPolicy} {first : Instant} {seen notices : List Notice} {c c' : Clocked}
  {use : BackoffUse} {s s' : State} {action : Action} {actions : List Action} {events : List Event}

lemma accountable_step (hplain : Unspread policy) (h : Accountable policy first seen c)
    (hs : c.step use = some (c', notices)) : Accountable policy first (seen ++ notices) c' := by
  cases use with
  | next draw =>
    rcases hn : c.backoff.next c.now draw with ⟨b', answer⟩
    simp only [Clocked.step, hn, Option.some.injEq, Prod.mk.injEq] at hs
    obtain ⟨rfl, rfl⟩ := hs
    refine ⟨inBounds_next hplain h.bounds hn, h.later, fun fault hmem => ?_⟩
    rcases List.mem_append.mp hmem with hold | hnew
    · exact h.causes fault hold
    · cases List.mem_singleton.mp hnew
      exact cause_next hplain h.bounds hn
  | reset =>
    cases hs
    refine ⟨?_, h.later, fun fault hmem => ?_⟩
    · rw [Backoff.reset, h.bounds.same]
      exact inBounds_begin h.later
    · rcases List.mem_append.mp hmem with hold | hnew
      · exact h.causes fault hold
      · cases List.mem_singleton.mp hnew
  | wait time =>
    simp only [Clocked.step] at hs
    split at hs
    next hle =>
      cases hs
      rw [List.append_nil]
      refine ⟨h.bounds, h.later.trans hle, fun fault hmem => ?_⟩
      exact cause_later (Nat.sub_le_sub_right hle first) (h.causes fault hmem)
    next => cases hs

lemma steadfast_start (settings : ConnectionBuilder) (now : Instant) (cancelled : Bool)
    (hpolicy : settings.config.backoff = policy) :
    Steadfast policy now (State.start settings now cancelled) := by
  refine ⟨hpolicy, le_rfl, fun b hb => ?_, fun fault he => ?_⟩
  · cases hb
  · cases he

lemma steadfast_move {r : ReceiverPhase} (hplain : Unspread policy)
    (h : Steadfast policy first s) (hm : ReceiverMove s action r) :
    (∀ b, backoff? r = some b → InBounds policy first b) ∧
      ∀ fault, r = .broken fault → Cause policy (s.now - first) fault := by
  have hbounds := h.bounds
  cases hm with
  | stays _ same =>
    rw [← same]
    exact ⟨h.bounds, h.causes⟩
  | begins working =>
    refine ⟨fun b hb => ?_, nofun⟩
    cases hb
    rw [h.same]
    exact inBounds_begin h.later
  | works _ working plain =>
    obtain ⟨hnone, hwhole⟩ := backoff_of_working plain
    refine ⟨fun b hb => ?_, fun fault he => absurd he (hwhole fault)⟩
    rw [hnone] at hb
    cases hb
  | dials b draw phase =>
    rw [phase] at hbounds
    exact ⟨hbounds, nofun⟩
  | fails b error phase =>
    rw [phase] at hbounds
    exact ⟨hbounds, nofun⟩
  | succeeds b phase act => exact ⟨nofun, nofun⟩
  | sleeps b b' error draw delay phase asked =>
    rw [phase] at hbounds
    refine ⟨fun b₁ hb => ?_, nofun⟩
    cases hb
    exact inBounds_next hplain (hbounds b rfl) asked
  | givesUp b b' error draw phase asked =>
    rw [phase] at hbounds
    have hsame := (inBounds_next hplain (hbounds b rfl) asked).same
    refine ⟨fun b₁ hb => ?_, nofun⟩
    cases hb
    rw [Backoff.reset, hsame]
    exact inBounds_begin h.later
  | breaks b b' error draw fault phase asked =>
    rw [phase] at hbounds
    refine ⟨nofun, fun fault' he => ?_⟩
    cases he
    exact cause_next hplain (hbounds b rfl) asked
  | wakes b deadline phase due =>
    rw [phase] at hbounds
    exact ⟨hbounds, nofun⟩
  | leaves _ _ gone => rcases gone with rfl | rfl <;> exact ⟨nofun, nofun⟩

lemma steadfast_step (hplain : Unspread policy) (h : Steadfast policy first s)
    (hs : s.step action = some (s', events)) : Steadfast policy first s' := by
  have hsame : s'.config.backoff = policy := by
    rw [State.config, (changes_step hs).settings]
    exact h.same
  rcases clock_or_move hs with ⟨hlater, hstill⟩ | ⟨hnow, hmove⟩
  · refine ⟨hsame, h.later.trans hlater, hstill ▸ h.bounds, fun fault he => ?_⟩
    rw [hstill] at he
    exact cause_later (Nat.sub_le_sub_right hlater first) (h.causes fault he)
  · obtain ⟨hbounds, hcauses⟩ := steadfast_move hplain h hmove
    exact ⟨hsame, hnow ▸ h.later, hbounds, hnow ▸ hcauses⟩

end Runs

/-- Without spread, a delay is a duration unless the factor is negative, or the longest interval
cannot grow by it, or the time of a series is limited and has grown so long that its sum with an
interval is too long. This is so for each fault in a history of a backoff, and for each receiver
that breaks down in a run of a connection. So there are no such faults and no such receivers if the
factor is not negative, the longest interval can grow by it, and the time is short or not
limited. -/
theorem faults_have_causes (policy : BackoffPolicy) (now : Instant) (hplain : Unspread policy) :
    (∀ uses c notices, (Clocked.begin policy now).1.run uses = some (c, notices) →
      ∀ fault, .answered (.error fault) ∈ notices → Cause policy (c.now - now) fault) ∧
    (∀ settings cancelled actions s events, settings.config.backoff = policy →
      (State.start settings now cancelled).run actions = some (s, events) →
      ∀ fault, s.receiver = .broken fault → Cause policy (s.now - now) fault) ∧
    (0 ≤ policy.multiplier.toRat →
      (∃ d, (longestInterval policy).scale policy.multiplier = .ok d) →
      (∀ uses c notices, (Clocked.begin policy now).1.run uses = some (c, notices) →
        policy.maxElapsedTime = .zero ∨
          c.now - now + (longestInterval policy).nanos < durationLimit →
        ∀ fault, .answered (.error fault) ∉ notices) ∧
      ∀ settings cancelled actions s events, settings.config.backoff = policy →
        (State.start settings now cancelled).run actions = some (s, events) →
        policy.maxElapsedTime = .zero ∨
          s.now - now + (longestInterval policy).nanos < durationLimit →
        ∀ fault, s.receiver ≠ .broken fault) := by
  have hhistory : ∀ uses c notices, (Clocked.begin policy now).1.run uses = some (c, notices) →
      ∀ fault, .answered (.error fault) ∈ notices → Cause policy (c.now - now) fault := by
    intro uses c notices hrun
    have haccountable : Accountable policy now ([] ++ notices) c :=
      passages_induction_from (P := fun _ seen c => Accountable policy now seen c) (h := [])
        ⟨inBounds_begin le_rfl, le_rfl, nofun⟩ (fun _ _ _ _ _ _ => accountable_step hplain) hrun
    exact haccountable.causes
  have hconnection : ∀ settings cancelled actions s events, settings.config.backoff = policy →
      (State.start settings now cancelled).run actions = some (s, events) →
      ∀ fault, s.receiver = .broken fault → Cause policy (s.now - now) fault := by
    intro settings cancelled actions s events hpolicy hrun
    have hsteadfast : Steadfast policy now s :=
      run_induction (P := Steadfast policy now) (steadfast_start settings now cancelled hpolicy)
        (fun _ _ _ _ h hs => steadfast_step hplain h hs) hrun
    exact hsteadfast.causes
  refine ⟨hhistory, hconnection, fun hfactor ⟨d, hgrowth⟩ => ⟨?_, ?_⟩⟩
  · intro uses c notices hrun hshort fault hmem
    exact no_cause hfactor hgrowth hshort fault (hhistory uses c notices hrun fault hmem)
  · intro settings cancelled actions s events hpolicy hrun hshort fault he
    exact no_cause hfactor hgrowth hshort fault
      (hconnection settings cancelled actions s events hpolicy hrun fault he)

/-- Each delay would be `10 ^ 20` times the one before, were it not for the ceiling. -/
def steep : BackoffPolicy :=
  { randomizationFactor := .zero, multiplier := ⟨false, 10 ^ 20, by decide +kernel⟩ }

/-- A connection with an error callback that redials with this policy. -/
def overseenWith (policy : BackoffPolicy) : ConnectionBuilder :=
  { overseen with config := { overseen.config with backoff := policy } }

lemma steep_unspread : Unspread steep := by decide +kernel

lemma steep_breaks :
    ((State.start (overseenWith steep) 0 false).run lostAndRefused).map
      (fun r => (r.1.cancelled, r.1.now, r.1.receiver)) =
      some (false, 0, .broken .tooManySeconds) := by decide +kernel

/-- Half a second times `10 ^ 20` is no duration, and a receiver breaks down for this cause; the
delays of `brief` have no such cause. -/
theorem steep_factor_is_a_cause :
    Unspread steep ∧
      (∃ c, (Clocked.begin steep 0).1.run [.next 0] =
          some (c, [.answered (.error .tooManySeconds)]) ∧
        Cause steep (c.now - 0) .tooManySeconds) ∧
      (∃ s events, (State.start (overseenWith steep) 0 false).run lostAndRefused =
          some (s, events) ∧ Cause steep (s.now - 0) .tooManySeconds) ∧
      ∃ c notices, (Clocked.begin brief 0).1.run (doublingUses ++ [.wait 1000]) =
          some (c, notices) ∧ ∀ fault, .answered (.error fault) ∉ notices := by
  have hanswer : ((Clocked.begin steep 0).1.run [.next 0]).map (·.2) =
      some [.answered (.error .tooManySeconds)] := by decide +kernel
  obtain ⟨⟨c, notices⟩, hrun, rfl⟩ := Option.map_eq_some_iff.mp hanswer
  obtain ⟨⟨s, events⟩, hruns, he⟩ := Option.map_eq_some_iff.mp steep_breaks
  obtain ⟨-, -, hbroken⟩ : s.cancelled = false ∧ s.now = 0 ∧
    s.receiver = .broken .tooManySeconds := by simpa using he
  obtain ⟨hhistory, hconnection, -⟩ := faults_have_causes steep 0 steep_unspread
  refine ⟨steep_unspread, ⟨c, hrun, hhistory _ c _ hrun _ (List.mem_singleton_self _)⟩,
    ⟨s, events, hruns, hconnection _ _ _ s events rfl hruns _ hbroken⟩, ?_⟩
  have hplain : Unspread brief := by decide +kernel
  have hgrowth : (longestInterval brief).scale brief.multiplier = .ok (.ofMillis 80) := by
    decide +kernel
  have hclock : ((Clocked.begin brief 0).1.run (doublingUses ++ [.wait 1000])).map (·.1.now) =
      some 1000 := by decide +kernel
  obtain ⟨⟨c, notices⟩, hrun, hnow⟩ := Option.map_eq_some_iff.mp hclock
  obtain ⟨-, -, hsafe⟩ := faults_have_causes brief 0 hplain
  have hshort : c.now - 0 + (longestInterval brief).nanos < durationLimit := by
    rw [show c.now = 1000 from hnow]
    decide
  have hfactor : 0 ≤ brief.multiplier.toRat := by decide +kernel
  exact ⟨c, notices, hrun, (hsafe hfactor ⟨_, hgrowth⟩).1 _ c notices hrun (.inr hshort)⟩

/-- The ceiling of a minute does not help: the first delay is a fault, and a connection that nobody
has cancelled loses its receiver. -/
theorem ceiling_comes_too_late :
    Unspread steep ∧ steep.maxInterval = .ofMillis 60000 ∧
      (∃ c, (Clocked.begin steep 0).1.run [.next 0] =
        some (c, [.answered (.error .tooManySeconds)])) ∧
      ∃ s events, (State.start (overseenWith steep) 0 false).run lostAndRefused =
        some (s, events) ∧ s.cancelled = false ∧ s.receiver = .broken .tooManySeconds := by
  have hanswer : ((Clocked.begin steep 0).1.run [.next 0]).map (·.2) =
      some [.answered (.error .tooManySeconds)] := by decide +kernel
  obtain ⟨⟨c, notices⟩, hrun, rfl⟩ := Option.map_eq_some_iff.mp hanswer
  obtain ⟨⟨s, events⟩, hruns, he⟩ := Option.map_eq_some_iff.mp steep_breaks
  obtain ⟨htoken, -, hbroken⟩ : s.cancelled = false ∧ s.now = 0 ∧
    s.receiver = .broken .tooManySeconds := by simpa using he
  exact ⟨steep_unspread, rfl, ⟨c, hrun⟩, s, events, hruns, htoken, hbroken⟩

end InverterLink.Proofs
