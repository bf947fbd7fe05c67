import InverterLink.Backoff
import InverterLink.Proofs.Runs

/-!
# The delays of a backoff

Asking a backoff for a delay has one of four results, and `Asked` says all there is to say about
each of them. A history of a backoff is what is done with it in the course of time. Its first delay,
and the first one after each reset, is the initial interval, whatever the ceiling is; no later one
is above the ceiling.
-/

namespace InverterLink.Proofs
open Backoff

/-- What asking a backoff for a delay comes to. -/
inductive Asked (b : Backoff) (now : Instant) (draw : Draw) :
    Backoff → Except Fault (Option Duration) → Prop where
  /-- The delay or the next interval is no duration. -/
  | broken (fault : Fault)
    (cause : randomize b.policy b.interval draw = .error fault ∨
      grow b.policy b.interval = .error fault) : Asked b now draw b (.error fault)
  | granted (delay grown : Duration) (spread : randomize b.policy b.interval draw = .ok delay)
    (growth : grow b.policy b.interval = .ok grown)
    (fits : b.policy.maxElapsedTime = .zero ∨
      (b.elapsed now).nanos + delay.nanos ≤ b.policy.maxElapsedTime.nanos) :
    Asked b now draw { b with interval := grown } (.ok (some delay))
  | refused (delay grown : Duration) (spread : randomize b.policy b.interval draw = .ok delay)
    (growth : grow b.policy b.interval = .ok grown) (limited : b.policy.maxElapsedTime ≠ .zero)
    (exceeds : b.policy.maxElapsedTime.nanos < (b.elapsed now).nanos + delay.nanos) :
    Asked b now draw { b with interval := grown } (.ok none)
  /-- The end of the delay is too far from the start of the series. -/
  | overrun (delay grown : Duration) (spread : randomize b.policy b.interval draw = .ok delay)
    (growth : grow b.policy b.interval = .ok grown) (limited : b.policy.maxElapsedTime ≠ .zero)
    (long : durationLimit ≤ (b.elapsed now).nanos + delay.nanos) :
    Asked b now draw { b with interval := grown } (.error .durationOverflow)

section Asking

variable {b b' : Backoff} {now : Instant} {draw : Draw} {policy : BackoffPolicy}
  {answer : Except Fault (Option Duration)}

lemma admits_cases (b : Backoff) (now : Instant) (delay : Duration) :
    (b.admits now delay = .ok true ∧ (b.policy.maxElapsedTime = .zero ∨
      (b.elapsed now).nanos + delay.nanos ≤ b.policy.maxElapsedTime.nanos)) ∨
    (b.admits now delay = .ok false ∧ b.policy.maxElapsedTime ≠ .zero ∧
      b.policy.maxElapsedTime.nanos < (b.elapsed now).nanos + delay.nanos) ∨
    (b.admits now delay = .error .durationOverflow ∧ b.policy.maxElapsedTime ≠ .zero ∧
      durationLimit ≤ (b.elapsed now).nanos + delay.nanos) := by
  unfold admits
  by_cases hzero : b.policy.maxElapsedTime = .zero
  · rw [if_pos hzero]
    exact .inl ⟨rfl, .inl hzero⟩
  · rw [if_neg hzero]
    unfold Duration.add? Duration.ofNanos?
    by_cases hlimit : (b.elapsed now).nanos + delay.nanos < durationLimit
    · rw [dif_pos hlimit]
      by_cases hfits : (b.elapsed now).nanos + delay.nanos ≤ b.policy.maxElapsedTime.nanos
      · refine .inl ⟨?_, .inr hfits⟩
        exact congrArg Except.ok (decide_eq_true hfits)
      · refine .inr (.inl ⟨?_, hzero, Nat.lt_of_not_le hfits⟩)
        exact congrArg Except.ok (decide_eq_false hfits)
    · rw [dif_neg hlimit]
      exact .inr (.inr ⟨rfl, hzero, Nat.le_of_not_lt hlimit⟩)

theorem asked_next (b : Backoff) (now : Instant) (draw : Draw) :
    Asked b now draw (b.next now draw).1 (b.next now draw).2 := by
  unfold next
  cases hdelay : randomize b.policy b.interval draw with
  | error fault => exact .broken fault (.inl hdelay)
  | ok delay =>
    cases hgrown : grow b.policy b.interval with
    | error fault => exact .broken fault (.inr hgrown)
    | ok grown =>
      rcases admits_cases b now delay with ⟨h, hfits⟩ | ⟨h, hlimited, hexceeds⟩ |
        ⟨h, hlimited, hlong⟩
      · simp only [h, Except.map]
        exact .granted delay grown hdelay hgrown hfits
      · simp only [h, Except.map]
        exact .refused delay grown hdelay hgrown hlimited hexceeds
      · simp only [h, Except.map]
        exact .overrun delay grown hdelay hgrown hlimited hlong

lemma asked_of_next (h : b.next now draw = (b', answer)) : Asked b now draw b' answer := by
  have hasked := asked_next b now draw
  rwa [h] at hasked

lemma asked_series (h : Asked b now draw b' answer) :
    b'.policy = b.policy ∧ b'.start = b.start := by
  cases h <;> exact ⟨rfl, rfl⟩

lemma between_nanos (start time : Nat) :
    (Duration.between start time).nanos = min (time - start) (durationLimit - 1) := by
  unfold Duration.between Duration.ofNanos?
  split
  next hlt => exact (Nat.min_eq_left (Nat.le_sub_one_of_lt hlt)).symm
  next hlong => exact (Nat.min_eq_right ((Nat.sub_le _ _).trans (Nat.le_of_not_lt hlong))).symm

lemma between_mono {time later : Nat} (start : Nat) (hle : time ≤ later) :
    (Duration.between start time).nanos ≤ (Duration.between start later).nanos := by
  rw [between_nanos, between_nanos]
  exact min_le_min_right _ (Nat.sub_le_sub_right hle start)

lemma between_add_le (start time delay : Nat) :
    (Duration.between start (time + delay)).nanos ≤
      (Duration.between start time).nanos + delay := by
  rw [between_nanos, between_nanos]
  omega

/-- The delays of the policy are not spread at random. -/
def Unspread (policy : BackoffPolicy) : Prop := policy.randomizationFactor.toRat ≤ 0

instance (policy : BackoffPolicy) : Decidable (Unspread policy) :=
  inferInstanceAs (Decidable (policy.randomizationFactor.toRat ≤ 0))

lemma randomize_unspread (h : Unspread policy) (interval : Duration) (draw : Draw) :
    randomize policy interval draw = .ok interval := by
  have hspread : spread? policy interval = none := if_pos (.inl h)
  rw [randomize, hspread]

lemma grow_cases {interval grown : Duration} (h : grow policy interval = .ok grown) :
    ∃ scaled, interval.scale policy.multiplier = .ok scaled ∧
      grown = scaled.min policy.maxInterval := by
  unfold grow at h
  cases hs : interval.scale policy.multiplier with
  | error fault =>
    rw [hs] at h
    cases h
  | ok scaled =>
    rw [hs] at h
    cases h
    exact ⟨scaled, rfl, rfl⟩

lemma min_nanos (c d : Duration) : (c.min d).nanos = min c.nanos d.nanos := by
  unfold Duration.min
  split <;> omega

lemma grow_le {interval grown : Duration} (h : grow policy interval = .ok grown) :
    grown ≤ policy.maxInterval := by
  obtain ⟨scaled, -, rfl⟩ := grow_cases h
  change (scaled.min policy.maxInterval).nanos ≤ policy.maxInterval.nanos
  rw [min_nanos]
  exact Nat.min_le_right _ _

lemma asked_unspread (hplain : Unspread b.policy) (h : Asked b now draw b' answer) :
    (∀ delay, answer = .ok (some delay) → delay = b.interval) ∧
      ((∃ grown, grow b.policy b.interval = .ok grown ∧ b' = { b with interval := grown }) ∨
        ∃ fault, grow b.policy b.interval = .error fault ∧ b' = b ∧ answer = .error fault) := by
  have hsame := randomize_unspread hplain b.interval draw
  cases h with
  | broken fault cause =>
    rw [hsame] at cause
    exact ⟨nofun, .inr ⟨fault, cause.resolve_left nofun, rfl, rfl⟩⟩
  | granted delay grown spread growth =>
    rw [hsame] at spread
    cases spread
    exact ⟨fun _ he => (Option.some.inj (Except.ok.inj he)).symm, .inl ⟨grown, growth, rfl⟩⟩
  | refused delay grown spread growth => exact ⟨nofun, .inl ⟨grown, growth, rfl⟩⟩
  | overrun delay grown spread growth => exact ⟨nofun, .inl ⟨grown, growth, rfl⟩⟩

end Asking

/-! ### Histories -/

/-- What is done with a backoff. -/
inductive BackoffUse where
  | next (draw : Draw)
  | reset
  | wait (time : Instant)

/-- What a backoff shows of itself. -/
inductive Notice where
  /-- A series begins. -/
  | started
  | answered (answer : Except Fault (Option Duration))
  deriving DecidableEq

/-- A backoff in the course of time. -/
structure Clocked where
  backoff : Backoff
  now : Instant
  deriving DecidableEq

namespace Clocked

/-- A new backoff, which begins its first series. -/
def begin (policy : BackoffPolicy) (now : Instant) : Clocked × List Notice :=
  (⟨.begin policy now, now⟩, [.started])

/-- The effect of a use; none if time would go back. A fault leaves a backoff that can be used. -/
def step (c : Clocked) : BackoffUse → Option (Clocked × List Notice)
  | .next draw =>
    let (backoff, answer) := c.backoff.next c.now draw
    some ({ c with backoff }, [.answered answer])
  | .reset => some ({ c with backoff := c.backoff.reset c.now }, [.started])
  | .wait time => if c.now ≤ time then some ({ c with now := time }, []) else none

def run (c : Clocked) (uses : List BackoffUse) : Option (Clocked × List Notice) :=
  runSteps step c uses

end Clocked

section Histories

variable {policy : BackoffPolicy} {c c' : Clocked} {use : BackoffUse} {uses : List BackoffUse}
  {notices seen : List Notice}

/-- The last thing that was seen is the beginning of a series. -/
def opens (seen : List Notice) : Prop := seen.getLast? = some .started

instance (seen : List Notice) : Decidable (opens seen) :=
  inferInstanceAs (Decidable (seen.getLast? = _))

/-- The first delay of a series is the initial interval, and no other one is above the ceiling. -/
def UnderCeiling (policy : BackoffPolicy) (seen : List Notice) : Prop :=
  ∀ before delay behind, seen = before ++ .answered (.ok (some delay)) :: behind →
    (opens before ∧ delay = policy.initialInterval) ∨
      (¬ opens before ∧ delay ≤ policy.maxInterval)

/-- Where the interval of a backoff is. Behind the first delay of a series it is under the ceiling,
unless its growth is no duration, and then there is no delay in the first place. -/
structure Capped (policy : BackoffPolicy) (seen : List Notice) (c : Clocked) : Prop where
  same : c.backoff.policy = policy
  first : opens seen → c.backoff.interval = policy.initialInterval
  later : ¬ opens seen → c.backoff.interval ≤ policy.maxInterval ∨
    ∃ fault, grow policy c.backoff.interval = .error fault
  delays : UnderCeiling policy seen

lemma cut_concat {β : Type} {xs before after : List β} {x y : β}
    (h : xs ++ [x] = before ++ y :: after) :
    (after = [] ∧ x = y ∧ xs = before) ∨
      ∃ rest, after = rest ++ [x] ∧ xs = before ++ y :: rest := by
  rcases List.eq_nil_or_concat after with rfl | ⟨rest, last, rfl⟩
  · obtain ⟨rfl, hlast⟩ := List.append_inj' h rfl
    exact .inl ⟨rfl, (List.cons.inj hlast).1, rfl⟩
  · have hcut : xs ++ [x] = (before ++ y :: rest) ++ [last] := by simpa using h
    obtain ⟨rfl, hlast⟩ := List.append_inj' hcut rfl
    rw [(List.cons.inj hlast).1]
    exact .inr ⟨rest, List.concat_eq_append, rfl⟩

lemma underCeiling_concat {notice : Notice} (h : UnderCeiling policy seen)
    (hnew : ∀ delay, notice = .answered (.ok (some delay)) →
      (opens seen ∧ delay = policy.initialInterval) ∨
        (¬ opens seen ∧ delay ≤ policy.maxInterval)) :
    UnderCeiling policy (seen ++ [notice]) := by
  intro before delay behind he
  rcases cut_concat he with ⟨-, hlast, rfl⟩ | ⟨rest, -, hbefore⟩
  · exact hnew delay hlast
  · exact h before delay rest hbefore

lemma opens_concat (notice : Notice) : opens (seen ++ [notice]) ↔ notice = .started := by
  simp [opens]

lemma capped_step (hplain : Unspread policy) (h : Capped policy seen c)
    (hs : c.step use = some (c', notices)) : Capped policy (seen ++ notices) c' := by
  cases use with
  | next draw =>
    rcases hn : c.backoff.next c.now draw with ⟨b', answer⟩
    simp only [Clocked.step, hn, Option.some.injEq, Prod.mk.injEq] at hs
    obtain ⟨rfl, rfl⟩ := hs
    have hasked := asked_of_next hn
    rw [← h.same] at hplain
    obtain ⟨hdelay, hgrowth⟩ := asked_unspread hplain hasked
    rw [h.same] at hgrowth
    have hanswered : ¬ opens (seen ++ [.answered answer]) := by
      rw [opens_concat]
      nofun
    refine ⟨(asked_series hasked).1.trans h.same, fun ho => absurd ho hanswered, fun _ => ?_,
      underCeiling_concat h.delays fun delay he => ?_⟩
    · rcases hgrowth with ⟨grown, hgrown, rfl⟩ | ⟨fault, hfault, rfl, -⟩
      · exact .inl (grow_le hgrown)
      · exact .inr ⟨fault, hfault⟩
    · obtain rfl := hdelay delay (Notice.answered.inj he)
      by_cases ho : opens seen
      · exact .inl ⟨ho, h.first ho⟩
      · refine .inr ⟨ho, (h.later ho).resolve_right ?_⟩
        rintro ⟨fault, hfault⟩
        rcases hgrowth with ⟨grown, hgrown, -⟩ | ⟨_, -, -, rfl⟩
        · rw [hfault] at hgrown
          cases hgrown
        · cases he
  | reset =>
    cases hs
    refine ⟨h.same, fun _ => congrArg BackoffPolicy.initialInterval h.same, fun ho => ?_,
      underCeiling_concat h.delays nofun⟩
    exact absurd ((opens_concat _).mpr rfl) ho
  | wait time =>
    simp only [Clocked.step] at hs
    split at hs
    · cases hs
      rw [List.append_nil]
      exact ⟨h.same, h.first, h.later, h.delays⟩
    · cases hs

lemma capped_begin (policy : BackoffPolicy) (now : Instant) :
    Capped policy (Clocked.begin policy now).2 (Clocked.begin policy now).1 := by
  refine ⟨rfl, fun _ => rfl, fun ho => absurd rfl ho, fun before delay behind he => ?_⟩
  have hmem : Notice.answered (.ok (some delay)) ∈ [Notice.started] := by
    change [Notice.started] = _ at he
    rw [he]
    simp
  cases List.mem_singleton.mp hmem

end Histories

/-- Without spread, the first delay of each series is the initial interval, and every other delay is
at most the ceiling. So no delay is above the ceiling if the initial interval is not. -/
theorem delays_capped (policy : BackoffPolicy) (now : Instant) (uses : List BackoffUse)
    (c : Clocked) (notices : List Notice) (hplain : Unspread policy)
    (hrun : (Clocked.begin policy now).1.run uses = some (c, notices)) :
    let seen := (Clocked.begin policy now).2 ++ notices
    (∀ before delay behind, seen = before ++ .answered (.ok (some delay)) :: behind →
      (before.getLast? = some .started ∧ delay = policy.initialInterval) ∨
        (before.getLast? ≠ some .started ∧ delay ≤ policy.maxInterval)) ∧
    (policy.initialInterval ≤ policy.maxInterval →
      ∀ delay, .answered (.ok (some delay)) ∈ seen → delay ≤ policy.maxInterval) := by
  intro seen
  have hcapped : Capped policy seen c :=
    passages_induction_from (P := fun _ seen c => Capped policy seen c) (h := [])
      (capped_begin policy now) (fun _ _ _ _ _ _ => capped_step hplain) hrun
  refine ⟨hcapped.delays, fun hle delay hmem => ?_⟩
  obtain ⟨before, behind, he⟩ := List.append_of_mem hmem
  rcases hcapped.delays before delay behind he with ⟨-, rfl⟩ | ⟨-, hdelay⟩
  · exact hle
  · exact hdelay

/-- Delays that double from 100 ms up to 400 ms. -/
def doubling : BackoffPolicy where
  initialInterval := .ofMillis 100
  multiplier := ⟨false, 2, by decide +kernel⟩
  randomizationFactor := .zero
  maxInterval := .ofMillis 400
  maxElapsedTime := .zero

/-- Delays that double from 10 ms up to 40 ms, for 35 ms in all. -/
def brief : BackoffPolicy :=
  { doubling with
    initialInterval := .ofMillis 10, maxInterval := .ofMillis 40, maxElapsedTime := .ofMillis 35 }

/-- Four delays, and one more after a reset. -/
def doublingUses : List BackoffUse := [.next 0, .next 0, .next 0, .next 0, .reset, .next 0]

/-- The delays stop at the ceiling, and start again at the initial interval. -/
theorem doubling_stops_at_ceiling :
    ∃ c notices, (Clocked.begin doubling 0).1.run doublingUses = some (c, notices) ∧
      notices = [.answered (.ok (some (.ofMillis 100))), .answered (.ok (some (.ofMillis 200))),
        .answered (.ok (some (.ofMillis 400))), .answered (.ok (some (.ofMillis 400))), .started,
        .answered (.ok (some (.ofMillis 100)))] ∧
      Unspread doubling ∧ doubling.initialInterval ≤ doubling.maxInterval ∧
      Duration.ofMillis 400 ≤ doubling.maxInterval ∧
      Duration.ofMillis 100 = doubling.initialInterval := by
  have hplain : Unspread doubling := by decide +kernel
  have hle : doubling.initialInterval ≤ doubling.maxInterval := by decide
  have hnotices : ((Clocked.begin doubling 0).1.run doublingUses).map (·.2) =
      some [.answered (.ok (some (.ofMillis 100))), .answered (.ok (some (.ofMillis 200))),
        .answered (.ok (some (.ofMillis 400))), .answered (.ok (some (.ofMillis 400))), .started,
        .answered (.ok (some (.ofMillis 100)))] := by decide +kernel
  obtain ⟨⟨c, notices⟩, hrun, rfl⟩ := Option.map_eq_some_iff.mp hnotices
  obtain ⟨heach, hall⟩ := delays_capped doubling 0 doublingUses c _ hplain hrun
  refine ⟨c, _, hrun, rfl, hplain, hle, hall hle _ (by simp), ?_⟩
  rcases heach [.started, .answered (.ok (some (.ofMillis 100))),
    .answered (.ok (some (.ofMillis 200))), .answered (.ok (some (.ofMillis 400))),
    .answered (.ok (some (.ofMillis 400))), .started] _ [] rfl with ⟨-, he⟩ | ⟨hne, -⟩
  · exact he
  · exact absurd rfl hne

/-- The initial interval is two minutes, and the ceiling one minute. -/
def overCeiling : BackoffPolicy :=
  { randomizationFactor := .zero, initialInterval := .ofMillis 120000, maxElapsedTime := .zero }

/-- The first delay is above the ceiling. -/
theorem first_delay_above_ceiling :
    Unspread overCeiling ∧
      (∃ c, (Clocked.begin overCeiling 0).1.run [.next 0] =
        some (c, [.answered (.ok (some (.ofMillis 120000)))])) ∧
      ¬ Duration.ofMillis 120000 ≤ overCeiling.maxInterval := by
  have hplain : Unspread overCeiling := by decide +kernel
  have hnotices : ((Clocked.begin overCeiling 0).1.run [.next 0]).map (·.2) =
      some [.answered (.ok (some (.ofMillis 120000)))] := by decide +kernel
  obtain ⟨⟨c, notices⟩, hrun, rfl⟩ := Option.map_eq_some_iff.mp hnotices
  exact ⟨hplain, ⟨c, hrun⟩, by decide⟩

end InverterLink.Proofs
