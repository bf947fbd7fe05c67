import InverterLink.Number.Seconds
import Mathlib

/-!
# The order of rounded numbers

Rounding to the nearest double precision number keeps the order, so a longer duration has no fewer
seconds, and scaling a duration keeps the order of durations and of factors. What scales the
longest of some durations without a fault scales each of them. Two numbers with the same step
round alike; otherwise a power of two lies between them that needs no rounding on either side.
-/

namespace InverterLink.Proofs
open Binary64

/-! ### Whole numbers -/

lemma nearestEven_cases (q : ℚ) :
    nearestEven q = q.floor ∧ q - q.floor ≤ 1 / 2 ∨
      nearestEven q = q.floor + 1 ∧ 1 / 2 ≤ q - q.floor := by
  unfold nearestEven
  dsimp only
  split_ifs with hlow hhigh heven
  · exact .inl ⟨rfl, hlow.le⟩
  · exact .inr ⟨rfl, hhigh.le⟩
  · exact .inl ⟨rfl, not_lt.mp hhigh⟩
  · exact .inr ⟨rfl, not_lt.mp hlow⟩

lemma nearestEven_intCast (n : ℤ) : nearestEven n = n := by
  simp [nearestEven]

lemma nearestEven_intCast_add (n : ℤ) {f : ℚ} (hf : 0 ≤ f) (hhalf : f < 1 / 2) :
    nearestEven (n + f) = n := by
  have hfloor : ((n : ℚ) + f).floor = n := by
    have hint : ⌊(n : ℚ) + f⌋ = n := Int.floor_eq_iff.mpr ⟨by linarith, by linarith⟩
    exact hint
  unfold nearestEven
  dsimp only
  rw [hfloor, if_pos (by linarith)]

lemma nearestEven_mono {p q : ℚ} (h : p ≤ q) : nearestEven p ≤ nearestEven q := by
  have hfloor : p.floor ≤ q.floor := Rat.floor_monotone h
  rcases nearestEven_cases p with ⟨hp, -⟩ | ⟨hp, hrest⟩
  · rcases nearestEven_cases q with ⟨hq, -⟩ | ⟨hq, -⟩ <;> omega
  · rcases hfloor.lt_or_eq with hlt | heq
    · rcases nearestEven_cases q with ⟨hq, -⟩ | ⟨hq, -⟩ <;> omega
    · -- the same whole numbers are on both sides
      unfold nearestEven
      dsimp only
      rw [← heq]
      split_ifs <;> first | omega | linarith

/-! ### Exponents and steps -/

lemma exponent_spec {q : ℚ} (h : 0 < q) :
    (2 : ℚ) ^ exponent q ≤ q ∧ q < (2 : ℚ) ^ (exponent q + 1) := by
  have hnum : 0 < q.num.natAbs := Int.natAbs_pos.mpr (Rat.num_pos.mpr h).ne'
  have hq : q = (q.num.natAbs : ℚ) / (q.den : ℚ) := by
    rw [Nat.cast_natAbs, abs_of_pos (Rat.num_pos.mpr h), Rat.num_div_den]
  set n := q.num.natAbs with hn
  set d := q.den with hd
  have hpos : (0 : ℚ) < d := by exact_mod_cast q.den_pos
  have hbelow : (2 : ℚ) ^ (n.log2 : ℤ) ≤ n := by
    exact_mod_cast Nat.log2_self_le hnum.ne'
  have habove : (n : ℚ) < (2 : ℚ) ^ ((n.log2 : ℤ) + 1) := by
    exact_mod_cast Nat.lt_log2_self
  have hbelow' : (2 : ℚ) ^ (d.log2 : ℤ) ≤ d := by
    exact_mod_cast Nat.log2_self_le q.den_nz
  have habove' : (d : ℚ) < (2 : ℚ) ^ ((d.log2 : ℤ) + 1) := by
    exact_mod_cast Nat.lt_log2_self
  have hlow : (2 : ℚ) ^ ((n.log2 : ℤ) - d.log2 - 1) ≤ q := by
    rw [hq, le_div_iff₀ hpos]
    calc (2 : ℚ) ^ ((n.log2 : ℤ) - d.log2 - 1) * d
        ≤ (2 : ℚ) ^ ((n.log2 : ℤ) - d.log2 - 1) * (2 : ℚ) ^ ((d.log2 : ℤ) + 1) :=
          mul_le_mul_of_nonneg_left habove'.le (by positivity)
      _ = (2 : ℚ) ^ (n.log2 : ℤ) := by
          rw [← zpow_add₀ (by norm_num)]
          congr 1
          omega
      _ ≤ n := hbelow
  have hhigh : q < (2 : ℚ) ^ ((n.log2 : ℤ) - d.log2 + 1) := by
    rw [hq, div_lt_iff₀ hpos]
    calc (n : ℚ) < (2 : ℚ) ^ ((n.log2 : ℤ) + 1) := habove
      _ = (2 : ℚ) ^ ((n.log2 : ℤ) - d.log2 + 1) * (2 : ℚ) ^ (d.log2 : ℤ) := by
          rw [← zpow_add₀ (by norm_num)]
          congr 1
          omega
      _ ≤ (2 : ℚ) ^ ((n.log2 : ℤ) - d.log2 + 1) * d :=
          mul_le_mul_of_nonneg_left hbelow' (by positivity)
  unfold exponent
  dsimp only
  split_ifs with hk
  · exact ⟨hk, hhigh⟩
  · rw [sub_add_cancel]
    exact ⟨hlow, not_le.mp hk⟩

lemma exponent_eq {q : ℚ} {k : ℤ} (hlow : (2 : ℚ) ^ k ≤ q) (hhigh : q < (2 : ℚ) ^ (k + 1)) :
    exponent q = k := by
  have hpos : 0 < q := lt_of_lt_of_le (by positivity) hlow
  obtain ⟨hbelow, habove⟩ := exponent_spec hpos
  have hone : (1 : ℚ) < 2 := by norm_num
  have h₁ := (zpow_lt_zpow_iff_right₀ hone).mp (hlow.trans_lt habove)
  have h₂ := (zpow_lt_zpow_iff_right₀ hone).mp (hbelow.trans_lt hhigh)
  omega

lemma exponent_mono {p q : ℚ} (hp : 0 < p) (h : p ≤ q) : exponent p ≤ exponent q := by
  have hone : (1 : ℚ) < 2 := by norm_num
  have hlt : (2 : ℚ) ^ exponent p < (2 : ℚ) ^ (exponent q + 1) :=
    ((exponent_spec hp).1.trans h).trans_lt (exponent_spec (hp.trans_le h)).2
  exact Int.lt_add_one_iff.mp ((zpow_lt_zpow_iff_right₀ hone).mp hlt)

/-- The power of two of the step between the numbers of the size of `q`. -/
def place (q : ℚ) : ℤ := max (-1074) (exponent q - 52)

lemma step_eq (q : ℚ) : step q = (2 : ℚ) ^ place q := rfl

lemma roundMagnitude_of_pos {q : ℚ} (h : 0 < q) :
    roundMagnitude q = nearestEven (q / (2 : ℚ) ^ place q) * (2 : ℚ) ^ place q := by
  rw [roundMagnitude, if_neg h.ne', step_eq]

lemma exists_mul_pow {j k : ℤ} (h : j ≤ k) : ∃ n : ℤ, (2 : ℚ) ^ k = n * (2 : ℚ) ^ j := by
  refine ⟨2 ^ (k - j).toNat, ?_⟩
  push_cast
  rw [← zpow_natCast, Int.toNat_of_nonneg (by omega), ← zpow_add₀ (by norm_num), sub_add_cancel]

lemma roundMagnitude_le {q : ℚ} {n : ℤ} (hq : 0 < q) (h : q ≤ n * (2 : ℚ) ^ place q) :
    roundMagnitude q ≤ n * (2 : ℚ) ^ place q := by
  have hpos : (0 : ℚ) < (2 : ℚ) ^ place q := by positivity
  have hle : nearestEven (q / (2 : ℚ) ^ place q) ≤ n := by
    rw [← nearestEven_intCast n]
    exact nearestEven_mono ((div_le_iff₀ hpos).mpr h)
  rw [roundMagnitude_of_pos hq]
  exact mul_le_mul_of_nonneg_right (by exact_mod_cast hle) hpos.le

lemma le_roundMagnitude {q : ℚ} {n : ℤ} (hq : 0 < q) (h : n * (2 : ℚ) ^ place q ≤ q) :
    n * (2 : ℚ) ^ place q ≤ roundMagnitude q := by
  have hpos : (0 : ℚ) < (2 : ℚ) ^ place q := by positivity
  have hle : n ≤ nearestEven (q / (2 : ℚ) ^ place q) := by
    rw [← nearestEven_intCast n]
    exact nearestEven_mono ((le_div_iff₀ hpos).mpr h)
  rw [roundMagnitude_of_pos hq]
  exact mul_le_mul_of_nonneg_right (by exact_mod_cast hle) hpos.le

lemma roundMagnitude_le_pow {q : ℚ} {k : ℤ} (hq : 0 < q) (h : q ≤ (2 : ℚ) ^ k)
    (hk : place q ≤ k) : roundMagnitude q ≤ (2 : ℚ) ^ k := by
  obtain ⟨n, hn⟩ := exists_mul_pow hk
  rw [hn] at h ⊢
  exact roundMagnitude_le hq h

lemma pow_le_roundMagnitude {q : ℚ} {k : ℤ} (hq : 0 < q) (h : (2 : ℚ) ^ k ≤ q)
    (hk : place q ≤ k) : (2 : ℚ) ^ k ≤ roundMagnitude q := by
  obtain ⟨n, hn⟩ := exists_mul_pow hk
  rw [hn] at h ⊢
  exact le_roundMagnitude hq h

lemma roundMagnitude_mono {p q : ℚ} (hp : 0 < p) (h : p ≤ q) :
    roundMagnitude p ≤ roundMagnitude q := by
  have hq : 0 < q := hp.trans_le h
  have hexp : exponent p ≤ exponent q := exponent_mono hp h
  by_cases heq : place p = place q
  · rw [roundMagnitude_of_pos hp, roundMagnitude_of_pos hq, heq]
    have hpos : (0 : ℚ) < (2 : ℚ) ^ place q := by positivity
    have hle := nearestEven_mono (div_le_div_of_nonneg_right h hpos.le)
    exact mul_le_mul_of_nonneg_right (by exact_mod_cast hle) hpos.le
  · -- the power of two between them lies on the grids of both
    have hsize : exponent p + 1 ≤ exponent q ∧ place p ≤ exponent q ∧ place q ≤ exponent q := by
      unfold place at heq ⊢
      omega
    obtain ⟨hlt, hplace, hplace'⟩ := hsize
    calc roundMagnitude p ≤ (2 : ℚ) ^ exponent q := by
          refine roundMagnitude_le_pow hp ?_ hplace
          exact (exponent_spec hp).2.le.trans (zpow_le_zpow_right₀ (by norm_num) hlt)
      _ ≤ roundMagnitude q := pow_le_roundMagnitude hq (exponent_spec hq).1 hplace'

lemma roundMagnitude_nonneg {q : ℚ} (h : 0 ≤ q) : 0 ≤ roundMagnitude q := by
  rcases h.eq_or_lt with rfl | hq
  · simp [roundMagnitude]
  · have hzero : ((0 : ℤ) : ℚ) * (2 : ℚ) ^ place q ≤ q := by simpa using hq.le
    simpa using le_roundMagnitude hq hzero

/-- Rounding keeps the order. -/
theorem round_mono {p q : ℚ} (h : p ≤ q) : Binary64.round p ≤ Binary64.round q := by
  have hmono : ∀ {a b : ℚ}, 0 ≤ a → a ≤ b → roundMagnitude a ≤ roundMagnitude b := by
    intro a b ha hab
    rcases ha.eq_or_lt with rfl | hpos
    · rw [roundMagnitude, if_pos rfl]
      exact roundMagnitude_nonneg hab
    · exact roundMagnitude_mono hpos hab
  unfold Binary64.round
  split_ifs with hp hq hq
  · exact neg_le_neg (hmono (by linarith) (by linarith))
  · have h₁ := roundMagnitude_nonneg (q := -p) (by linarith)
    have h₂ := roundMagnitude_nonneg (q := q) (by linarith)
    linarith
  · linarith
  · exact hmono (not_lt.mp hp) h


/-! ### Seconds -/

lemma round_of_nonneg {q : ℚ} (h : 0 ≤ q) : Binary64.round q = roundMagnitude q :=
  if_neg (not_lt.mpr h)

lemma round_zero : Binary64.round 0 = 0 := by
  simp [Binary64.round, roundMagnitude]

lemma round_nonneg {q : ℚ} (h : 0 ≤ q) : 0 ≤ Binary64.round q := by
  rw [round_of_nonneg h]
  exact roundMagnitude_nonneg h

lemma round_add_small {r f : ℚ} {n : ℤ} (hr : r = n * (2 : ℚ) ^ place (r + f)) (hpos : 0 < r)
    (hf : 0 ≤ f) (hhalf : f < (2 : ℚ) ^ place (r + f) / 2) : Binary64.round (r + f) = r := by
  have hstep : (0 : ℚ) < (2 : ℚ) ^ place (r + f) := by positivity
  have hq : (r + f) / (2 : ℚ) ^ place (r + f) = n + f / (2 : ℚ) ^ place (r + f) := by
    rw [add_div]
    congr 1
    exact (div_eq_iff hstep.ne').mpr hr
  have hrest : f / (2 : ℚ) ^ place (r + f) < 1 / 2 := by
    rw [div_lt_iff₀ hstep]
    linarith
  rw [round_of_nonneg (by linarith), roundMagnitude_of_pos (by linarith), hq,
    nearestEven_intCast_add n (by positivity) hrest]
  exact hr.symm

lemma round_natCast {n : ℕ} (h : n ≤ 2 ^ 53) : Binary64.round n = n := by
  rcases n.eq_zero_or_pos with rfl | hn
  · simp [round_zero]
  · have hpos : (0 : ℚ) < n := by exact_mod_cast hn
    have hmultiple : ∃ m : ℤ, (n : ℚ) = m * (2 : ℚ) ^ place (n : ℚ) := by
      rcases h.lt_or_eq with hlt | rfl
      · have hexp : exponent (n : ℚ) < 53 := by
          refine (zpow_lt_zpow_iff_right₀ (by norm_num : (1 : ℚ) < 2)).mp ?_
          exact (exponent_spec hpos).1.trans_lt (by exact_mod_cast hlt)
        obtain ⟨k, hk⟩ := exists_mul_pow (j := place (n : ℚ)) (k := 0) (by unfold place; omega)
        refine ⟨n * k, ?_⟩
        rw [Int.cast_mul, mul_assoc, ← hk]
        simp
      · have hexp : exponent ((2 ^ 53 : ℕ) : ℚ) = 53 := exponent_eq (by norm_num) (by norm_num)
        refine ⟨2 ^ 52, ?_⟩
        rw [place, hexp]
        norm_num
    obtain ⟨m, hm⟩ := hmultiple
    have hround := round_add_small (r := n) (f := 0) (n := m) (by simpa using hm) hpos le_rfl
      (by positivity)
    simpa using hround

lemma round_fraction_lt {n : ℕ} (h : n < nanosPerSecond) :
    Binary64.round ((n : ℚ) / nanosPerSecond) < 1 := by
  have hmost : Binary64.round (999999999 / 1000000000) < 1 := by decide +kernel
  refine lt_of_le_of_lt (round_mono ?_) hmost
  have hn : (n : ℚ) ≤ 999999999 := by
    have hle : n ≤ 999999999 := by
      simp only [nanosPerSecond] at h
      omega
    exact_mod_cast hle
  have hsecond : ((nanosPerSecond : ℕ) : ℚ) = 1000000000 := by norm_num [nanosPerSecond]
  rw [hsecond]
  exact div_le_div_of_nonneg_right hn (by norm_num)

lemma round_add_of_wide {r f : ℚ} {m k : ℤ} (hr : r = m * (2 : ℚ) ^ k) (hk : 1 ≤ k)
    (hlow : (2 : ℚ) ^ (k + 52) ≤ r) (hhigh : r < (2 : ℚ) ^ (k + 53)) (hf : 0 ≤ f) (hone : f < 1) :
    Binary64.round (r + f) = r := by
  have hwide : (2 : ℚ) ≤ (2 : ℚ) ^ k := by
    calc (2 : ℚ) = (2 : ℚ) ^ (1 : ℤ) := (zpow_one 2).symm
      _ ≤ (2 : ℚ) ^ k := zpow_le_zpow_right₀ (by norm_num) hk
  have htop : (2 : ℚ) ^ (k + 53) = (2 : ℚ) ^ (53 : ℤ) * (2 : ℚ) ^ k := by
    rw [← zpow_add₀ (by norm_num), add_comm]
  have hm : m < 2 ^ 53 := by
    rw [hr, htop] at hhigh
    exact_mod_cast lt_of_mul_lt_mul_right hhigh (by positivity)
  -- the next number of this size is still no larger than the next power of two
  have hroom : r + (2 : ℚ) ^ k ≤ (2 : ℚ) ^ (k + 53) := by
    have hm : (m : ℚ) + 1 ≤ (2 : ℚ) ^ (53 : ℤ) := by exact_mod_cast hm
    calc r + (2 : ℚ) ^ k = (m + 1) * (2 : ℚ) ^ k := by rw [hr]; ring
      _ ≤ (2 : ℚ) ^ (53 : ℤ) * (2 : ℚ) ^ k := mul_le_mul_of_nonneg_right hm (by positivity)
      _ = (2 : ℚ) ^ (k + 53) := htop.symm
  have hexp : exponent (r + f) = k + 52 := exponent_eq (by linarith) (by
    rw [add_assoc]
    exact lt_of_lt_of_le (by linarith) hroom)
  have hplace : place (r + f) = k := by
    rw [place, hexp]
    omega
  refine round_add_small (n := m) ?_ (lt_of_lt_of_le (by positivity) hlow) hf ?_
  · rw [hplace]
    exact hr
  · rw [hplace]
    linarith

/-- A fraction does not matter beside a number of more than 53 bits. -/
lemma round_add_fraction {n : ℕ} {f : ℚ} (h : 2 ^ 53 ≤ n) (hf : 0 ≤ f) (hone : f < 1) :
    Binary64.round (Binary64.round n + f) = Binary64.round n := by
  have hpos : (0 : ℚ) < n := by
    have hn : 0 < n := lt_of_lt_of_le (by positivity) h
    exact_mod_cast hn
  have hexp : 53 ≤ exponent (n : ℚ) := by
    have hfirst : exponent ((2 ^ 53 : ℕ) : ℚ) = 53 := exponent_eq (by norm_num) (by norm_num)
    rw [← hfirst]
    exact exponent_mono (by norm_num) (by exact_mod_cast h)
  have hplace : place (n : ℚ) = exponent (n : ℚ) - 52 := by
    unfold place
    omega
  obtain ⟨hbelow, habove⟩ := exponent_spec hpos
  have hlow := pow_le_roundMagnitude hpos hbelow (by omega)
  have hhigh := roundMagnitude_le_pow hpos habove.le (by omega)
  have hgrid := roundMagnitude_of_pos hpos
  rw [hplace] at hgrid
  rw [round_of_nonneg hpos.le]
  rcases hhigh.lt_or_eq with hlt | heq
  · refine round_add_of_wide hgrid (by omega) ?_ ?_ hf hone
    · simpa using hlow
    · rwa [show exponent (n : ℚ) - 52 + 53 = exponent (n : ℚ) + 1 by ring]
  · -- the number was rounded up to the next power of two
    have hpow : (2 : ℚ) ^ (exponent (n : ℚ) + 1) =
        ((2 ^ 52 : ℤ) : ℚ) * (2 : ℚ) ^ (exponent (n : ℚ) - 51) := by
      rw [Int.cast_pow, Int.cast_ofNat, ← zpow_natCast, ← zpow_add₀ (by norm_num)]
      congr 1
      push_cast
      ring
    refine round_add_of_wide (heq.trans hpow) (by omega) ?_ ?_ hf hone
    · rw [heq, show exponent (n : ℚ) - 51 + 52 = exponent (n : ℚ) + 1 by ring]
    · rw [heq]
      exact zpow_lt_zpow_right₀ (by norm_num) (by omega)

/-- A longer duration has no fewer seconds. -/
theorem seconds_mono {d d' : Duration} (h : d.nanos ≤ d'.nanos) : d.seconds ≤ d'.seconds := by
  have hsecs : d.secs ≤ d'.secs := Nat.div_le_div_right h
  have hnonneg : ∀ d : Duration, 0 ≤ Binary64.round ((d.subsecNanos : ℚ) / nanosPerSecond) :=
    fun d => round_nonneg (by positivity)
  have hfraction : ∀ d : Duration, Binary64.round ((d.subsecNanos : ℚ) / nanosPerSecond) < 1 :=
    fun d => round_fraction_lt (Nat.mod_lt _ (by decide))
  unfold Duration.seconds
  rcases hsecs.lt_or_eq with hlt | heq
  · by_cases hlarge : 2 ^ 53 ≤ d.secs
    · rw [round_add_fraction hlarge (hnonneg d) (hfraction d),
        round_add_fraction (hlarge.trans hsecs) (hnonneg d') (hfraction d')]
      exact round_mono (by exact_mod_cast hsecs)
    · apply round_mono
      calc Binary64.round d.secs + Binary64.round ((d.subsecNanos : ℚ) / nanosPerSecond)
          ≤ d.secs + 1 := by
            rw [round_natCast (by omega)]
            linarith [hfraction d]
        _ = Binary64.round ((d.secs + 1 : ℕ) : ℚ) := by
            rw [round_natCast (by omega)]
            push_cast
            rfl
        _ ≤ Binary64.round d'.secs := round_mono (by exact_mod_cast hlt)
        _ ≤ Binary64.round d'.secs + Binary64.round ((d'.subsecNanos : ℚ) / nanosPerSecond) :=
            le_add_of_nonneg_right (hnonneg d')
  · have hrest : d.subsecNanos ≤ d'.subsecNanos := by
      unfold Duration.secs at heq
      unfold Duration.subsecNanos
      have hd := Nat.div_add_mod d.nanos nanosPerSecond
      have hd' := Nat.div_add_mod d'.nanos nanosPerSecond
      rw [heq] at hd
      omega
    rw [heq]
    apply round_mono
    have hle := round_mono (div_le_div_of_nonneg_right (c := (nanosPerSecond : ℚ))
      (by exact_mod_cast hrest : (d.subsecNanos : ℚ) ≤ d'.subsecNanos) (by positivity))
    linarith

/-! ### Scaled durations -/

/-- Fewer seconds make a duration too, unless they are below zero, and no longer one. -/
lemma ofSeconds_mono {x y : ℚ} {d : Duration} (hx : 0 ≤ x) (h : x ≤ y)
    (hd : Duration.ofSeconds y = .ok d) :
    ∃ c, Duration.ofSeconds x = .ok c ∧ c.nanos ≤ d.nanos := by
  have hle : (nearestEven (x * nanosPerSecond)).toNat ≤ (nearestEven (y * nanosPerSecond)).toNat :=
    Int.toNat_le_toNat (nearestEven_mono (mul_le_mul_of_nonneg_right h (by positivity)))
  unfold Duration.ofSeconds Duration.ofNanos? at hd ⊢
  rw [if_neg (not_lt.mpr (hx.trans h))] at hd
  rw [if_neg (not_lt.mpr hx)]
  split at hd
  · rename_i hy
    cases hd
    split at hy
    · rename_i hlimit
      cases hy
      rw [dif_pos (hle.trans_lt hlimit)]
      exact ⟨_, rfl, hle⟩
    · cases hy
  · cases hd

/-- What scales a duration scales a shorter one too, and to no more. -/
theorem scale_mono {d d' e : Duration} {x y : Binary64} (hd : d.nanos ≤ d'.nanos)
    (hx : 0 ≤ x.toRat) (hxy : x.toRat ≤ y.toRat) (he : d'.scale y = .ok e) :
    ∃ c, d.scale x = .ok c ∧ c.nanos ≤ e.nanos := by
  have hseconds : 0 ≤ d.seconds := round_nonneg (add_nonneg (round_nonneg (by positivity))
    (round_nonneg (by positivity)))
  refine ofSeconds_mono (round_nonneg (mul_nonneg hseconds hx)) (round_mono ?_) he
  exact mul_le_mul (seconds_mono hd) hxy hx (hseconds.trans (seconds_mono hd))

lemma scale_pos {d e : Duration} {x : Binary64} (hd : 0 < d.nanos) (hx : 1 ≤ x.toRat)
    (he : d.scale x = .ok e) : 0 < e.nanos := by
  let one : Binary64 := ⟨false, 1, by decide +kernel⟩
  let nano : Duration := ⟨1, by decide⟩
  have hnano : nano.scale one = .ok nano := by decide +kernel
  obtain ⟨c, hc, hle⟩ := scale_mono (d := nano) (x := one) hd (by decide +kernel) hx he
  rw [hnano] at hc
  cases hc
  exact hle

end InverterLink.Proofs
