import InverterLink.Proofs.Checksum

/-!
# Differences that a checksum shows

A register takes in the difference of two texts as the difference of what it makes of them, so
two texts with their checksums behind them can only be told apart if their difference leaves
something in an empty register. What it leaves is the syndrome of the difference. This file shows
that the syndrome is not zero for an odd number of bits, for two bits that are not too far apart,
and for bits within the width of the register.
-/

namespace InverterLink.Proofs
open Crc

/-- What some bits leave in an empty register. -/
def syndrome (bits : List Bool) : UInt16 := bits.foldl shiftBit 0

lemma shiftBit_xor (v w : UInt16) (a b : Bool) :
    shiftBit (v ^^^ w) (a ^^ b) = shiftBit v a ^^^ shiftBit w b := by
  have hbit : (if (a ^^ b) then polynomial else 0) =
      (if a then polynomial else 0) ^^^ (if b then polynomial else 0) := by
    cases a <;> cases b <;> rfl
  rw [shiftBit_eq, shiftBit_eq, shiftBit_eq, shift_xor, hbit]
  ac_rfl

/-- The register after the difference of two lists of bits is the difference of the registers. -/
theorem foldl_shiftBit_zipWith {first second : List Bool} (h : first.length = second.length)
    (v w : UInt16) :
    (List.zipWith xor first second).foldl shiftBit (v ^^^ w) =
      first.foldl shiftBit v ^^^ second.foldl shiftBit w := by
  induction first generalizing second v w with
  | nil =>
    obtain rfl := List.length_eq_zero_iff.mp h.symm
    rfl
  | cons a first ih =>
    cases second with
    | nil => simp at h
    | cons b second =>
      rw [List.zipWith_cons_cons, List.foldl_cons, List.foldl_cons, List.foldl_cons, shiftBit_xor]
      apply ih
      simpa using h

theorem syndrome_append (first second : List Bool) :
    syndrome (first ++ second) =
      Nat.repeat shift second.length (syndrome first) ^^^ syndrome second := by
  have h := foldl_shiftBit_xor second (syndrome first) 0
  rw [UInt16.xor_zero] at h
  rw [syndrome, List.foldl_append]
  exact h

/-! ### Shifts lose nothing -/

lemma getLsbD_shiftLeft_succ (v : UInt16) {i : Nat} (hi : i + 1 < 16) :
    (v <<< 1).toBitVec.getLsbD (i + 1) = v.toBitVec.getLsbD i := by
  simp [-BitVec.getLsbD_eq_getElem, hi]

lemma getLsbD_shift_zero (v : UInt16) :
    (shift v).toBitVec.getLsbD 0 = v.toBitVec.getLsbD 15 := by
  rw [shift_eq]
  cases h : v.toBitVec.getLsbD 15 <;> simp [polynomial]

lemma shift_eq_zero_iff (v : UInt16) : shift v = 0 ↔ v = 0 := by
  constructor
  · intro h
    -- the bit that falls out comes back at the other end
    have htop : v.toBitVec.getLsbD 15 = false := by
      rw [← getLsbD_shift_zero, h]
      rfl
    rw [shift_eq, htop] at h
    apply UInt16.toBitVec_inj.mp
    apply BitVec.eq_of_getLsbD_eq
    intro i hi
    by_cases hi' : i = 15
    · rw [hi', htop]
      rfl
    · rw [← getLsbD_shiftLeft_succ v (by omega)]
      rw [if_neg (by decide), UInt16.xor_zero] at h
      rw [h]
      simp
  · rintro rfl
    rfl

lemma repeat_shift_zero (n : Nat) : Nat.repeat shift n 0 = 0 := by
  induction n with
  | zero => rfl
  | succ n ih => rw [Nat.repeat, ih]; rfl

lemma repeat_shift_eq_zero_iff (n : Nat) (v : UInt16) : Nat.repeat shift n v = 0 ↔ v = 0 := by
  induction n with
  | zero => rfl
  | succ n ih => rw [Nat.repeat, shift_eq_zero_iff, ih]

lemma syndrome_falses (n : Nat) : syndrome (List.replicate n false) = 0 := by
  induction n with
  | zero => rfl
  | succ n ih =>
    rw [List.replicate_succ]
    exact ih

lemma syndrome_falses_append (n : Nat) (bits : List Bool) :
    syndrome (List.replicate n false ++ bits) = syndrome bits := by
  rw [syndrome_append, syndrome_falses, repeat_shift_zero, UInt16.zero_xor]

lemma syndrome_append_falses (bits : List Bool) (n : Nat) :
    syndrome (bits ++ List.replicate n false) = Nat.repeat shift n (syndrome bits) := by
  rw [syndrome_append, syndrome_falses, UInt16.xor_zero, List.length_replicate]

/-! ### An odd number of bits -/

/-- Whether the number of ones in a register is odd. -/
def parity (v : UInt16) : Bool :=
  (List.range 16).foldr (fun i odd => v.toBitVec.getLsbD i ^^ odd) false

lemma parity_xor (v w : UInt16) : parity (v ^^^ w) = (parity v ^^ parity w) := by
  simp only [parity, UInt16.toBitVec_xor, BitVec.getLsbD_xor]
  induction List.range 16 with
  | nil => rfl
  | cons i rest ih =>
    rw [List.foldr_cons, List.foldr_cons, List.foldr_cons, ih]
    simp only [Bool.xor_assoc, Bool.xor_left_comm]

lemma parity_shift (v : UInt16) : parity (shift v) = parity v := by
  have hp : parity (if v.toBitVec.getLsbD 15 then polynomial else 0) = v.toBitVec.getLsbD 15 := by
    cases v.toBitVec.getLsbD 15 <;> decide
  rw [shift_eq, parity_xor, hp]
  simp [parity, List.range_succ]

lemma parity_shiftBit (v : UInt16) (bit : Bool) : parity (shiftBit v bit) = (parity v ^^ bit) := by
  have hp : parity (if bit then polynomial else 0) = bit := by cases bit <;> decide
  rw [shiftBit_eq, parity_xor, parity_shift, hp]

lemma parity_syndrome (bits : List Bool) :
    parity (syndrome bits) = decide (bits.count true % 2 = 1) := by
  -- the register need not be empty, for the induction takes the bits from the front
  have h : ∀ v : UInt16, parity (bits.foldl shiftBit v) =
      (parity v ^^ decide (bits.count true % 2 = 1)) := by
    induction bits with
    | nil => simp
    | cons b rest ih =>
      intro v
      rw [List.foldl_cons, ih, parity_shiftBit, List.count_cons]
      cases b <;> rcases Nat.mod_two_eq_zero_or_one (rest.count true) with h | h <;>
        simp [h, Nat.add_mod]
  have hz : parity 0 = false := by decide
  rw [syndrome, h, hz, Bool.false_xor]

theorem syndrome_ne_zero_of_odd {bits : List Bool} (h : bits.count true % 2 = 1) :
    syndrome bits ≠ 0 := by
  intro hz
  have hp := parity_syndrome bits
  rw [hz, h] at hp
  revert hp
  decide

/-! ### Two bits -/

/-- A register comes to hold a value within some shifts. -/
def strikes (target v : UInt16) : Nat → Bool
  | 0 => false
  | n + 1 => shift v == target || strikes target (shift v) n

lemma ne_of_not_strikes {target v : UInt16} {n : Nat} (h : strikes target v n = false) {k : Nat}
    (hk : k < n) : Nat.repeat shift (k + 1) v ≠ target := by
  induction n generalizing v k with
  | zero => exact absurd hk (Nat.not_lt_zero k)
  | succ n ih =>
    simp only [strikes, Bool.or_eq_false_iff, beq_eq_false_iff_ne] at h
    cases k with
    | zero => exact h.1
    | succ k =>
      rw [← repeat_shift_shift]
      exact ih h.2 (by omega)

set_option maxRecDepth 100000 in
/-- The polynomial does not come back within the bits of the longest frame. -/
lemma polynomial_not_struck : strikes polynomial polynomial 2100 = false := by decide +kernel

lemma count_succ_split {bits : List Bool} {n : Nat} (h : bits.count true = n + 1) :
    ∃ i rest, bits = List.replicate i false ++ true :: rest ∧ rest.count true = n := by
  induction bits with
  | nil => simp at h
  | cons b rest ih =>
    cases b with
    | true => exact ⟨0, rest, rfl, by simpa using h⟩
    | false =>
      obtain ⟨i, rest', rfl, hr⟩ := ih (by simpa using h)
      exact ⟨i + 1, rest', rfl, hr⟩

lemma count_zero_iff {bits : List Bool} (h : bits.count true = 0) :
    bits = List.replicate bits.length false := by
  apply List.eq_replicate_of_mem
  intro b hb
  cases b with
  | false => rfl
  | true => exact absurd hb (List.count_eq_zero.mp h)

theorem syndrome_ne_zero_of_two {bits : List Bool} (h : bits.count true = 2)
    (hl : bits.length ≤ 2100) : syndrome bits ≠ 0 := by
  obtain ⟨i, rest, rfl, hrest⟩ := count_succ_split h
  obtain ⟨j, last, rfl, hlast⟩ := count_succ_split hrest
  have hj : j < 2100 := by
    simp only [List.length_append, List.length_cons, List.length_replicate] at hl
    omega
  have hone : syndrome [true] = polynomial := by decide
  have htwo : syndrome ([true] ++ (List.replicate j false ++ [true])) =
      Nat.repeat shift (j + 1) polynomial ^^^ polynomial := by
    rw [syndrome_append, syndrome_falses_append, hone]
    simp
  have hbits : List.replicate i false ++ true :: (List.replicate j false ++ true :: last) =
      List.replicate i false ++ (([true] ++ (List.replicate j false ++ [true])) ++
        List.replicate last.length false) := by
    rw [← count_zero_iff hlast]
    simp
  rw [hbits, syndrome_falses_append, syndrome_append_falses, htwo, ne_eq,
    repeat_shift_eq_zero_iff]
  intro hz
  exact ne_of_not_strikes polynomial_not_struck hj (UInt16.xor_eq_zero_iff.mp hz)

/-! ### Bits within the width of the register -/

lemma held_of_emptied {bits : List Bool} {v : UInt16} (hl : bits.length ≤ 16)
    (hz : bits.foldl shiftBit v = 0) :
    (∀ i, i + bits.length < 16 → v.toBitVec.getLsbD i = false) ∧
      (v = 0 → ∀ b ∈ bits, b = false) := by
  induction bits generalizing v with
  | nil =>
    obtain rfl : v = 0 := hz
    exact ⟨fun i _ => by simp, fun _ b hb => absurd hb List.not_mem_nil⟩
  | cons b rest ih =>
    rw [List.length_cons] at hl
    obtain ⟨hlow, hrest⟩ := ih (v := shiftBit v b) (by omega) hz
    -- the lowest bit says that nothing was subtracted, for the polynomial has a constant term
    have hb : b = v.toBitVec.getLsbD 15 := by
      have h := hlow 0 (by omega)
      rw [shiftBit_eq, UInt16.toBitVec_xor, BitVec.getLsbD_xor, getLsbD_shift_zero] at h
      cases b <;> simpa [polynomial] using h
    have hv : shiftBit v b = v <<< 1 := by
      rw [shiftBit_eq, shift_eq, ← hb]
      cases b <;> simp
    refine ⟨fun i hi => ?_, fun hv0 c hc => ?_⟩
    · rw [List.length_cons] at hi
      have h := hlow (i + 1) (by omega)
      rwa [hv, getLsbD_shiftLeft_succ v (by omega)] at h
    · have hb' : b = false := by rw [hb, hv0]; simp
      rcases List.mem_cons.mp hc with rfl | hc
      · exact hb'
      · refine hrest ?_ c hc
        rw [hb', hv0]
        rfl

/-- The ones among some bits lie within a window of sixteen. -/
def IsBurst (bits : List Bool) : Prop :=
  ∃ first, ∀ i, bits[i]? = some true → first ≤ i ∧ i < first + 16

theorem syndrome_ne_zero_of_burst {bits : List Bool} (h : IsBurst bits) (hb : true ∈ bits) :
    syndrome bits ≠ 0 := by
  obtain ⟨first, hwindow⟩ := h
  intro hz
  have hleft : (bits.take first).count true = 0 := by
    apply List.count_eq_zero.mpr
    intro hm
    obtain ⟨i, hi, hget⟩ := List.getElem_of_mem hm
    rw [List.length_take] at hi
    have := (hwindow i (by rw [← hget]; simp)).1
    omega
  have hright : (bits.drop (first + 16)).count true = 0 := by
    apply List.count_eq_zero.mpr
    intro hm
    obtain ⟨i, hi, hget⟩ := List.getElem_of_mem hm
    have := (hwindow (first + 16 + i) (by rw [← hget]; simp)).2
    omega
  have hsplit : bits =
      bits.take first ++ ((bits.drop first).take 16 ++ bits.drop (first + 16)) := by
    rw [← List.drop_drop, List.take_append_drop, List.take_append_drop]
  rw [hsplit, count_zero_iff hleft, syndrome_falses_append, count_zero_iff hright,
    syndrome_append_falses, repeat_shift_eq_zero_iff] at hz
  have hnone := (held_of_emptied (by simp) hz).2 rfl
  rw [hsplit, List.mem_append, List.mem_append] at hb
  rcases hb with hb | hb | hb
  · exact List.count_eq_zero.mp hleft hb
  · exact Bool.noConfusion (hnone true hb)
  · exact List.count_eq_zero.mp hright hb

end InverterLink.Proofs
