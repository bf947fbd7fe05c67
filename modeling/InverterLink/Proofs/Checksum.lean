import InverterLink.Crc
import Mathlib

/-!
# The table of the checksum

A shift of the register is linear in exclusive or, so eight shifts may be done in any order with
the bits of the byte that comes in. This file proves that folding in a byte from the table is
folding in its bits one at a time, and that a finished checksum is the bitwise one of the padded
bytes. Whatever a caller does with a checksum, it holds what the bytes since the last reset make
of it, with a zero wherever it was finished behind an odd count of them.
-/

namespace InverterLink.Proofs
open Crc

lemma highBit_iff (v : UInt16) : v &&& 0x8000 ≠ 0 ↔ v.toBitVec.getLsbD 15 = true := by
  have h : (v &&& 0x8000).toBitVec =
      if v.toBitVec.getLsbD 15 then BitVec.twoPow 16 15 else 0#16 := by
    rw [UInt16.toBitVec_and, ← BitVec.and_twoPow]
    rfl
  rw [ne_eq, ← UInt16.toBitVec_inj, h]
  cases v.toBitVec.getLsbD 15 <;> decide

lemma shift_eq (v : UInt16) :
    shift v = (v <<< 1) ^^^ (if v.toBitVec.getLsbD 15 then polynomial else 0) := by
  unfold shift
  simp only [highBit_iff]
  split <;> simp

theorem shift_xor (v w : UInt16) : shift (v ^^^ w) = shift v ^^^ shift w := by
  have hs : (v ^^^ w) <<< 1 = (v <<< 1) ^^^ (w <<< 1) := UInt16.shiftLeft_xor
  have hp : ∀ x y p : UInt16, x ^^^ y = x ^^^ p ^^^ (y ^^^ p) := by
    intro x y p
    rw [UInt16.xor_comm y p, UInt16.xor_assoc, ← UInt16.xor_assoc p p y, UInt16.xor_self,
      UInt16.zero_xor]
  rw [shift_eq, shift_eq v, shift_eq w, hs, UInt16.toBitVec_xor, BitVec.getLsbD_xor]
  cases v.toBitVec.getLsbD 15 <;> cases w.toBitVec.getLsbD 15
  · simp
  · simp [UInt16.xor_assoc]
  · simp [UInt16.xor_assoc, UInt16.xor_comm polynomial]
  · simpa using hp _ _ polynomial

lemma shiftBit_eq (v : UInt16) (bit : Bool) :
    shiftBit v bit = shift v ^^^ (if bit then polynomial else 0) := by
  unfold shiftBit
  rw [shift_eq]
  simp only [highBit_iff]
  cases v.toBitVec.getLsbD 15
  · cases bit <;> simp
  · cases bit
    · simp
    · simp only [ne_eq, not_true_eq_false, if_false, if_true]
      rw [UInt16.xor_assoc, UInt16.xor_self, UInt16.xor_zero]

theorem repeat_shift_xor (n : Nat) (v w : UInt16) :
    Nat.repeat shift n (v ^^^ w) = Nat.repeat shift n v ^^^ Nat.repeat shift n w := by
  induction n with
  | zero => rfl
  | succ n ih => rw [Nat.repeat, Nat.repeat, Nat.repeat, ih, shift_xor]

lemma repeat_shift_shift (n : Nat) (v : UInt16) :
    Nat.repeat shift n (shift v) = Nat.repeat shift (n + 1) v := by
  induction n with
  | zero => rfl
  | succ n ih =>
    rw [Nat.repeat, ih]
    rfl

/-- What the register held and what the bits bring in can be told apart. -/
theorem foldl_shiftBit_xor (bits : List Bool) (v w : UInt16) :
    bits.foldl shiftBit (v ^^^ w) =
      Nat.repeat shift bits.length v ^^^ bits.foldl shiftBit w := by
  induction bits generalizing v w with
  | nil => rfl
  | cons bit rest ih =>
    have h : shiftBit (v ^^^ w) bit = shift v ^^^ shiftBit w bit := by
      rw [shiftBit_eq, shiftBit_eq, shift_xor, UInt16.xor_assoc]
    rw [List.foldl_cons, List.foldl_cons, h, ih, repeat_shift_shift, List.length_cons]

lemma forall_byte {p : UInt8 → Prop} (h : ∀ n < 256, p (UInt8.ofNat n)) (b : UInt8) : p b := by
  have hb := h b.toNat b.toNat_lt
  rwa [UInt8.ofNat_toNat] at hb

lemma repeat_shift_high (b : UInt8) :
    Nat.repeat shift 8 (b.toUInt16 <<< 8) = (bits b).foldl shiftBit 0 := by
  apply forall_byte (b := b)
  decide +kernel

lemma repeat_shift_low (b : UInt8) : Nat.repeat shift 8 b.toUInt16 = b.toUInt16 <<< 8 := by
  apply forall_byte (b := b)
  decide +kernel

lemma table_get (b : UInt8) :
    table.get ⟨b.toNat, b.toNat_lt⟩ = (bits b).foldl shiftBit 0 := by
  have h : b.toUInt16 = UInt16.ofNat b.toNat := by simp
  rw [← repeat_shift_high, h]
  simp [table, Vector.get_ofFn]

lemma register_split (v : UInt16) :
    v = ((v >>> 8).toUInt8.toUInt16 <<< 8) ^^^ v.toUInt8.toUInt16 := by
  apply UInt16.toBitVec_inj.mp
  apply BitVec.eq_of_getLsbD_eq
  intro i hi
  by_cases h : i < 8
  · simp [h, hi, -UInt16.toUInt16_toUInt8]
  · simp [h, hi, -UInt16.toUInt16_toUInt8, show 8 + (i - 8) = i by omega, show i - 8 < 8 by omega]

lemma register_shift (v : UInt16) : v <<< 8 = v.toUInt8.toUInt16 <<< 8 := by
  apply UInt16.toBitVec_inj.mp
  apply BitVec.eq_of_getLsbD_eq
  intro i hi
  by_cases h : i < 8
  · simp [h]
  · simp [h, hi, -UInt16.toUInt16_toUInt8, show i - 8 < 8 by omega, show i - 8 < 16 by omega]

/-- Folding in one byte from the table is folding in its bits. -/
theorem update_value (c : Crc) (b : UInt8) :
    (c.update b).value = (bits b).foldl shiftBit c.value := by
  have hlow : c.value <<< 8 = Nat.repeat shift 8 c.value.toUInt8.toUInt16 := by
    rw [repeat_shift_low, register_shift]
  have hxor : ((c.value >>> 8).toUInt8 ^^^ b).toUInt16 <<< 8 =
      ((c.value >>> 8).toUInt8.toUInt16 <<< 8) ^^^ (b.toUInt16 <<< 8) := by
    rw [UInt8.toUInt16_xor, UInt16.shiftLeft_xor]
  -- the table sees the upper byte of the register and the new byte together
  calc (c.update b).value
      = (c.value <<< 8) ^^^ (bits ((c.value >>> 8).toUInt8 ^^^ b)).foldl shiftBit 0 := by
        rw [← table_get]
        rfl
    _ = Nat.repeat shift 8 c.value.toUInt8.toUInt16 ^^^
          (Nat.repeat shift 8 ((c.value >>> 8).toUInt8.toUInt16 <<< 8) ^^^
            Nat.repeat shift 8 (b.toUInt16 <<< 8)) := by
        rw [hlow, ← repeat_shift_high, hxor, repeat_shift_xor]
    _ = Nat.repeat shift 8 c.value ^^^ (bits b).foldl shiftBit 0 := by
        rw [← UInt16.xor_assoc, ← repeat_shift_xor, UInt16.xor_comm c.value.toUInt8.toUInt16,
          ← register_split, repeat_shift_high]
    _ = (bits b).foldl shiftBit c.value := by
        have h := foldl_shiftBit_xor (bits b) c.value 0
        rw [UInt16.xor_zero] at h
        rw [h]
        rfl

theorem updateAll_value (c : Crc) (bytes : List UInt8) :
    (c.updateAll bytes).value = (bytes.flatMap bits).foldl shiftBit c.value := by
  induction bytes generalizing c with
  | nil => rfl
  | cons b rest ih =>
    rw [List.flatMap_cons, List.foldl_append, ← update_value]
    exact ih (c.update b)

lemma updateAll_append (c : Crc) (first second : List UInt8) :
    c.updateAll (first ++ second) = (c.updateAll first).updateAll second := by
  rw [updateAll, List.foldl_append]
  rfl

lemma updateAll_concat (c : Crc) (bytes : List UInt8) (b : UInt8) :
    c.updateAll (bytes ++ [b]) = (c.updateAll bytes).update b :=
  updateAll_append c bytes [b]

lemma updateAll_odd (c : Crc) (bytes : List UInt8) :
    (c.updateAll bytes).odd = (c.odd ^^ decide (bytes.length % 2 = 1)) := by
  induction bytes generalizing c with
  | nil => simp [updateAll]
  | cons b rest ih =>
    have h : (c.updateAll (b :: rest)).odd = (!c.odd ^^ decide (rest.length % 2 = 1)) :=
      ih (c.update b)
    rw [h, List.length_cons]
    rcases Nat.mod_two_eq_zero_or_one rest.length with he | he <;>
      simp [he, Nat.add_mod]

lemma updateAll_fresh_odd (bytes : List UInt8) :
    (({} : Crc).updateAll bytes).odd = decide (bytes.length % 2 = 1) := by
  simp [updateAll_odd]

/-! ### Padding -/

lemma finish_of_odd {c : Crc} (h : c.odd = true) : c.finish = c.update 0 := if_pos h

lemma finish_of_even {c : Crc} (h : c.odd = false) : c.finish = c := by
  rw [finish, h]
  rfl

lemma finish_even (c : Crc) : c.finish.odd = false := by
  cases h : c.odd with
  | false => rw [finish_of_even h, h]
  | true =>
    rw [finish_of_odd h, update, h]
    rfl

theorem finish_finish (c : Crc) : c.finish.finish = c.finish := finish_of_even (finish_even c)

lemma finish_updateAll_zero {c : Crc} {text : List UInt8} (h : (c.updateAll text).odd = true) :
    (c.updateAll (text ++ [0])).finish = (c.updateAll text).finish := by
  rw [updateAll_concat, ← finish_of_odd h, finish_finish]

/-- To finish is to fold in what the bytes lack to an even count. -/
theorem finish_eq_updateAll (bytes : List UInt8) :
    (({} : Crc).updateAll bytes).finish = ({} : Crc).updateAll (padded bytes) := by
  have hodd := updateAll_fresh_odd bytes
  by_cases h : bytes.length % 2 = 1
  · rw [padded, if_pos h, finish_of_odd (hodd.trans (decide_eq_true h)), updateAll_concat]
  · rw [padded, if_neg h, finish_of_even (hodd.trans (decide_eq_false h))]

theorem updateAll_fresh_value (bytes : List UInt8) :
    (({} : Crc).updateAll bytes).value = bitwise bytes :=
  updateAll_value {} bytes

/-- A finished checksum is the bitwise one of the bytes, padded to an even count. -/
theorem finish_updateAll (bytes : List UInt8) :
    ((({} : Crc).updateAll bytes).finish).value = bitwise (padded bytes) := by
  rw [finish_eq_updateAll, updateAll_fresh_value]

-- a request to read the battery power
example : (({} : Crc).updateAll [0x01, 0x04, 0x40, 0x0F, 0x01, 0x5B]).finish.value = 0x58B4 := by
  decide +kernel

/-! ### Histories -/

/-- What a caller can do with a checksum. -/
inductive CrcUse where
  | update (b : UInt8)
  | updateAll (bytes : List UInt8)
  | reset
  | finish

def useCrc (c : Crc) : CrcUse → Crc
  | .update b => c.update b
  | .updateAll bytes => c.updateAll bytes
  | .reset => c.reset
  | .finish => c.finish

/-- The bytes folded in since the last reset, with one use more. Finishing folds in a zero behind an
odd count of bytes and nothing behind an even one. -/
def foldIn (bytes : List UInt8) : CrcUse → List UInt8
  | .update b => bytes ++ [b]
  | .updateAll more => bytes ++ more
  | .reset => []
  | .finish => padded bytes

/-- The bytes that a history folded in since its last reset. -/
def foldedIn (history : List CrcUse) : List UInt8 := history.foldl foldIn []

/-- A checksum knows of its past what the bytes since the last reset tell. -/
lemma useCrc_updateAll (bytes : List UInt8) (use : CrcUse) :
    useCrc (({} : Crc).updateAll bytes) use = ({} : Crc).updateAll (foldIn bytes use) := by
  cases use with
  | update b => exact (updateAll_concat {} bytes b).symm
  | updateAll more => exact (updateAll_append {} bytes more).symm
  | reset => rfl
  | finish => exact finish_eq_updateAll bytes

theorem history_eq_updateAll (history : List CrcUse) :
    history.foldl useCrc {} = ({} : Crc).updateAll (foldedIn history) := by
  change history.foldl useCrc (({} : Crc).updateAll []) = _
  exact List.foldl_hom ({} : Crc).updateAll useCrc_updateAll

lemma finish_idle (c : Crc) {idle : List CrcUse}
    (h : ∀ use ∈ idle, use = .finish ∨ use = .updateAll []) :
    idle.foldl useCrc c.finish = c.finish := by
  induction idle with
  | nil => rfl
  | cons use rest ih =>
    have hone : useCrc c.finish use = c.finish := by
      rcases h use List.mem_cons_self with rfl | rfl
      · exact finish_finish c
      · rfl
    rw [List.foldl_cons, hone]
    exact ih fun use hu => h use (List.mem_cons_of_mem _ hu)

/-- Whatever was done with a checksum, its register is the bitwise one of the bytes folded in
since the last reset. Its finished value is that of these bytes padded to an even count, and stays
as it is until the next update. After a reset, a zero behind an odd count of bytes makes no
difference to the finished checksum. -/
theorem register_of_history (history : List CrcUse) :
    let c := history.foldl useCrc {}
    let bytes := foldedIn history
    c.value = bitwise bytes ∧ c.odd = decide (bytes.length % 2 = 1) ∧
      c.finish.value = bitwise (padded bytes) ∧
      (∀ earlier, (earlier ++ .reset :: history).foldl useCrc {} = c) ∧
      (∀ idle : List CrcUse, (∀ use ∈ idle, use = .finish ∨ use = .updateAll []) →
        idle.foldl useCrc c.finish = c.finish) ∧
      ∀ text : List UInt8, text.length % 2 = 1 →
        (c.reset.updateAll (text ++ [0])).finish = (c.reset.updateAll text).finish := by
  intro c bytes
  have hc : c = ({} : Crc).updateAll bytes := history_eq_updateAll history
  refine ⟨?_, ?_, ?_, fun earlier => ?_, fun idle => finish_idle c, fun text htext => ?_⟩
  · rw [hc, updateAll_fresh_value]
  · rw [hc, updateAll_fresh_odd]
  · rw [hc, finish_updateAll]
  · rw [List.foldl_append]
    rfl
  · have hodd := (updateAll_fresh_odd text).trans (decide_eq_true htext)
    exact finish_updateAll_zero hodd

/-- A checksum is finished twice in the midst of its bytes, and the first time behind an odd count
of them. -/
theorem finished_amid_bytes :
    let history : List CrcUse := [.updateAll [0xFF, 0x2D], .reset, .update 0x01, .finish, .finish,
      .updateAll [0x40, 0x0F], .finish, .update 0x5B]
    let c := history.foldl useCrc {}
    let text : List UInt8 := [0x01, 0x02, 0x03]
    foldedIn history = [0x01, 0x00, 0x40, 0x0F, 0x5B] ∧
      c.value = bitwise [0x01, 0x00, 0x40, 0x0F, 0x5B] ∧
      c.finish.value = bitwise [0x01, 0x00, 0x40, 0x0F, 0x5B, 0x00] ∧
      [.finish, .updateAll [], .finish].foldl useCrc c.finish = c.finish ∧
      text.length % 2 = 1 ∧
      (c.reset.updateAll text).value ≠ (c.reset.updateAll (text ++ [0])).value ∧
      (c.reset.updateAll (text ++ [0])).finish = (c.reset.updateAll text).finish := by
  intro history c text
  have hbytes : foldedIn history = [0x01, 0x00, 0x40, 0x0F, 0x5B] := by decide +kernel
  have htext : text.length % 2 = 1 := by decide +kernel
  obtain ⟨hvalue, -, hfinish, -, hidle, hzero⟩ := register_of_history history
  rw [hbytes] at hvalue hfinish
  exact ⟨hbytes, hvalue, hfinish, hidle _ (by simp), htext, by decide +kernel, hzero text htext⟩

end InverterLink.Proofs
