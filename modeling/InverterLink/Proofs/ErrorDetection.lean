import InverterLink.Proofs.FrameText
import InverterLink.Proofs.Syndrome

/-!
# Damage that the checksum shows

A frame may be damaged in the bytes that its checksum covers and in the checksum itself. A few
bits, any odd number of bits and a burst in the covered bytes always leave a checksum that is
wrong, and a decoder drops the frame with a wrong checksum and counts it, whatever it held before.
-/

namespace InverterLink.Proofs
open Decoder InverterLink.Frame

/-- The two bytes behind a text that check it. -/
def checksum (text : List UInt8) : List UInt8 :=
  Datagram.wordBytes (({} : Crc).updateAll text).finish.value

lemma encode_eq_checked (g : Datagram) :
    g.encode = startMark :: escape (content g ++ checksum (content g)) := by
  rw [encode_eq, frameText_values, checksum, finish_updateAll]

/-! ### Differences of texts -/

/-- Where two texts differ, bit by bit and the highest bit of each byte first. -/
def differences (first second : List UInt8) : List Bool :=
  List.zipWith xor (first.flatMap Crc.bits) (second.flatMap Crc.bits)

/-- How many bits have to be flipped to make one text of another. -/
def flips (first second : List UInt8) : Nat := (differences first second).count true

lemma bits_xor (a b : UInt8) :
    List.zipWith xor (Crc.bits a) (Crc.bits b) = Crc.bits (a ^^^ b) := by
  simp only [Crc.bits, List.map_cons, List.map_nil, List.zipWith_cons_cons, List.zipWith_nil_left,
    UInt8.toNat_xor, Nat.testBit_xor]

lemma eq_zero_of_bits {b : UInt8} (h : true ∉ Crc.bits b) : b = 0 := by
  revert h
  apply forall_byte (b := b)
  decide +kernel

lemma length_flatMap_bits (text : List UInt8) :
    (text.flatMap Crc.bits).length = 8 * text.length := by
  induction text with
  | nil => rfl
  | cons b rest ih =>
    rw [List.flatMap_cons, List.length_append, ih, List.length_cons]
    simp only [Crc.bits, List.length_map, List.length_cons, List.length_nil]
    omega

lemma differences_cons (a b : UInt8) (first second : List UInt8) :
    differences (a :: first) (b :: second) = Crc.bits (a ^^^ b) ++ differences first second := by
  rw [← bits_xor, differences, List.flatMap_cons, List.flatMap_cons]
  exact List.zipWith_append rfl

lemma differences_append {first second : List UInt8} (h : first.length = second.length)
    (more more' : List UInt8) :
    differences (first ++ more) (second ++ more') =
      differences first second ++ differences more more' := by
  rw [differences, List.flatMap_append, List.flatMap_append]
  apply List.zipWith_append
  rw [length_flatMap_bits, length_flatMap_bits, h]

lemma differences_self (text : List UInt8) :
    differences text text = List.replicate (8 * text.length) false := by
  induction text with
  | nil => rfl
  | cons b rest ih =>
    rw [differences_cons, ih, UInt8.xor_self, List.length_cons, Nat.mul_succ, Nat.add_comm,
      List.replicate_add]
    rfl

lemma length_differences {first second : List UInt8} (h : first.length = second.length) :
    (differences first second).length = 8 * first.length := by
  rw [differences, List.length_zipWith, length_flatMap_bits, length_flatMap_bits, h, Nat.min_self]

lemma flips_self (text : List UInt8) : flips text text = 0 := by
  rw [flips, differences_self, List.count_replicate]
  rfl

lemma eq_of_no_flips {first second : List UInt8} (h : first.length = second.length)
    (hd : flips first second = 0) : first = second := by
  induction first generalizing second with
  | nil => exact (List.length_eq_zero_iff.mp h.symm).symm
  | cons a first ih =>
    cases second with
    | nil => simp at h
    | cons b second =>
      rw [flips, differences_cons, List.count_append, Nat.add_eq_zero_iff] at hd
      have hab : a = b :=
        UInt8.xor_eq_zero_iff.mp (eq_zero_of_bits (List.count_eq_zero.mp hd.1))
      rw [hab, ih (by simpa using h) hd.2]

lemma flips_append {first second : List UInt8} (h : first.length = second.length)
    (more more' : List UInt8) :
    flips (first ++ more) (second ++ more') = flips first second + flips more more' := by
  rw [flips, differences_append h, List.count_append]
  rfl

/-! ### Texts with their checksums -/

lemma update_top (c : Crc) : (c.update (c.value >>> 8).toUInt8).value = c.value <<< 8 := by
  have h : (c.update (c.value >>> 8).toUInt8).value = (c.value <<< 8) ^^^
      (Crc.bits ((c.value >>> 8).toUInt8 ^^^ (c.value >>> 8).toUInt8)).foldl Crc.shiftBit 0 := by
    rw [← table_get]
    rfl
  have hz : (Crc.bits 0).foldl Crc.shiftBit 0 = 0 := by decide
  rw [h, UInt8.xor_self, hz, UInt16.xor_zero]

lemma low_of_shifted (v : UInt16) : ((v <<< 8) >>> 8).toUInt8 = v.toUInt8 := by
  apply byte_ext
  intro i hi
  simp [hi, show 8 + i < 16 by omega, -BitVec.getLsbD_eq_getElem]

lemma shifted_twice (v : UInt16) : (v <<< 8) <<< 8 = 0 := by
  apply UInt16.toBitVec_inj.mp
  apply BitVec.eq_of_getLsbD_eq
  intro i hi
  simp

lemma foldl_wordBytes (v : UInt16) :
    ((Datagram.wordBytes v).flatMap Crc.bits).foldl Crc.shiftBit v = 0 := by
  have h := updateAll_value ⟨v, false⟩ (Datagram.wordBytes v)
  have hone : (Crc.update ⟨v, false⟩ (v >>> 8).toUInt8) = ⟨v <<< 8, true⟩ := by
    have hv := update_top ⟨v, false⟩
    generalize hc : Crc.update ⟨v, false⟩ (v >>> 8).toUInt8 = c at hv
    have ho : c.odd = true := by rw [← hc]; rfl
    cases c
    simp only at hv ho
    rw [hv, ho]
  have htwo : (Crc.update ⟨v <<< 8, true⟩ v.toUInt8).value = (v <<< 8) <<< 8 := by
    rw [← low_of_shifted]
    exact update_top ⟨v <<< 8, true⟩
  rw [← h]
  change (Crc.update (Crc.update ⟨v, false⟩ (v >>> 8).toUInt8) v.toUInt8).value = 0
  rw [hone, htwo, shifted_twice]

/-- The register is empty behind a text with its checksum. -/
lemma register_checked (text : List UInt8) :
    ((Crc.padded text ++ checksum text).flatMap Crc.bits).foldl Crc.shiftBit 0xFFFF = 0 := by
  rw [checksum, finish_updateAll, List.flatMap_append, List.foldl_append]
  exact foldl_wordBytes (Crc.bitwise (Crc.padded text))

lemma length_padded {first second : List UInt8} (h : first.length = second.length) :
    (Crc.padded first).length = (Crc.padded second).length := by
  unfold Crc.padded
  rw [h]
  split <;> simp [h]

lemma differences_padded {first second : List UInt8} (h : first.length = second.length) :
    ∃ n ≤ 8, differences (Crc.padded first) (Crc.padded second) =
      differences first second ++ List.replicate n false := by
  unfold Crc.padded
  rw [h]
  split
  · refine ⟨8, le_rfl, ?_⟩
    rw [differences_append h, differences_self]
    rfl
  · exact ⟨0, by omega, by simp⟩

/-- The difference of two texts that both carry their checksums leaves nothing in the register. -/
theorem syndrome_checked {first second : List UInt8} (h : first.length = second.length) :
    ∃ n ≤ 8, syndrome (differences first second ++
      (List.replicate n false ++ differences (checksum first) (checksum second))) = 0 := by
  obtain ⟨n, hn, hp⟩ := differences_padded h
  refine ⟨n, hn, ?_⟩
  have hl : ((Crc.padded first ++ checksum first).flatMap Crc.bits).length =
      ((Crc.padded second ++ checksum second).flatMap Crc.bits).length := by
    rw [length_flatMap_bits, length_flatMap_bits, List.length_append, List.length_append,
      length_padded h]
    rfl
  have hx := foldl_shiftBit_zipWith hl 0xFFFF 0xFFFF
  rw [register_checked, register_checked] at hx
  rw [← List.append_assoc, ← hp, ← differences_append (length_padded h)]
  exact hx

/-- Damage that always shows: three bits or fewer, an odd number of bits, or a burst in the text
alone. -/
def Detectable (text check text' check' : List UInt8) : Prop :=
  flips (text ++ check) (text' ++ check') ≤ 3 ∨
    flips (text ++ check) (text' ++ check') % 2 = 1 ∨
    check' = check ∧ IsBurst (differences text text')

/-- The longest text that a checksum covers, in bytes. -/
def maxText : Nat := maxPayload + 6

/-- A text with detectable damage does not have the checksum that stands behind it. -/
theorem checksum_ne_of_detectable {text text' check' : List UInt8}
    (hl : text.length = text'.length) (hshort : text.length ≤ maxText) (hc : check'.length = 2)
    (hne : (text', check') ≠ (text, checksum text))
    (hd : Detectable text (checksum text) text' check') : checksum text' ≠ check' := by
  rintro rfl
  obtain ⟨n, hn, hz⟩ := syndrome_checked hl
  have hcheck : (checksum text).length = (checksum text').length := rfl
  have hflips := flips_append hl (checksum text) (checksum text')
  have hcount : (differences text text' ++ (List.replicate n false ++
      differences (checksum text) (checksum text'))).count true =
      flips (text ++ checksum text) (text' ++ checksum text') := by
    rw [hflips, List.count_append, List.count_append, flips, flips]
    simp [List.count_replicate]
  have hsome : flips (text ++ checksum text) (text' ++ checksum text') ≠ 0 := by
    intro h
    obtain ⟨ht, hs⟩ := List.append_inj (eq_of_no_flips (by simp [hl, hcheck]) h) hl
    exact hne (by rw [ht])
  have hlong : (differences text text' ++ (List.replicate n false ++
      differences (checksum text) (checksum text'))).length ≤ 2100 := by
    rw [List.length_append, List.length_append, length_differences hl, length_differences hcheck,
      List.length_replicate]
    have : text.length ≤ 257 := hshort
    change 8 * text.length + (n + 8 * 2) ≤ 2100
    omega
  rcases hd with hfew | hodd | ⟨hsame, hburst⟩
  · rcases (by omega : flips (text ++ checksum text) (text' ++ checksum text') = 2 ∨
      flips (text ++ checksum text) (text' ++ checksum text') % 2 = 1) with h | h
    · exact syndrome_ne_zero_of_two (hcount.trans h) hlong hz
    · exact syndrome_ne_zero_of_odd (by rw [hcount, h]) hz
  · exact syndrome_ne_zero_of_odd (by rw [hcount, hodd]) hz
  · -- what stands behind the burst only moves it on
    rw [hsame, differences_self, ← List.replicate_add, syndrome_append_falses,
      repeat_shift_eq_zero_iff] at hz
    refine syndrome_ne_zero_of_burst hburst ?_ hz
    by_contra hnone
    rw [hflips, hsame, flips_self] at hsome
    exact hsome (List.count_eq_zero.mpr hnone)

/-! ### Damaged frames -/

lemma exists_frameText {text check : List UInt8} (ht : identifierSize + 2 ≤ text.length)
    (hc : check.length = 2) :
    ∃ f : FrameText, f.covered = text ∧ [f.crc1, f.crc0] = check := by
  match text, check, ht, hc with
  | command :: size :: id3 :: id2 :: id1 :: id0 :: payload, [crc1, crc0], _, _ =>
    exact ⟨⟨command, size, id3, id2, id1, id0, payload, crc1, crc0⟩, rfl, rfl⟩

lemma content_length (g : Datagram) : (content g).length = g.payload.length + 6 := by
  rw [content, List.length_cons, List.length_cons, List.length_append,
    Nat.add_comm _ g.payload.length]
  rfl

lemma size_toNat {g : Datagram} (hg : g.Fits) :
    (UInt8.ofNat (g.payload.length + identifierSize)).toNat = g.payload.length + 4 := by
  have hl : g.payload.length ≤ 251 := hg
  rw [UInt8.toNat_ofNat']
  simp only [identifierSize]
  omega

lemma checksum_covered {f : FrameText} (h : checksum f.covered ≠ [f.crc1, f.crc0]) :
    (({} : Crc).updateAll f.covered).finish.value ≠ joinWord f.crc1 f.crc0 := by
  intro he
  apply h
  rw [checksum, he, wordBytes_joinWord]

/-- Damage of a few bits, of an odd number of bits or of one burst in the covered bytes always
leaves a wrong checksum. If the size and a known command are left, any decoder without an escape
mark behind it drops the frame and counts it. -/
theorem damage_detected (g : Datagram) (hg : g.Fits) (text check : List UInt8)
    (hl : text.length = (content g).length) (hc : check.length = 2)
    (hne : (text, check) ≠ (content g, checksum (content g)))
    (hd : Detectable (content g) (checksum (content g)) text check) :
    g.encode = startMark :: escape (content g ++ checksum (content g)) ∧
      checksum text ≠ check ∧
      (text[1]? = (content g)[1]? → (∃ c, text[0]?.bind Command.ofCode? = some c) →
        ∀ p : Decoder, p.escaped = false →
          let q := p.decode (startMark :: escape (text ++ check))
          q.2 = [] ∧ q.1.phase = .awaitingStart ∧
            q.1.statistics.crcErrors = p.statistics.crcErrors + 1) := by
  have hlen := content_length g
  have hshort : (content g).length ≤ maxText := by
    have hfit : g.payload.length ≤ maxPayload := hg
    rw [hlen, maxText]
    omega
  have hcrc : checksum text ≠ check := checksum_ne_of_detectable hl.symm hshort hc hne hd
  refine ⟨encode_eq_checked g, hcrc, fun hsize hcommand p hp => ?_⟩
  obtain ⟨c, hcommand⟩ := hcommand
  obtain ⟨f, rfl, rfl⟩ := exists_frameText (by rw [hl, hlen, identifierSize]; omega) hc
  have hb : f.size = UInt8.ofNat (g.payload.length + identifierSize) := by
    injection hsize
  have hs : f.size.toNat = g.payload.length + 4 := by rw [hb, size_toNat hg]
  have hpayload : f.payload.length = g.payload.length := by
    have h : f.covered.length = f.payload.length + 6 := by
      rw [FrameText.covered, List.length_append, Nat.add_comm]
      rfl
    omega
  have hread := readLiterals_wrong (d := p.restart) rfl hcommand (by rw [hs, identifierSize]; omega)
    (by rw [hs, hpayload, identifierSize]; omega) (checksum_covered hcrc)
  have hr : p.restart.escaped = false := hp
  have hdecode : p.decode (startMark :: escape (f.covered ++ [f.crc1, f.crc0])) =
      (afterWrong p.restart f c, []) := by
    rw [decode_cons, feed_startMark hp, decode_escape hr]
    exact congrArg (fun r : Decoder × List Datagram => (r.1, r.2)) hread
  rw [hdecode]
  refine ⟨rfl, rfl, ?_⟩
  change p.restart.statistics.crcErrors + 1 = p.statistics.crcErrors + 1
  rw [restart]
  split <;> rfl

/-- All sixteen bits of the last two covered bytes are flipped, in a frame that begins while
another one is in progress. -/
theorem burst_detected :
    let g : Datagram := ⟨.read, ⟨0x400F015B⟩, []⟩
    let text : List UInt8 := [0x01, 0x04, 0x40, 0x0F, 0xFE, 0xA4]
    let check : List UInt8 := [0x58, 0xB4]
    let p := (({} : Decoder).decode [0x2B, 0x05, 0x2D, 0x2B]).1
    g.Fits ∧ (text, check) ≠ (content g, checksum (content g)) ∧
      Detectable (content g) (checksum (content g)) text check ∧
      p.escaped = false ∧ p.phase = .awaitingId0 ∧ checksum text ≠ check ∧
      (p.decode (startMark :: escape (text ++ check))).2 = [] ∧
      (p.decode (startMark :: escape (text ++ check))).1.statistics.crcErrors = 1 := by
  intro g text check p
  have hg : g.Fits := by decide
  have hne : (text, check) ≠ (content g, checksum (content g)) := by decide +kernel
  have hburst : IsBurst (differences (content g) text) := by
    refine ⟨32, fun i hi => ?_⟩
    have hl : i < 48 := (List.getElem?_eq_some_iff.mp hi).1
    revert hi
    revert i
    decide +kernel
  have hd : Detectable (content g) (checksum (content g)) text check :=
    .inr (.inr ⟨by decide +kernel, hburst⟩)
  have hl : text.length = (content g).length := by decide +kernel
  have hsize : text[1]? = (content g)[1]? := by decide +kernel
  have hp : p.escaped = false := by decide +kernel
  have hz : p.statistics.crcErrors = 0 := by decide +kernel
  obtain ⟨-, hcrc, hread⟩ := damage_detected g hg text check hl rfl hne hd
  obtain ⟨hnone, -, hcount⟩ := hread hsize ⟨.read, rfl⟩ p hp
  rw [hz] at hcount
  exact ⟨hg, hne, hd, hp, by decide +kernel, hcrc, hnone, hcount⟩

end InverterLink.Proofs
