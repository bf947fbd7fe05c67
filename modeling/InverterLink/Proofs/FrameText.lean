import InverterLink.Frame.Builder
import InverterLink.Proofs.Checksum
import InverterLink.Proofs.DecoderRuns

/-!
# The text of a frame

The text of a frame is what stands behind its start mark once the escape marks are gone. This
file says which texts spell which datagrams, proves that a builder writes a text that spells its
datagram, and runs a decoder over a text from the start mark on, whatever it held before.
-/

namespace InverterLink.Proofs
open Decoder InverterLink.Frame

/-- A 16-bit word from its two bytes, highest first. -/
def joinWord (b1 b0 : UInt8) : UInt16 := b1.toUInt16 <<< 8 ||| b0.toUInt16

/-- A 32-bit word from its four bytes, highest first. -/
def joinLong (b3 b2 b1 b0 : UInt8) : UInt32 :=
  b3.toUInt32 <<< 24 ||| b2.toUInt32 <<< 16 ||| b1.toUInt32 <<< 8 ||| b0.toUInt32

lemma joinWord_split (w : UInt16) : joinWord (w >>> 8).toUInt8 w.toUInt8 = w := by
  unfold joinWord
  apply UInt16.toBitVec_inj.mp
  apply BitVec.eq_of_getLsbD_eq
  intro i hi
  by_cases h : i < 8
  · simp [h, hi, -UInt16.toUInt16_toUInt8]
  · simp [h, hi, -UInt16.toUInt16_toUInt8, show 8 + (i - 8) = i by omega, show i - 8 < 8 by omega]

lemma joinLong_split (v : UInt32) :
    joinLong (v >>> 24).toUInt8 (v >>> 16).toUInt8 (v >>> 8).toUInt8 v.toUInt8 = v := by
  unfold joinLong
  apply UInt32.toBitVec_inj.mp
  apply BitVec.eq_of_getLsbD_eq
  intro i hi
  rcases (by omega : i < 8 ∨ (8 ≤ i ∧ i < 16) ∨ (16 ≤ i ∧ i < 24) ∨ 24 ≤ i) with
    h | ⟨h, h'⟩ | ⟨h, h'⟩ | h
  · simp [h, hi, -UInt32.toUInt32_toUInt8, show i < 16 by omega, show i < 24 by omega]
  · simp [h', hi, -UInt32.toUInt32_toUInt8, show ¬i < 8 by omega, show i < 24 by omega,
      show i - 8 < 8 by omega, show 8 + (i - 8) = i by omega]
  · simp [h', hi, -UInt32.toUInt32_toUInt8, show ¬i < 8 by omega, show ¬i < 16 by omega,
      show ¬i - 8 < 8 by omega, show i - 16 < 8 by omega, show 16 + (i - 16) = i by omega]
  · simp [hi, -UInt32.toUInt32_toUInt8, show ¬i < 8 by omega, show ¬i < 16 by omega,
      show ¬i < 24 by omega, show ¬i - 8 < 8 by omega, show ¬i - 16 < 8 by omega,
      show i - 24 < 8 by omega, show 24 + (i - 24) = i by omega]

lemma byte_ext {a b : UInt8} (h : ∀ i < 8, a.toBitVec.getLsbD i = b.toBitVec.getLsbD i) :
    a = b :=
  UInt8.toBitVec_inj.mp (BitVec.eq_of_getLsbD_eq h)

lemma wordBytes_joinWord (b1 b0 : UInt8) : Datagram.wordBytes (joinWord b1 b0) = [b1, b0] := by
  have h1 : (joinWord b1 b0 >>> 8).toUInt8 = b1 := by
    apply byte_ext
    intro i hi
    have hi' : i < 16 := by omega
    simp [joinWord, hi, hi', show 8 + i < 16 by omega, -BitVec.getLsbD_eq_getElem]
  have h0 : (joinWord b1 b0).toUInt8 = b0 := by
    apply byte_ext
    intro i hi
    simp [joinWord, -BitVec.getLsbD_eq_getElem]
  rw [Datagram.wordBytes, h1, h0]

lemma longBytes_joinLong (b3 b2 b1 b0 : UInt8) :
    Datagram.longBytes (joinLong b3 b2 b1 b0) = [b3, b2, b1, b0] := by
  have h3 : (joinLong b3 b2 b1 b0 >>> 24).toUInt8 = b3 := by
    apply byte_ext
    intro i hi
    simp (disch := omega) [joinLong, hi, show i < 32 by omega, show 24 + i < 32 by omega,
      -BitVec.getLsbD_eq_getElem]
  have h2 : (joinLong b3 b2 b1 b0 >>> 16).toUInt8 = b2 := by
    apply byte_ext
    intro i hi
    simp (disch := omega) [joinLong, hi, show i < 32 by omega, show 16 + i < 24 by omega,
      show 16 + i < 32 by omega, -BitVec.getLsbD_eq_getElem]
  have h1 : (joinLong b3 b2 b1 b0 >>> 8).toUInt8 = b1 := by
    apply byte_ext
    intro i hi
    simp (disch := omega) [joinLong, hi, show i < 32 by omega, show 8 + i < 16 by omega,
      show 8 + i < 24 by omega, show 8 + i < 32 by omega, -BitVec.getLsbD_eq_getElem]
  have h0 : (joinLong b3 b2 b1 b0).toUInt8 = b0 := by
    apply byte_ext
    intro i hi
    simp [joinLong, -BitVec.getLsbD_eq_getElem]
  rw [Datagram.longBytes, h3, h2, h1, h0]

/-- What stands behind a start mark, up to the checksum. -/
structure FrameText where
  command : UInt8
  size : UInt8
  id3 : UInt8
  id2 : UInt8
  id1 : UInt8
  id0 : UInt8
  payload : List UInt8
  crc1 : UInt8
  crc0 : UInt8

namespace FrameText

/-- The bytes before the payload. -/
def header (f : FrameText) : List UInt8 := [f.command, f.size, f.id3, f.id2, f.id1, f.id0]

/-- The bytes that the checksum covers. -/
def covered (f : FrameText) : List UInt8 := f.header ++ f.payload

/-- All bytes, in order. -/
def values (f : FrameText) : List UInt8 := f.covered ++ [f.crc1, f.crc0]

/-- The text spells a datagram: known command, right size, right checksum. -/
structure Spells (f : FrameText) (g : Datagram) : Prop where
  command : Command.ofCode? f.command = some g.command
  size : identifierSize ≤ f.size.toNat
  length : f.payload.length = f.size.toNat - identifierSize
  identifier : g.identifier.value = joinLong f.id3 f.id2 f.id1 f.id0
  payload : g.payload = f.payload
  checksum : joinWord f.crc1 f.crc0 = Crc.bitwise (Crc.padded f.covered)

end FrameText

/-- The text of a datagram. -/
def frameText (g : Datagram) : FrameText :=
  let id := g.identifier.value
  let crc := Crc.bitwise (Crc.padded (content g))
  { command := g.command.code, size := UInt8.ofNat (g.payload.length + identifierSize)
    id3 := (id >>> 24).toUInt8, id2 := (id >>> 16).toUInt8, id1 := (id >>> 8).toUInt8
    id0 := id.toUInt8, payload := g.payload
    crc1 := (crc >>> 8).toUInt8, crc0 := crc.toUInt8 }

lemma frameText_values (g : Datagram) :
    (frameText g).values =
      content g ++ Datagram.wordBytes (Crc.bitwise (Crc.padded (content g))) := rfl

theorem frameText_spells {g : Datagram} (h : g.Fits) : (frameText g).Spells g := by
  have hl : g.payload.length ≤ 251 := h
  have hs : (frameText g).size.toNat = g.payload.length + 4 := by
    change (UInt8.ofNat (g.payload.length + 4)).toNat = g.payload.length + 4
    rw [UInt8.toNat_ofNat']
    omega
  constructor
  · exact Command.ofCode?_code g.command
  · simp only [hs, identifierSize]
    omega
  · simp only [hs, identifierSize]
    rfl
  · exact (joinLong_split g.identifier.value).symm
  · rfl
  · exact joinWord_split _

lemma fits_of_spells {f : FrameText} {g : Datagram} (h : f.Spells g) : g.Fits := by
  have hl := h.length
  have hs := f.size.toNat_lt
  rw [Datagram.Fits, h.payload, hl, identifierSize, maxPayload]
  omega

/-- Only one text spells a datagram. -/
theorem values_of_spells {f : FrameText} {g : Datagram} (h : f.Spells g) :
    f.values = (frameText g).values := by
  have hcommand : f.command = g.command.code := (Command.code_of_ofCode? h.command).symm
  have hsize : f.size = UInt8.ofNat (g.payload.length + identifierSize) := by
    have hs := h.size
    rw [h.payload, h.length, Nat.sub_add_cancel hs, UInt8.ofNat_toNat]
  have hid : [f.id3, f.id2, f.id1, f.id0] = g.identifier.bytes := by
    rw [← longBytes_joinLong, ← h.identifier]
    rfl
  have hcovered : f.covered = content g := by
    rw [content, ← hcommand, ← hsize, ← hid, h.payload]
    rfl
  rw [FrameText.values, hcovered, ← wordBytes_joinWord, h.checksum, hcovered, frameText_values]

lemma foldl_write (f : FrameBuilder) (bytes : List UInt8) :
    bytes.foldl FrameBuilder.write f = ⟨f.bytes ++ escape bytes, f.crc.updateAll bytes⟩ := by
  induction bytes generalizing f with
  | nil => simp [escape, Crc.updateAll]
  | cons b rest ih =>
    rw [List.foldl_cons, ih]
    simp [FrameBuilder.write, escape, Crc.updateAll]

lemma escape_append (first second : List UInt8) :
    escape (first ++ second) = escape first ++ escape second := List.flatMap_append

/-- A builder writes a start mark and the escaped text of the datagram, whatever it wrote
before. -/
theorem build_bytes (f : FrameBuilder) (g : Datagram) :
    (f.build g).bytes = startMark :: escape (frameText g).values := by
  have hw : g.payload.foldl FrameBuilder.write
      (g.identifier.bytes.foldl FrameBuilder.write
        ((FrameBuilder.write { bytes := [startMark] } g.command.code).write
          (UInt8.ofNat (g.payload.length + identifierSize)))) =
      (content g).foldl FrameBuilder.write { bytes := [startMark] } := by
    rw [content, List.foldl_cons, List.foldl_cons, List.foldl_append]
  have hb : f.build g =
      ((content g).foldl FrameBuilder.write { bytes := [startMark] }).writeChecksum := by
    rw [← hw]
    rfl
  rw [hb, foldl_write, FrameBuilder.writeChecksum, frameText_values, escape_append]
  simp only [finish_updateAll]
  rfl

theorem encode_eq (g : Datagram) : g.encode = startMark :: escape (frameText g).values :=
  build_bytes {} g

/-- The decoder behind the header of a text. -/
def afterHeader (d : Decoder) (f : FrameText) (c : Command) : Decoder :=
  { d with
    phase := if f.size.toNat - identifierSize = 0 then .awaitingCrc0 else .awaitingPayload
    command := c
    payloadSize := f.size.toNat - identifierSize
    identifier := joinLong f.id3 f.id2 f.id1 f.id0
    payload := []
    crc := ({} : Crc).updateAll f.header }

/-- The decoder behind the bytes of a text that the checksum covers. -/
def afterCovered (d : Decoder) (f : FrameText) (c : Command) : Decoder :=
  { d with
    phase := .awaitingCrc0
    command := c
    payloadSize := f.size.toNat - identifierSize
    identifier := joinLong f.id3 f.id2 f.id1 f.id0
    payload := f.payload
    crc := ({} : Crc).updateAll f.covered }

/-- The decoder before the last byte of a text. -/
def beforeLast (d : Decoder) (f : FrameText) (c : Command) : Decoder :=
  { afterCovered d f c with phase := .awaitingCrc1, received := f.crc1.toUInt16 <<< 8 }

/-- The decoder behind a text with a right checksum. -/
def afterText (d : Decoder) (f : FrameText) (c : Command) : Decoder :=
  { afterCovered d f c with
    phase := .done
    payload := []
    crc := (({} : Crc).updateAll f.covered).finish
    received := joinWord f.crc1 f.crc0
    statistics := { d.statistics with decoded := d.statistics.decoded + 1 } }

/-- The decoder behind a text with a wrong checksum. -/
def afterWrong (d : Decoder) (f : FrameText) (c : Command) : Decoder :=
  { afterCovered d f c with
    phase := .awaitingStart
    crc := (({} : Crc).updateAll f.covered).finish
    received := joinWord f.crc1 f.crc0
    statistics := { d.statistics with crcErrors := d.statistics.crcErrors + 1 } }

section Reading

variable {d : Decoder} {f : FrameText} {c : Command}

lemma conclude_right (h : d.crc.finish.value = d.received) :
    d.conclude =
      ({ d with
          crc := d.crc.finish
          phase := .done
          payload := []
          statistics := { d.statistics with decoded := d.statistics.decoded + 1 } },
        some ⟨d.command, ⟨d.identifier⟩, d.payload⟩) := by
  simp only [conclude, h, ne_eq, not_true_eq_false, if_false]

lemma conclude_wrong (h : d.crc.finish.value ≠ d.received) :
    d.conclude =
      ({ d with
          crc := d.crc.finish
          phase := .awaitingStart
          statistics := { d.statistics with crcErrors := d.statistics.crcErrors + 1 } }, none) := by
  simp only [conclude, h, ne_eq, not_false_eq_true, if_true]

lemma readLiterals_header (hd : d.phase = .awaitingCommand)
    (hc : Command.ofCode? f.command = some c) (hs : identifierSize ≤ f.size.toNat) :
    readLiterals d f.header = (afterHeader d f c, []) := by
  have hs' : ¬f.size.toNat < identifierSize := by omega
  simp [FrameText.header, readLiterals, literal, hd, hc, hs', afterHeader, joinLong,
    Crc.updateAll, UInt32.or_assoc]

lemma readLiterals_payload (hd : d.phase = .awaitingPayload) (bytes : List UInt8)
    (hne : bytes ≠ []) (hl : d.payload.length + bytes.length = d.payloadSize) :
    readLiterals d bytes =
      ({ d with
          phase := .awaitingCrc0
          payload := d.payload ++ bytes
          crc := d.crc.updateAll bytes }, []) := by
  induction bytes generalizing d with
  | nil => exact absurd rfl hne
  | cons b rest ih =>
    rw [List.length_cons] at hl
    by_cases hr : rest = []
    · subst hr
      rw [List.length_nil] at hl
      have hle : d.payloadSize ≤ d.payload.length + 1 := by omega
      simp [readLiterals, literal, hd, hle, Crc.updateAll]
    · have hlt : ¬d.payloadSize ≤ d.payload.length + 1 := by
        have := List.length_pos_iff.mpr hr
        omega
      have hb : d.literal b =
          ({ d with payload := d.payload ++ [b], crc := d.crc.update b }, none) := by
        simp [literal, hd, hlt]
      have hi := @ih { d with payload := d.payload ++ [b], crc := d.crc.update b } hd hr
        (by simp only [List.length_append, List.length_singleton]; omega)
      rw [readLiterals_cons, hb]
      simp only [hi]
      simp [Crc.updateAll]

lemma readLiterals_covered (hd : d.phase = .awaitingCommand)
    (hc : Command.ofCode? f.command = some c) (hs : identifierSize ≤ f.size.toNat)
    (hl : f.payload.length = f.size.toNat - identifierSize) :
    readLiterals d f.covered = (afterCovered d f c, []) := by
  rw [FrameText.covered, readLiterals_append, readLiterals_header hd hc hs]
  by_cases hp : f.payload = []
  · have hz : f.size.toNat - identifierSize = 0 := by rw [← hl, hp]; rfl
    simp [hp, readLiterals, afterHeader, afterCovered, FrameText.covered, hz]
  · have hz : f.size.toNat - identifierSize ≠ 0 := by
      rw [← hl]
      exact fun h => hp (List.length_eq_zero_iff.mp h)
    have hd' : (afterHeader d f c).phase = .awaitingPayload := by simp [afterHeader, hz]
    rw [readLiterals_payload hd' f.payload hp (by simp [afterHeader, hl])]
    simp [afterHeader, afterCovered, FrameText.covered, updateAll_append]

lemma readLiterals_unfinished (hd : d.phase = .awaitingCommand)
    (hc : Command.ofCode? f.command = some c) (hs : identifierSize ≤ f.size.toNat)
    (hl : f.payload.length = f.size.toNat - identifierSize) :
    readLiterals d (f.covered ++ [f.crc1]) = (beforeLast d f c, []) := by
  rw [readLiterals_append, readLiterals_covered hd hc hs hl]
  simp [readLiterals, literal, afterCovered, beforeLast]

/-- The last byte of a text that spells a datagram completes it. -/
theorem literal_last {g : Datagram} (hd : d.phase = .awaitingCommand) (hf : f.Spells g) :
    ((readLiterals d (f.covered ++ [f.crc1])).1).literal f.crc0 =
      (afterText d f g.command, some g) := by
  rw [readLiterals_unfinished hd hf.command hf.size hf.length]
  let e : Decoder :=
    { afterCovered d f g.command with
      phase := .awaitingCrc1, received := joinWord f.crc1 f.crc0 }
  have hl : (beforeLast d f g.command).literal f.crc0 = e.conclude := by
    simp only [literal, beforeLast]
    rfl
  have hcrc : e.crc.finish.value = e.received := by
    simp only [e, afterCovered, finish_updateAll, hf.checksum]
  have hg : (⟨g.command, ⟨joinLong f.id3 f.id2 f.id1 f.id0⟩, f.payload⟩ : Datagram) = g := by
    rw [← hf.identifier, ← hf.payload]
  rw [hl, conclude_right hcrc]
  simp only [e, afterCovered, afterText, hg]

/-- A decoder behind a start mark reads a text that spells a datagram, whatever it held. -/
theorem readLiterals_values {g : Datagram} (hd : d.phase = .awaitingCommand) (hf : f.Spells g) :
    readLiterals d f.values = (afterText d f g.command, [g]) := by
  have hv : f.values = (f.covered ++ [f.crc1]) ++ [f.crc0] := by simp [FrameText.values]
  have hu : (readLiterals d (f.covered ++ [f.crc1])).2 = [] := by
    rw [readLiterals_unfinished hd hf.command hf.size hf.length]
  rw [hv, readLiterals_append, readLiterals_cons, literal_last hd hf, hu]
  rfl

/-- A text with a right header and a wrong checksum completes nothing, and is counted. -/
theorem readLiterals_wrong (hd : d.phase = .awaitingCommand)
    (hc : Command.ofCode? f.command = some c) (hs : identifierSize ≤ f.size.toNat)
    (hl : f.payload.length = f.size.toNat - identifierSize)
    (hcrc : (({} : Crc).updateAll f.covered).finish.value ≠ joinWord f.crc1 f.crc0) :
    readLiterals d f.values = (afterWrong d f c, []) := by
  have hv : f.values = (f.covered ++ [f.crc1]) ++ [f.crc0] := by simp [FrameText.values]
  let e : Decoder :=
    { afterCovered d f c with phase := .awaitingCrc1, received := joinWord f.crc1 f.crc0 }
  have hlast : (beforeLast d f c).literal f.crc0 = e.conclude := by
    simp only [literal, beforeLast]
    rfl
  have hend : e.conclude = (afterWrong d f c, none) := conclude_wrong hcrc
  rw [hv, readLiterals_append, readLiterals_unfinished hd hc hs hl, readLiterals_cons, hlast, hend]
  rfl

end Reading

end InverterLink.Proofs
