import InverterLink.Proofs.Corruption
import InverterLink.Proofs.ErrorDetection

/-!
# The escaped form of a text

Bytes that leave no escape mark behind can be read apart from what follows them. So the positions
of a frame can be read byte by byte of its text: no frame begins behind the start mark, the
literals are the text, and no escape mark is left over. This holds of whatever a builder writes,
whatever it was used for before.
-/

namespace InverterLink.Proofs
open Decoder InverterLink.Frame

/-- The literals of some bytes, from the first position to the last. -/
def literals (bytes : List UInt8) : List UInt8 := literalsIn bytes 0 bytes.length

/-- The bytes are literals to their end: no frame begins in them, and no escape mark is left. -/
structure AllLiterals (bytes : List UInt8) : Prop where
  startless : ∀ i, startsAt bytes i = false
  closed : dangling bytes = false

/-- Every escape mark is needed: an escaped byte is a mark. -/
def Sparing (bytes : List UInt8) : Prop :=
  ∀ (i : Nat) (b : UInt8), bytes[i]? = some b → escapedAt bytes i = true → isMark b = true

/-! ### Bytes one behind the other -/

section Joined

variable {first : List UInt8} (rest : List UInt8)

lemma escapedAt_append_left {i : Nat} (h : i ≤ first.length) :
    escapedAt (first ++ rest) i = escapedAt first i := by
  induction i with
  | zero => rfl
  | succ i ih => rw [escapedAt, escapedAt, ih (by omega), List.getElem?_append_left (by omega)]

lemma escapedAt_append_right (h : dangling first = false) (i : Nat) :
    escapedAt (first ++ rest) (first.length + i) = escapedAt rest i := by
  induction i with
  | zero => rw [Nat.add_zero, escapedAt_append_left rest le_rfl]; exact h
  | succ i ih =>
    rw [← Nat.add_assoc, escapedAt, escapedAt, ih, List.getElem?_append_right (by omega),
      Nat.add_sub_cancel_left]

lemma dangling_append (h : dangling first = false) : dangling (first ++ rest) = dangling rest := by
  rw [dangling, List.length_append, escapedAt_append_right rest h, dangling]

lemma startsAt_append_left {i : Nat} (h : i < first.length) :
    startsAt (first ++ rest) i = startsAt first i := by
  rw [startsAt, startsAt, escapedAt_append_left rest h.le, List.getElem?_append_left h]

lemma startsAt_append_right (h : dangling first = false) (i : Nat) :
    startsAt (first ++ rest) (first.length + i) = startsAt rest i := by
  rw [startsAt, startsAt, escapedAt_append_right rest h, List.getElem?_append_right (by omega),
    Nat.add_sub_cancel_left]

lemma literalAt?_append_left {i : Nat} (h : i < first.length) :
    literalAt? (first ++ rest) i = literalAt? first i := by
  rw [literalAt?, literalAt?, escapedAt_append_left rest h.le, List.getElem?_append_left h]

lemma literalAt?_append_right (h : dangling first = false) (i : Nat) :
    literalAt? (first ++ rest) (first.length + i) = literalAt? rest i := by
  rw [literalAt?, literalAt?, escapedAt_append_right rest h, List.getElem?_append_right (by omega),
    Nat.add_sub_cancel_left]

lemma literalsIn_append_right (h : dangling first = false) :
    literalsIn (first ++ rest) first.length (first ++ rest).length = literals rest := by
  have hshift : literalAt? (first ++ rest) ∘ (first.length + ·) = literalAt? rest :=
    funext (literalAt?_append_right rest h)
  rw [literals, literalsIn, literalsIn, List.length_append, Nat.add_sub_cancel_left, Nat.sub_zero,
    ← hshift, ← List.filterMap_map, List.map_add_range', Nat.add_zero]

lemma literalsIn_append_left :
    literalsIn (first ++ rest) 0 first.length = literals first := by
  apply List.filterMap_congr
  intro i hi
  apply literalAt?_append_left
  simpa using hi

lemma literalsIn_split {bytes : List UInt8} {i j k : Nat} (hij : i ≤ j) (hjk : j ≤ k) :
    literalsIn bytes i k = literalsIn bytes i j ++ literalsIn bytes j k := by
  have hr : List.range' i (k - i) = List.range' i (j - i) ++ List.range' j (k - j) := by
    have h := @List.range'_append i (j - i) (k - j) 1
    rw [Nat.one_mul, show i + (j - i) = j by omega, show j - i + (k - j) = k - i by omega] at h
    exact h.symm
  rw [literalsIn, hr, List.filterMap_append]
  rfl

/-- Bytes that leave no escape mark are read apart from what follows them. -/
theorem literals_append (h : dangling first = false) :
    literals (first ++ rest) = literals first ++ literals rest := by
  rw [literals, literalsIn_split (Nat.zero_le first.length) (by simp),
    literalsIn_append_left, literalsIn_append_right rest h]

variable {rest}

theorem allLiterals_append_iff (h : dangling first = false) :
    AllLiterals (first ++ rest) ↔ AllLiterals first ∧ AllLiterals rest := by
  constructor
  · rintro ⟨hstart, hend⟩
    rw [dangling_append rest h] at hend
    refine ⟨⟨fun i => ?_, h⟩, ⟨fun i => ?_, hend⟩⟩
    · rcases Nat.lt_or_ge i first.length with hi | hi
      · rw [← startsAt_append_left rest hi, hstart]
      · simp [startsAt, hi]
    · rw [← startsAt_append_right rest h, hstart]
  · rintro ⟨hf, hr⟩
    refine ⟨fun i => ?_, by rw [dangling_append rest h, hr.closed]⟩
    rcases Nat.lt_or_ge i first.length with hi | hi
    · rw [startsAt_append_left rest hi, hf.startless]
    · obtain ⟨j, rfl⟩ := Nat.exists_eq_add_of_le hi
      rw [startsAt_append_right rest h, hr.startless]

theorem sparing_append (hd : dangling first = false) (hf : Sparing first) (hr : Sparing rest) :
    Sparing (first ++ rest) := by
  intro i b hb he
  rcases Nat.lt_or_ge i first.length with hi | hi
  · rw [List.getElem?_append_left hi] at hb
    rw [escapedAt_append_left rest hi.le] at he
    exact hf i b hb he
  · obtain ⟨j, rfl⟩ := Nat.exists_eq_add_of_le hi
    rw [List.getElem?_append_right hi, Nat.add_sub_cancel_left] at hb
    rw [escapedAt_append_right rest hd] at he
    exact hr j b hb he

end Joined

/-! ### One literal -/

lemma allLiterals_nil : AllLiterals [] := ⟨fun _ => rfl, rfl⟩

lemma allLiterals_plain {b : UInt8} (h : isMark b = false) : AllLiterals [b] := by
  simp only [isMark, Bool.or_eq_false_iff, beq_eq_false_iff_ne] at h
  refine ⟨fun i => ?_, ?_⟩
  · cases i <;> simp [startsAt, h.1]
  · simp [dangling, escapedAt, h.2]

lemma literals_plain {b : UInt8} (h : isMark b = false) : literals [b] = [b] := by
  have h0 : literalAt? [b] 0 = some b := by simp [literalAt?, h]
  simp [literals, literalsIn, h0]

lemma allLiterals_pair (b : UInt8) : AllLiterals [escapeMark, b] := by
  refine ⟨fun i => ?_, by simp [dangling, escapedAt]⟩
  rcases i with - | - | i
  · simp [startsAt, escapeMark, startMark]
  · simp [startsAt, escapedAt]
  · simp [startsAt]

lemma literals_pair (b : UInt8) : literals [escapeMark, b] = [b] := by
  have h0 : literalAt? [escapeMark, b] 0 = none := rfl
  have h1 : literalAt? [escapeMark, b] 1 = some b := by simp [literalAt?, escapedAt]
  simp [literals, literalsIn, List.range', h0, h1]

lemma dangling_startMark : dangling [startMark] = false := rfl

/-! ### A text and its frame -/

lemma allLiterals_escapeByte (b : UInt8) : AllLiterals (escapeByte b) := by
  rcases escapeByte_cases b with ⟨-, hpair⟩ | ⟨hplain, hself⟩
  · rw [hpair]
    exact allLiterals_pair b
  · rw [hself]
    exact allLiterals_plain hplain

lemma literals_escapeByte (b : UInt8) : literals (escapeByte b) = [b] := by
  rcases escapeByte_cases b with ⟨-, hpair⟩ | ⟨hplain, hself⟩
  · rw [hpair, literals_pair]
  · rw [hself, literals_plain hplain]

lemma sparing_escapeByte (b : UInt8) : Sparing (escapeByte b) := by
  intro i c hc he
  rcases escapeByte_cases b with ⟨hmark, hpair⟩ | ⟨hplain, hself⟩
  · rw [hpair] at hc he
    rcases i with - | - | i
    · cases he
    · cases hc
      rcases hmark with rfl | rfl <;> rfl
    · simp at hc
  · rw [hself] at hc he
    rcases i with - | i
    · cases he
    · simp at hc

theorem allLiterals_escape (text : List UInt8) : AllLiterals (escape text) := by
  induction text with
  | nil => exact allLiterals_nil
  | cons b rest ih =>
    exact (allLiterals_append_iff (allLiterals_escapeByte b).closed).mpr
      ⟨allLiterals_escapeByte b, ih⟩

/-- The literals of the escaped form of a text are the text. -/
theorem literals_escape (text : List UInt8) : literals (escape text) = text := by
  induction text with
  | nil => rfl
  | cons b rest ih =>
    rw [escape_cons, literals_append _ (allLiterals_escapeByte b).closed, ih, literals_escapeByte]
    rfl

theorem sparing_escape (text : List UInt8) : Sparing (escape text) := by
  induction text with
  | nil => intro i b hb; simp [escape] at hb
  | cons b rest ih =>
    exact sparing_append (allLiterals_escapeByte b).closed (sparing_escapeByte b) ih

section Framed

variable {body : List UInt8}

lemma startsAt_framed_succ (body : List UInt8) (i : Nat) :
    startsAt (startMark :: body) (i + 1) = startsAt body i := by
  rw [← startsAt_append_right body dangling_startMark i, List.length_singleton, Nat.add_comm]
  rfl

lemma dangling_framed (body : List UInt8) : dangling (startMark :: body) = dangling body :=
  dangling_append body dangling_startMark

lemma literalsIn_framed (body : List UInt8) :
    literalsIn (startMark :: body) 1 (startMark :: body).length = literals body :=
  literalsIn_append_right body dangling_startMark

lemma startsAt_framed (h : AllLiterals body) (i : Nat) :
    startsAt (startMark :: body) i = true ↔ i = 0 := by
  cases i with
  | zero => simp [startsAt, escapedAt]
  | succ i => simp [startsAt_framed_succ, h.startless]

lemma sparing_framed (h : Sparing body) : Sparing (startMark :: body) := by
  have hone : Sparing [startMark] := by
    intro i b hb he
    cases i with
    | zero => cases he
    | succ i => simp at hb
  exact sparing_append dangling_startMark hone h

end Framed

/-! ### The uses of a builder -/

/-- What a caller can do with a builder. -/
inductive BuilderUse where
  | build (g : Datagram)
  | reset
  | take
  /-- Replace the builder by a fresh one with the frame of a datagram. -/
  | ofDatagram (g : Datagram)

def useBuilder (f : FrameBuilder) : BuilderUse → FrameBuilder
  | .build g => f.build g
  | .reset => f.reset
  | .take => f.take.2
  | .ofDatagram g => .ofDatagram g

/-- Whatever a builder was used for, it writes the frame of a datagram: a start mark, and behind
it the escaped form of the command, the size, the identifier, the payload, and the checksum of
these bytes. Read by position, the frame has no other start mark, its literals are these bytes
with their checksum, and every escape mark in it is needed and has its byte. The frame can be
taken once, and a fresh builder is left. -/
theorem builder_writes_frame (history : List BuilderUse) (g : Datagram) (hg : g.Fits) :
    let f := (history.foldl useBuilder {}).build g
    let size := UInt8.ofNat (g.payload.length + 4)
    let text := g.command.code :: size ::
      ((g.identifier.value >>> 24).toUInt8 :: (g.identifier.value >>> 16).toUInt8 ::
        (g.identifier.value >>> 8).toUInt8 :: g.identifier.value.toUInt8 :: g.payload)
    let crc := Crc.bitwise (Crc.padded text)
    let checked := text ++ [(crc >>> 8).toUInt8, crc.toUInt8]
    f.bytes = startMark :: escape checked ∧
      size.toNat = g.payload.length + 4 ∧
      (∀ i, startsAt f.bytes i = true ↔ i = 0) ∧
      literalsIn f.bytes 1 f.bytes.length = checked ∧
      Sparing f.bytes ∧ dangling f.bytes = false ∧
      f.take = (f.bytes, {}) := by
  intro f size text crc checked
  have hbytes : f.bytes = startMark :: escape checked := build_bytes _ g
  have hall := allLiterals_escape checked
  refine ⟨hbytes, size_toNat hg, ?_, ?_, ?_, ?_, rfl⟩
  · rw [hbytes]
    exact startsAt_framed hall
  · rw [hbytes, literalsIn_framed, literals_escape]
  · rw [hbytes]
    exact sparing_framed (sparing_escape checked)
  · rw [hbytes, dangling_framed, hall.closed]

/-- A builder that still holds another frame and its checksum writes a frame with marks in its
identifier, its payload and its checksum. -/
theorem builder_reused :
    let history : List BuilderUse := [.ofDatagram ⟨.response, ⟨0x2B⟩, [0x2D]⟩, .take,
      .build ⟨.write, ⟨0x3E⟩, [0x01]⟩]
    let g : Datagram := ⟨.write, ⟨0x2D00DD04⟩, [0x2B]⟩
    let f := (history.foldl useBuilder {}).build g
    g.Fits ∧ history.foldl useBuilder {} ≠ {} ∧
      f.bytes = [0x2B, 0x02, 0x05, 0x2D, 0x2D, 0x00, 0xDD, 0x04, 0x2D, 0x2B, 0x2D, 0x2B, 0x2D,
        0x2D] ∧
      (∀ i, startsAt f.bytes i = true ↔ i = 0) ∧ Sparing f.bytes ∧ dangling f.bytes = false ∧
      f.take = (f.bytes, {}) := by
  intro history g f
  have hg : g.Fits := by decide
  obtain ⟨-, -, hstart, -, hsparing, hend, htake⟩ := builder_writes_frame history g hg
  exact ⟨hg, by decide +kernel, by decide +kernel, hstart, hsparing, hend, htake⟩

end InverterLink.Proofs
