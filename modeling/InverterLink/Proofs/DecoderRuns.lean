import InverterLink.Frame.Decoder
import Mathlib

/-!
# Runs of a decoder

A run over the escaped form of some bytes is a run over the bytes themselves, each of which
stands for itself. `essence` forgets the fields that a decoder sets again before it looks at
them; what a decoder hands out depends on its essence alone, so a decoder between two frames
reads like a fresh one.
-/

namespace InverterLink.Proofs
open Decoder InverterLink.Frame

lemma decode_cons (d : Decoder) (b : UInt8) (rest : List UInt8) :
    d.decode (b :: rest) =
      (((d.feed b).1.decode rest).1, (d.feed b).2.toList ++ ((d.feed b).1.decode rest).2) := rfl

theorem decode_append (d : Decoder) (first second : List UInt8) :
    d.decode (first ++ second) =
      (((d.decode first).1.decode second).1,
        (d.decode first).2 ++ ((d.decode first).1.decode second).2) := by
  induction first generalizing d with
  | nil => rfl
  | cons b rest ih =>
    rw [List.cons_append, decode_cons, decode_cons, ih]
    simp only [List.append_assoc]

theorem decodeChunks_eq (d : Decoder) (chunks : List (List UInt8)) :
    d.decodeChunks chunks = d.decode chunks.flatten := by
  induction chunks generalizing d with
  | nil => rfl
  | cons chunk rest ih =>
    rw [decodeChunks, List.flatten_cons, decode_append]
    simp only [ih]

/-- The decoder with another word on whether the next byte stands for itself. -/
def setEscaped (d : Decoder) (e : Bool) : Decoder := { d with escaped := e }

lemma setEscaped_self {d : Decoder} {e : Bool} (h : d.escaped = e) : setEscaped d e = d := by
  subst h
  rfl

lemma feed_of_escaped {d : Decoder} (h : d.escaped = true) (b : UInt8) :
    d.feed b = (setEscaped d false).literal b := by
  rw [feed, if_pos h]
  rfl

lemma feed_startMark {d : Decoder} (h : d.escaped = false) :
    d.feed startMark = (d.restart, none) := by
  simp [feed, h]

lemma feed_escapeMark {d : Decoder} (h : d.escaped = false) :
    d.feed escapeMark = (setEscaped d true, none) := by
  simp [feed, h, startMark, escapeMark, setEscaped]

lemma feed_plain {d : Decoder} (h : d.escaped = false) {b : UInt8} (hb : isMark b = false) :
    d.feed b = d.literal b := by
  simp only [isMark, Bool.or_eq_false_iff, beq_eq_false_iff_ne] at hb
  simp [feed, h, hb.1, hb.2]

/-- Read bytes that all stand for themselves. -/
def readLiterals (d : Decoder) : List UInt8 → Decoder × List Datagram
  | [] => (d, [])
  | b :: rest =>
    let (d', completed) := d.literal b
    let (d'', datagrams) := readLiterals d' rest
    (d'', completed.toList ++ datagrams)

lemma readLiterals_cons (d : Decoder) (b : UInt8) (rest : List UInt8) :
    readLiterals d (b :: rest) =
      ((readLiterals (d.literal b).1 rest).1,
        (d.literal b).2.toList ++ (readLiterals (d.literal b).1 rest).2) := rfl

theorem readLiterals_append (d : Decoder) (first second : List UInt8) :
    readLiterals d (first ++ second) =
      ((readLiterals (readLiterals d first).1 second).1,
        (readLiterals d first).2 ++ (readLiterals (readLiterals d first).1 second).2) := by
  induction first generalizing d with
  | nil => rfl
  | cons b rest ih =>
    rw [List.cons_append, readLiterals_cons, readLiterals_cons, ih]
    simp only [List.append_assoc]

lemma literal_setEscaped (d : Decoder) (e : Bool) (b : UInt8) :
    (setEscaped d e).literal b = (setEscaped (d.literal b).1 e, (d.literal b).2) := by
  cases h : d.phase <;> simp only [literal, conclude, rejectHeader, setEscaped, h]
  all_goals try split
  all_goals rfl

lemma readLiterals_setEscaped (d : Decoder) (e : Bool) (bytes : List UInt8) :
    readLiterals (setEscaped d e) bytes =
      (setEscaped (readLiterals d bytes).1 e, (readLiterals d bytes).2) := by
  induction bytes generalizing d with
  | nil => rfl
  | cons b rest ih => rw [readLiterals_cons, readLiterals_cons, literal_setEscaped, ih]

lemma literal_keeps_escaped (d : Decoder) (b : UInt8) : (d.literal b).1.escaped = d.escaped := by
  have h := literal_setEscaped d d.escaped b
  exact congrArg (fun r => r.1.escaped) h

lemma readLiterals_keeps_escaped (d : Decoder) (bytes : List UInt8) :
    (readLiterals d bytes).1.escaped = d.escaped := by
  induction bytes generalizing d with
  | nil => rfl
  | cons b rest ih => rw [readLiterals_cons, ih, literal_keeps_escaped]

lemma escapeByte_cases (b : UInt8) :
    (b = startMark ∨ b = escapeMark) ∧ escapeByte b = [escapeMark, b] ∨
      isMark b = false ∧ escapeByte b = [b] := by
  cases hb : isMark b with
  | true =>
    left
    exact ⟨by simpa [isMark] using hb, by rw [escapeByte, if_pos hb]⟩
  | false =>
    right
    exact ⟨rfl, by rw [escapeByte, hb]; rfl⟩

lemma escape_cons (b : UInt8) (rest : List UInt8) :
    escape (b :: rest) = escapeByte b ++ escape rest := rfl

lemma decode_escapeByte {d : Decoder} (h : d.escaped = false) (b : UInt8) :
    d.decode (escapeByte b) = ((d.literal b).1, (d.literal b).2.toList) := by
  rcases escapeByte_cases b with ⟨-, hpair⟩ | ⟨hplain, hself⟩
  · have hs : setEscaped (setEscaped d true) false = d := setEscaped_self h
    -- the escape mark in front sets the flag, and the byte clears it
    rw [hpair, decode_cons, feed_escapeMark h, decode_cons, feed_of_escaped rfl, hs]
    simp [decode]
  · rw [hself, decode_cons, feed_plain h hplain]
    simp [decode]

/-- The escaped form of some bytes reads as the bytes, and leaves no escape mark behind. -/
theorem decode_escape {d : Decoder} (h : d.escaped = false) (bytes : List UInt8) :
    d.decode (escape bytes) = readLiterals d bytes := by
  induction bytes generalizing d with
  | nil => rfl
  | cons b rest ih =>
    have hn : (d.literal b).1.escaped = false := by rw [literal_keeps_escaped, h]
    rw [escape_cons, decode_append, decode_escapeByte h, ih hn, readLiterals_cons]

/-- No frame is in progress. -/
def Between (d : Decoder) : Prop := d.phase.midFrame = false

lemma between_iff (d : Decoder) : Between d ↔ d.phase = .awaitingStart ∨ d.phase = .done := by
  unfold Between
  cases d.phase <;> simp [Phase.midFrame]

lemma literal_between {d : Decoder} (h : Between d) (b : UInt8) : d.literal b = (d, none) := by
  rcases (between_iff d).mp h with h | h <;> simp [literal, h]

lemma readLiterals_between {d : Decoder} (h : Between d) (bytes : List UInt8) :
    readLiterals d bytes = (d, []) := by
  induction bytes with
  | nil => rfl
  | cons b rest ih => rw [readLiterals_cons, literal_between h, ih]; rfl

/-- What a literal does: nothing between two frames; in a frame, it goes on with it or ends it in
one of three ways, each with its counter. -/
inductive LiteralRead (d : Decoder) (result : Decoder × Option Datagram) : Prop where
  | idle (between : Between d) (same : result = (d, none))
  | onward (mid : d.phase.midFrame = true) (goesOn : result.1.phase.midFrame = true)
      (statistics : result.1.statistics = d.statistics) (nothing : result.2 = none)
  | badHeader (mid : d.phase.midFrame = true) (ended : result.1.phase = .awaitingStart)
      (statistics : result.1.statistics =
        { d.statistics with headerErrors := d.statistics.headerErrors + 1 })
      (nothing : result.2 = none)
  | badChecksum (mid : d.phase.midFrame = true) (ended : result.1.phase = .awaitingStart)
      (statistics : result.1.statistics =
        { d.statistics with crcErrors := d.statistics.crcErrors + 1 })
      (nothing : result.2 = none)
  | complete (mid : d.phase.midFrame = true) (ended : result.1.phase = .done)
      (statistics : result.1.statistics =
        { d.statistics with decoded := d.statistics.decoded + 1 })
      (datagram : ∃ g, result.2 = some g)

theorem literalRead (d : Decoder) (b : UInt8) : LiteralRead d (d.literal b) := by
  cases h : d.phase with
  | awaitingStart | done =>
    have hb : Between d := (between_iff d).mpr (by simp [h])
    exact .idle hb (literal_between hb b)
  | awaitingCommand =>
    cases hc : Command.ofCode? b with
    | none => apply LiteralRead.badHeader <;> simp [literal, h, hc, rejectHeader, Phase.midFrame]
    | some c => apply LiteralRead.onward <;> simp [literal, h, hc, Phase.midFrame]
  | awaitingSize =>
    by_cases hs : b.toNat < identifierSize
    · apply LiteralRead.badHeader <;> simp [literal, h, hs, rejectHeader, Phase.midFrame]
    · apply LiteralRead.onward <;> simp [literal, h, hs, Phase.midFrame]
  | awaitingId3 =>
    by_cases hz : d.payloadSize = 0 <;> apply LiteralRead.onward <;>
      simp [literal, h, hz, Phase.midFrame]
  | awaitingPayload =>
    by_cases hz : d.payloadSize ≤ d.payload.length + 1 <;> apply LiteralRead.onward <;>
      simp [literal, h, hz, Phase.midFrame]
  | awaitingCrc1 =>
    by_cases hc : d.crc.finish.value = d.received ||| b.toUInt16
    · apply LiteralRead.complete <;> simp [literal, conclude, h, hc, Phase.midFrame]
    · apply LiteralRead.badChecksum <;> simp [literal, conclude, h, hc, Phase.midFrame]
  | _ => apply LiteralRead.onward <;> simp [literal, h, Phase.midFrame]

lemma between_of_literal {d : Decoder} {b : UInt8} {g : Datagram}
    (h : (d.literal b).2 = some g) : Between (d.literal b).1 := by
  cases literalRead d b with
  | idle between same => rwa [same]
  | onward mid goesOn statistics nothing => simp [h] at nothing
  | badHeader mid ended statistics nothing => simp [h] at nothing
  | badChecksum mid ended statistics nothing => simp [h] at nothing
  | complete mid ended statistics datagram => exact (between_iff _).mpr (.inr ended)

/-- Without a start mark at most one datagram is completed. -/
theorem readLiterals_at_most_one (d : Decoder) (bytes : List UInt8) :
    ∃ g : Option Datagram, (readLiterals d bytes).2 = g.toList := by
  induction bytes generalizing d with
  | nil => exact ⟨none, rfl⟩
  | cons b rest ih =>
    rw [readLiterals_cons]
    cases h : (d.literal b).2 with
    | none => simpa using ih (d.literal b).1
    | some g => exact ⟨some g, by simp [readLiterals_between (between_of_literal h)]⟩

/-- A decoder with the defaults in the fields that it sets before it looks at them again. The
statistics are among them, for nothing that the decoder does depends on them. -/
def essence (d : Decoder) : Decoder :=
  match d.phase with
  | .awaitingStart | .done => { escaped := d.escaped }
  | .awaitingCommand => { phase := .awaitingCommand, escaped := d.escaped }
  | .awaitingSize =>
    { phase := .awaitingSize, escaped := d.escaped, command := d.command, crc := d.crc }
  | .awaitingId0 =>
    { phase := .awaitingId0, escaped := d.escaped, command := d.command
      payloadSize := d.payloadSize, crc := d.crc }
  | .awaitingId1 | .awaitingId2 | .awaitingId3 =>
    { phase := d.phase, escaped := d.escaped, command := d.command
      payloadSize := d.payloadSize, identifier := d.identifier, crc := d.crc }
  | .awaitingPayload | .awaitingCrc0 =>
    { phase := d.phase, escaped := d.escaped, command := d.command
      payloadSize := d.payloadSize, identifier := d.identifier, payload := d.payload, crc := d.crc }
  | .awaitingCrc1 => { d with statistics := {} }

lemma essence_escaped (d : Decoder) : (essence d).escaped = d.escaped := by
  cases h : d.phase <;> simp [essence, h]

lemma essence_between {d : Decoder} (h : Between d) : essence d = { escaped := d.escaped } := by
  rcases (between_iff d).mp h with h | h <;> simp [essence, h]

lemma essence_setEscaped (d : Decoder) (e : Bool) :
    essence (setEscaped d e) = setEscaped (essence d) e := by
  cases h : d.phase <;> simp [essence, setEscaped, h]

lemma essence_restart (d : Decoder) :
    essence d.restart = { phase := .awaitingCommand, escaped := d.escaped } := rfl

lemma essence_essence (d : Decoder) : essence (essence d) = essence d := by
  cases h : d.phase <;> simp [essence, h]

lemma literal_essence (d : Decoder) (b : UInt8) :
    ((essence d).literal b).2 = (d.literal b).2 ∧
      essence ((essence d).literal b).1 = essence (d.literal b).1 := by
  cases h : d.phase with
  | awaitingCommand =>
    simp only [essence, literal, h]
    cases Command.ofCode? b <;> exact ⟨rfl, rfl⟩
  | awaitingSize =>
    simp only [essence, literal, h]
    split <;> exact ⟨rfl, rfl⟩
  | awaitingId3 =>
    by_cases hz : d.payloadSize = 0 <;> simp [essence, literal, h, hz]
  | awaitingPayload =>
    by_cases hz : d.payloadSize ≤ d.payload.length + 1 <;> simp [essence, literal, h, hz]
  | awaitingCrc1 =>
    simp only [essence, literal, conclude, h]
    split <;> exact ⟨rfl, rfl⟩
  | _ => simp [essence, literal, h]

theorem feed_essence (d : Decoder) (b : UInt8) :
    ((essence d).feed b).2 = (d.feed b).2 ∧
      essence ((essence d).feed b).1 = essence (d.feed b).1 := by
  have he := essence_escaped d
  have hl := literal_essence d b
  cases h : d.escaped with
  | true =>
    rw [feed_of_escaped h, feed_of_escaped (he.trans h), literal_setEscaped, literal_setEscaped,
      essence_setEscaped, essence_setEscaped, hl.2]
    exact ⟨hl.1, rfl⟩
  | false =>
    have hf := he.trans h
    by_cases hs : b = startMark
    · subst hs
      rw [feed_startMark h, feed_startMark hf, essence_restart, essence_restart, he]
      exact ⟨rfl, rfl⟩
    · by_cases hx : b = escapeMark
      · subst hx
        rw [feed_escapeMark h, feed_escapeMark hf, essence_setEscaped, essence_setEscaped,
          essence_essence]
        exact ⟨rfl, rfl⟩
      · have hb : isMark b = false := by simp [isMark, hs, hx]
        rw [feed_plain h hb, feed_plain hf hb]
        exact hl

lemma feed_congr {d e : Decoder} (h : essence d = essence e) (b : UInt8) :
    (d.feed b).2 = (e.feed b).2 ∧ essence (d.feed b).1 = essence (e.feed b).1 := by
  obtain ⟨hd, hd'⟩ := feed_essence d b
  obtain ⟨he, he'⟩ := feed_essence e b
  rw [← hd, ← hd', ← he, ← he', h]
  exact ⟨rfl, rfl⟩

/-- Decoders of one essence hand out the same datagrams, whatever they read. -/
theorem decode_congr {d e : Decoder} (h : essence d = essence e) (bytes : List UInt8) :
    (d.decode bytes).2 = (e.decode bytes).2 ∧
      essence (d.decode bytes).1 = essence (e.decode bytes).1 := by
  induction bytes generalizing d e with
  | nil => exact ⟨rfl, h⟩
  | cons b rest ih =>
    obtain ⟨hb, hb'⟩ := feed_congr h b
    obtain ⟨hr, hr'⟩ := ih hb'
    rw [decode_cons, decode_cons, hb, hr]
    exact ⟨rfl, hr'⟩

lemma essence_fresh {d : Decoder} (h : Between d) (he : d.escaped = false) :
    essence d = essence {} := by
  rw [essence_between h, he]
  rfl

end InverterLink.Proofs
