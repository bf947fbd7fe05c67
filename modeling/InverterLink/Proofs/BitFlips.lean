import InverterLink.Proofs.Corruption
import InverterLink.Proofs.DecoderInputs
import InverterLink.Proofs.ErrorDetection

/-!
# Frames with a flipped bit

One bit of a frame is flipped in front of its checksum. If the bytes still read as one frame of
the same size or of a greater one, nothing comes out of them, for the checksum is wrong or never
comes. But a flipped bit can also make a start mark, make or unmake an escape mark, or make the
size smaller. Then the bytes are divided into frames in another way, and a datagram whose payload
holds a frame can give it away.
-/

namespace InverterLink.Proofs
open Decoder InverterLink.Frame

/-- Some bytes with one bit of the byte at a position flipped. Bit 0 is the lowest. -/
def flipBit (bytes : List UInt8) (position bit : Nat) : List UInt8 :=
  bytes.modify position (· ^^^ (1 <<< UInt8.ofNat bit))

/-- A damaged frame of a datagram is divided in another way: a second frame begins in it, or its
size byte, as it is read, is smaller than that of the datagram and still possible. -/
def Reframed (g : Datagram) (w : List UInt8) : Prop :=
  .start ∈ (tokensOf w).tail ∨
    ∃ size, (tokensOf w)[2]? = some (.literal size) ∧ identifierSize ≤ size.toNat ∧
      size.toNat < g.payload.length + identifierSize

/-! ### Where the bit is -/

lemma flipBit_append_right (first second : List UInt8) (i bit : Nat) :
    flipBit (first ++ second) (first.length + i) bit = first ++ flipBit second i bit := by
  induction first with
  | nil => simp
  | cons b rest ih =>
    rw [flipBit, List.cons_append, List.modify_cons, if_neg (by simp), List.length_cons,
      show rest.length + 1 + i - 1 = rest.length + i by omega]
    exact congrArg (b :: ·) ih

lemma flipBit_append_left {first : List UInt8} {i : Nat} (h : i < first.length)
    (second : List UInt8) (bit : Nat) :
    flipBit (first ++ second) i bit = flipBit first i bit ++ second := by
  induction first generalizing i with
  | nil => simp at h
  | cons b rest ih =>
    cases i with
    | zero => rfl
    | succ i =>
      rw [List.length_cons] at h
      exact congrArg (b :: ·) (ih (by omega))

lemma flipBit_escape (text : List UInt8) {i : Nat} (h : i < (escape text).length)
    (more : List UInt8) (bit : Nat) :
    ∃ before b behind, text = before ++ b :: behind ∧ ∃ j < (escapeByte b).length,
      flipBit (escape text ++ more) i bit =
        escape before ++ (flipBit (escapeByte b) j bit ++ (escape behind ++ more)) := by
  induction text generalizing i with
  | nil => simp [escape] at h
  | cons b rest ih =>
    by_cases hi : i < (escapeByte b).length
    · refine ⟨[], b, rest, rfl, i, hi, ?_⟩
      rw [escape_cons, List.append_assoc, flipBit_append_left hi]
      rfl
    · obtain ⟨i', rfl⟩ : ∃ i', i = (escapeByte b).length + i' :=
        ⟨i - (escapeByte b).length, by omega⟩
      rw [escape_cons, List.length_append] at h
      obtain ⟨before, c, behind, rfl, j, hj, hflip⟩ := ih (i := i') (by omega)
      refine ⟨b :: before, c, behind, rfl, j, hj, ?_⟩
      rw [escape_cons, List.append_assoc, flipBit_append_right, hflip]
      simp [escape]

/-! ### How the bytes read -/

lemma tokens_escape (bytes : List UInt8) (more : List Input) :
    tokens false ((escape bytes).map .byte ++ more) =
      bytes.map .literal ++ tokens false more := by
  induction bytes with
  | nil => rfl
  | cons b rest ih =>
    rw [escape_cons, List.map_append, List.append_assoc, List.map_cons, List.cons_append, ← ih]
    rcases escapeByte_cases b with ⟨-, hpair⟩ | ⟨hplain, hself⟩
    · rw [hpair]
      rfl
    · rw [hself]
      exact tokens_plain hplain _

lemma tokens_escape_nil (bytes : List UInt8) :
    tokens false ((escape bytes).map .byte) = bytes.map .literal := by
  have h := tokens_escape bytes []
  rwa [List.append_nil, tokens, List.append_nil] at h

lemma tokens_misread {bytes : List UInt8}
    (h : .start ∉ tokens true ((escape bytes).map .byte)) :
    tokens true ((escape bytes).map .byte) = bytes.map .literal := by
  induction bytes with
  | nil => rfl
  | cons b rest ih =>
    rw [escape_cons, List.map_append] at h ⊢
    rcases escapeByte_cases b with ⟨hmark, hpair⟩ | ⟨-, hself⟩
    · -- the pair falls apart: its escape mark is a literal, and its byte works as a mark
      rw [hpair, List.map_cons, List.cons_append, tokens_escaped, List.map_cons,
        List.cons_append] at h ⊢
      rcases hmark with rfl | rfl
      · rw [tokens_startMark] at h
        simp at h
      · rw [tokens_escapeMark] at h ⊢
        exact congrArg (.literal escapeMark :: ·) (ih fun hm => h (List.mem_cons_of_mem _ hm))
    · rw [hself, List.map_cons, List.cons_append, tokens_escaped]
      exact congrArg (.literal b :: ·) (tokens_escape_nil rest)

lemma escapeMark_flipped {bit : Nat} (hbit : bit < 8) :
    isMark (escapeMark ^^^ (1 <<< UInt8.ofNat bit)) = false := by
  revert hbit
  revert bit
  decide

/-- A flipped bit changes one literal or drops it, or it begins a frame. -/
lemma tokens_flipped {b : UInt8} {j bit : Nat} (hj : j < (escapeByte b).length) (hbit : bit < 8)
    {behind : List UInt8}
    (h : .start ∉ tokens false ((flipBit (escapeByte b) j bit ++ escape behind).map .byte)) :
    tokens false ((flipBit (escapeByte b) j bit ++ escape behind).map .byte) =
        ((b ^^^ (1 <<< UInt8.ofNat bit)) :: behind).map .literal ∨
      tokens false ((flipBit (escapeByte b) j bit ++ escape behind).map .byte) =
        behind.map .literal := by
  generalize hc : b ^^^ (1 <<< UInt8.ofNat bit) = c
  rcases escapeByte_cases b with ⟨hmark, hpair⟩ | ⟨-, hself⟩
  · rw [hpair] at hj h ⊢
    obtain rfl | rfl : j = 0 ∨ j = 1 := by simp at hj; omega
    · -- the escape mark is no mark any more, and the byte behind it works as one
      have hflip : (flipBit [escapeMark, b] 0 bit ++ escape behind).map Input.byte =
          .byte (escapeMark ^^^ (1 <<< UInt8.ofNat bit)) :: .byte b ::
            (escape behind).map .byte := rfl
      rw [hflip, tokens_plain (escapeMark_flipped hbit)] at h ⊢
      rcases hmark with rfl | rfl
      · rw [tokens_startMark] at h
        simp at h
      · left
        rw [tokens_escapeMark] at h ⊢
        rw [tokens_misread fun hm => h (List.mem_cons_of_mem _ hm), hc]
        rfl
    · left
      have hflip : (flipBit [escapeMark, b] 1 bit ++ escape behind).map Input.byte =
          .byte escapeMark :: .byte c :: (escape behind).map .byte := by rw [← hc]; rfl
      rw [hflip, tokens_escapeMark, tokens_escaped, tokens_escape_nil]
      rfl
  · rw [hself] at hj h ⊢
    obtain rfl : j = 0 := by simpa using hj
    have hflip : (flipBit [b] 0 bit ++ escape behind).map Input.byte =
        .byte c :: (escape behind).map .byte := by rw [← hc]; rfl
    rw [hflip] at h ⊢
    cases byteRead false c with
    | literal feed token =>
      left
      rw [token, tokens_escape_nil]
      rfl
    | start unescaped feed token =>
      rw [token] at h
      exact absurd List.mem_cons_self h
    | mark feed token =>
      right
      rw [token] at h ⊢
      exact tokens_misread h

lemma escaped_of_escapeByte (d : Decoder) {b : UInt8} (hb : b ≠ escapeMark) :
    (d.decode (escapeByte b)).1.escaped = false := by
  have hlast : ∀ e : Decoder, (e.feed b).1.escaped = false := by
    intro e
    rw [feed_escaped]
    simp [hb]
  rcases escapeByte_cases b with ⟨-, hpair⟩ | ⟨-, hself⟩
  · rw [hpair, decode_cons, decode_cons]
    exact hlast (d.feed escapeMark).1
  · rw [hself, decode_cons]
    exact hlast d

lemma escapeMarks_of_escaped {d : Decoder} {bytes : List UInt8}
    (h : (d.decode (escape bytes)).1.escaped = true) : ∀ b ∈ bytes, b = escapeMark := by
  induction bytes generalizing d with
  | nil => simp
  | cons b rest ih =>
    rw [escape_cons, decode_append] at h
    -- without an escape mark in front of them, the other bytes leave none behind
    have hnext : (d.decode (escapeByte b)).1.escaped = true := by
      by_contra hn
      rw [decode_escape (by simpa using hn), readLiterals_keeps_escaped] at h
      exact hn h
    intro c hc
    rcases List.mem_cons.mp hc with rfl | hc
    · by_contra hne
      rw [escaped_of_escapeByte d hne] at hnext
      cases hnext
    · exact ih h c hc

/-! ### What comes out -/

lemma exists_spelled {e : Decoder} (he : e.phase = .awaitingCommand) {values : List UInt8}
    (h : (readLiterals e values).2 ≠ []) : ∃ (f : FrameText) (g : Datagram),
      f.values <+: values ∧ f.Spells g := by
  induction values using List.reverseRecOn with
  | nil => exact absurd rfl h
  | append_singleton values b ih =>
    rw [readLiterals_append] at h
    by_cases hbefore : (readLiterals e values).2 = []
    · cases hb : ((readLiterals e values).1.literal b).2 with
      | none => simp [hbefore, hb, readLiterals] at h
      | some g =>
        obtain ⟨f, hf, hg⟩ := (literal_completes_iff he values b g).mp hb
        exact ⟨f, g, by rw [hf], hg⟩
    · obtain ⟨f, g, hf, hg⟩ := ih hbefore
      exact ⟨f, g, hf.trans (List.prefix_append values [b]), hg⟩

lemma values_length {f : FrameText} {g : Datagram} (h : f.Spells g) :
    f.values.length = f.size.toNat + 4 := by
  have hs := h.size
  have hl := h.length
  simp only [identifierSize] at hs hl
  simp only [FrameText.values, FrameText.covered, FrameText.header, List.length_append,
    List.length_cons, List.length_nil]
  omega

lemma checksum_of_spells {f : FrameText} {g : Datagram} (h : f.Spells g) :
    checksum f.covered = [f.crc1, f.crc0] := by
  rw [checksum, finish_updateAll, ← h.checksum, wordBytes_joinWord]

lemma checksum_flipped {before behind : List UInt8} {b : UInt8} {bit : Nat} (hbit : bit < 8)
    (hshort : (before ++ b :: behind).length ≤ maxText) :
    checksum (before ++ (b ^^^ (1 <<< UInt8.ofNat bit)) :: behind) ≠
      checksum (before ++ b :: behind) := by
  have hone : (Crc.bits (1 <<< UInt8.ofNat bit)).count true = 1 := by
    revert hbit
    revert bit
    decide
  have hxor : b ^^^ (b ^^^ (1 <<< UInt8.ofNat bit)) = 1 <<< UInt8.ofNat bit := by
    rw [← UInt8.xor_assoc, UInt8.xor_self, UInt8.zero_xor]
  have hflips : flips (before ++ b :: behind)
      (before ++ (b ^^^ (1 <<< UInt8.ofNat bit)) :: behind) = 1 := by
    rw [flips_append rfl, flips_self, flips, differences_cons, hxor, List.count_append, hone,
      ← flips, flips_self]
  apply checksum_ne_of_detectable (by simp) hshort rfl
  · intro h
    have h' := (Prod.mk.inj h).1
    rw [h', flips_self] at hflips
    cases hflips
  · left
    rw [flips_append (by simp), hflips, flips_self]
    omega

lemma flipped_parts {g : Datagram} {position : Nat} (bit : Nat) (hstart : 0 < position)
    (hcheck : position ≤ (escape (content g)).length) :
    ∃ before b behind, content g = before ++ b :: behind ∧ ∃ j < (escapeByte b).length,
      flipBit g.encode position bit = startMark :: (escape before ++
        (flipBit (escapeByte b) j bit ++ escape (behind ++ checksum (content g)))) := by
  obtain ⟨i, rfl⟩ : ∃ i, position = i + 1 := ⟨position - 1, by omega⟩
  obtain ⟨before, b, behind, htext, j, hj, hflip⟩ :=
    flipBit_escape (content g) (i := i) (by omega) (escape (checksum (content g))) bit
  refine ⟨before, b, behind, htext, j, hj, ?_⟩
  rw [encode_eq_checked, escape_append, escape_append behind]
  exact congrArg (startMark :: ·) hflip

/-- A frame that is not divided in another way spells no datagram of a smaller size. -/
lemma size_of_spelled {g h : Datagram} {f : FrameText} {v values : List UInt8}
    (htokens : tokens false (v.map .byte) = values.map .literal)
    (hframe : ¬Reframed g (startMark :: v)) (hfirst : f.values <+: values) (hf : f.Spells h) :
    g.payload.length + identifierSize ≤ f.size.toNat := by
  by_contra hsmall
  obtain ⟨more, rfl⟩ := hfirst
  apply hframe
  right
  refine ⟨f.size, ?_, hf.size, by omega⟩
  have ht : tokensOf (startMark :: v) =
      .start :: tokens false (v.map .byte) := tokens_startMark (v.map .byte)
  rw [ht, htokens]
  rfl

/-- If a damaged frame is not divided in another way, nothing comes out of it. -/
theorem readFresh_flipped {g : Datagram} (hg : g.Fits) {position bit : Nat} (hstart : 0 < position)
    (hcheck : position ≤ (escape (content g)).length) (hbit : bit < 8)
    (hframe : ¬Reframed g (flipBit g.encode position bit)) :
    readFresh (flipBit g.encode position bit) = [] := by
  obtain ⟨before, b, behind, htext, j, hj, hw⟩ := flipped_parts bit hstart hcheck
  rw [hw] at hframe ⊢
  generalize hv : escape before ++ (flipBit (escapeByte b) j bit ++
    escape (behind ++ checksum (content g))) = v at hframe ⊢
  have hread : tokens false (v.map .byte) = before.map .literal ++ tokens false
      ((flipBit (escapeByte b) j bit ++ escape (behind ++ checksum (content g))).map .byte) := by
    rw [← hv, List.map_append, tokens_escape]
  have hnone : .start ∉ tokens false
      ((flipBit (escapeByte b) j bit ++ escape (behind ++ checksum (content g))).map .byte) := by
    intro hm
    apply hframe
    left
    change .start ∈ tokens false (v.map .byte)
    rw [hread]
    exact List.mem_append_right _ hm
  have hlen := content_length g
  have hparts := congrArg List.length htext
  rw [List.length_append, List.length_cons] at hparts
  have htwo : (checksum (content g)).length = 2 := rfl
  -- what comes out was spelled by literals of at least the length of the whole frame
  have hspelled : ∀ values : List UInt8, tokens false (v.map .byte) = values.map .literal →
      readFresh (startMark :: v) ≠ [] → ∃ (f : FrameText) (h : Datagram),
        f.values <+: values ∧ f.Spells h ∧ (content g).length + 2 ≤ f.values.length := by
    intro values hvalues hout
    have hdecode : readFresh (startMark :: v) = (readLiterals ({} : Decoder).restart values).2 := by
      rw [readFresh, decode_cons, feed_startMark rfl]
      exact decode_of_literals (d := ({} : Decoder).restart) hvalues
    rw [hdecode] at hout
    obtain ⟨f, h, hfirst, hf⟩ := exists_spelled rfl hout
    have hsize := size_of_spelled hvalues hframe hfirst hf
    refine ⟨f, h, hfirst, hf, ?_⟩
    rw [values_length hf, hlen]
    simp only [identifierSize] at hsize
    omega
  by_contra hout
  rcases tokens_flipped hj hbit hnone with hone | hdropped
  · obtain ⟨f, h, hfirst, hf, hlong⟩ := hspelled
      ((before ++ (b ^^^ (1 <<< UInt8.ofNat bit)) :: behind) ++ checksum (content g))
      (by rw [hread, hone]; simp) hout
    have hall := hfirst.eq_of_length_le (by
      rw [List.length_append, List.length_append, List.length_cons]
      omega)
    obtain ⟨hcovered, hcrc⟩ := List.append_inj' hall rfl
    have hshort : (before ++ b :: behind).length ≤ maxText := by
      have hfit : g.payload.length ≤ maxPayload := hg
      rw [← htext, hlen, maxText]
      omega
    apply checksum_flipped hbit hshort
    rw [← htext, ← hcrc, ← hcovered]
    exact checksum_of_spells hf
  · obtain ⟨f, h, hfirst, hf, hlong⟩ := hspelled (before ++ (behind ++ checksum (content g)))
      (by rw [hread, hdropped]; simp) hout
    have hle := hfirst.length_le
    rw [List.length_append, List.length_append] at hle
    omega

/-- One bit of a frame is flipped behind its start mark and in front of its checksum, and another
frame follows. If the damaged frame is not divided in another way and leaves no escape mark
behind, exactly the datagram that follows comes out. Without an escape mark behind, it always
comes out, and last. An escape mark is left behind only if both bytes of the checksum are escape
marks, and costs no more than the datagram that follows. -/
theorem flipped_bit_rejected (g e : Datagram) (hg : g.Fits) (he : e.Fits) (position bit : Nat)
    (hstart : 0 < position) (hcheck : position ≤ (escape (content g)).length) (hbit : bit < 8) :
    let w := flipBit g.encode position bit
    (¬Reframed g w → dangling w = false → readFresh (w ++ e.encode) = [e]) ∧
      (dangling w = false → readFresh (w ++ e.encode) = readFresh w ++ [e]) ∧
      (¬Reframed g w → readFresh w = []) ∧
      (dangling w = true → checksum (content g) = [escapeMark, escapeMark] ∧
        ∃ g? : Option Datagram, readFresh (w ++ e.encode) = readFresh w ++ g?.toList) := by
  intro w
  have hnone : ¬Reframed g w → readFresh w = [] :=
    fun hframe => readFresh_flipped hg hstart hcheck hbit hframe
  have hnext : dangling w = false → readFresh (w ++ e.encode) = readFresh w ++ [e] := by
    intro hend
    have hescaped : (({} : Decoder).decode w).1.escaped = false := by
      rw [decode_escaped rfl, hend]
    rw [readFresh, decode_append, decode_encode hescaped he]
    rfl
  refine ⟨fun hframe hend => ?_, hnext, hnone, fun hend => ?_⟩
  · rw [hnext hend, hnone hframe]
    rfl
  · obtain ⟨before, b, behind, -, j, -, hw⟩ := flipped_parts bit hstart hcheck
    have hescaped : (({} : Decoder).decode w).1.escaped = true := by
      rw [decode_escaped rfl, hend]
    have hsplit : w = (startMark :: (escape before ++ flipBit (escapeByte b) j bit)) ++
        escape (behind ++ checksum (content g)) := by
      rw [List.cons_append, List.append_assoc]
      exact hw
    obtain ⟨g?, hout, -⟩ := decode_encode_dangling hescaped e
    rw [hsplit, decode_append] at hescaped
    have hmarks := escapeMarks_of_escaped hescaped
    have hcrc : ∀ c ∈ checksum (content g), c = escapeMark :=
      fun c hc => hmarks c (List.mem_append_right behind hc)
    refine ⟨List.eq_replicate_of_mem hcrc, g?, ?_⟩
    rw [readFresh, decode_append, hout]
    rfl

/-- The escape mark of a payload byte becomes another byte, and the byte behind it an escape mark
of the next one. -/
theorem flipped_escape_rejected :
    let g : Datagram := ⟨.write, ⟨0x2B2D2B2D⟩, [0x2D, 0x00]⟩
    let e : Datagram := ⟨.response, ⟨0x2D⟩, [0x2B]⟩
    let w := flipBit g.encode 11 3
    g.Fits ∧ e.Fits ∧ 11 ≤ (escape (content g)).length ∧ ¬Reframed g w ∧ dangling w = false ∧
      tokensOf w ≠ tokensOf g.encode ∧ readFresh (w ++ e.encode) = [e] := by
  intro g e w
  have hg : g.Fits := by decide
  have he : e.Fits := by decide
  have hcheck : 11 ≤ (escape (content g)).length := by decide +kernel
  have hframe : ¬Reframed g w := by
    rintro (hm | ⟨size, hsize, -, hsmall⟩)
    · revert hm
      decide +kernel
    · have hsix : (tokensOf w)[2]? = some (.literal 6) := by decide +kernel
      rw [hsix] at hsize
      cases hsize
      revert hsmall
      decide
  have hend : dangling w = false := by decide +kernel
  exact ⟨hg, he, hcheck, hframe, hend, by decide +kernel,
    (flipped_bit_rejected g e hg he 11 3 (by decide) hcheck (by decide)).1 hframe hend⟩

/-- A flipped bit in front of the checksum is not always rejected. With a smaller size byte, the
frame ends within its payload, where another checksum may stand; then the damaged frame begins
with the frame of another datagram, and no decoder could tell. With a new start mark, a frame
begins within the payload. With a new escape mark in front of two others, the datagram that
follows is lost. -/
theorem flipped_bit_divides_anew :
    let inner : Datagram := ⟨.read, ⟨0x400F015B⟩, []⟩
    let shortened : Datagram := ⟨.read, ⟨0x400F015B⟩, [0x58, 0xB4]⟩
    let nested : Datagram :=
      ⟨.response, ⟨0x3E⟩, [0x2A, 0x01, 0x04, 0x40, 0x0F, 0x01, 0x5B, 0x58, 0xB4]⟩
    let swallowing : Datagram := ⟨.read, ⟨0x00DD5E2C⟩, []⟩
    let e : Datagram := ⟨.response, ⟨0x3E⟩, [0x03]⟩
    readFresh (flipBit shortened.encode 2 1 ++ e.encode) = [inner, e] ∧
      inner.encode <+: flipBit shortened.encode 2 1 ∧
      readFresh (flipBit nested.encode 7 0 ++ e.encode) = [inner, e] ∧
      readFresh (flipBit swallowing.encode 6 0 ++ e.encode) = [] ∧
      ¬∀ (g e : Datagram) (position bit : Nat), g.Fits → e.Fits → 0 < position →
        position ≤ (escape (content g)).length → bit < 8 →
          readFresh (flipBit g.encode position bit ++ e.encode) = [e] := by
  intro inner shortened nested swallowing e
  have hshortened : readFresh (flipBit shortened.encode 2 1 ++ e.encode) = [inner, e] := by
    decide +kernel
  refine ⟨hshortened, by decide +kernel, by decide +kernel, by decide +kernel, fun hall => ?_⟩
  have h := hall shortened e 2 1 (by decide) (by decide) (by decide) (by decide +kernel) (by decide)
  rw [hshortened] at h
  revert h
  decide

end InverterLink.Proofs
