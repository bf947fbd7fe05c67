import InverterLink.Proofs.LazyReading

/-!
# What a decoder is given

A decoder is given bytes, and now and then the order to drop the frame in progress. Read from the
left, each input stands for a token or is an escape mark. However a caller hands over the bytes,
one by one, in chunks, or in chunks of which it stops reading, the decoder behind them is the one
behind the bytes that it has read.
-/

namespace InverterLink.Proofs
open Decoder InverterLink.Frame

inductive Input where
  | byte (b : UInt8)
  /-- Drop the frame in progress. -/
  | reset
  deriving DecidableEq

def react (d : Decoder) : Input → Decoder × Option Datagram
  | .byte b => d.feed b
  | .reset => (d.reset, none)

/-- A decoder behind some inputs. -/
def after (d : Decoder) : List Input → Decoder
  | [] => d
  | input :: rest => after (react d input).1 rest

/-- What some inputs complete, one by one. -/
def completions (d : Decoder) : List Input → List (Option Datagram)
  | [] => []
  | input :: rest => (react d input).2 :: completions (react d input).1 rest

lemma after_append (d : Decoder) (first second : List Input) :
    after d (first ++ second) = after (after d first) second := by
  induction first generalizing d with
  | nil => rfl
  | cons input rest ih => exact ih (react d input).1

lemma completions_append (d : Decoder) (first second : List Input) :
    completions d (first ++ second) =
      completions d first ++ completions (after d first) second := by
  induction first generalizing d with
  | nil => rfl
  | cons input rest ih => exact congrArg ((react d input).2 :: ·) (ih (react d input).1)

/-- Decoding a chunk is reacting to its bytes. -/
theorem decode_eq_after (d : Decoder) (chunk : List UInt8) :
    d.decode chunk =
      (after d (chunk.map .byte), (completions d (chunk.map .byte)).reduceOption) := by
  induction chunk generalizing d with
  | nil => rfl
  | cons b rest ih =>
    rw [decode_cons, ih]
    cases h : (d.feed b).2 <;> simp [after, completions, react, h, List.reduceOption_cons_of_some,
      List.reduceOption_cons_of_none]

/-! ### Tokens -/

/-- What an input stands for. An escape mark stands for nothing by itself. -/
inductive Token where
  | start
  | literal (b : UInt8)
  | reset
  deriving DecidableEq

/-- The tokens of some inputs; the first of them may be escaped. -/
def tokens (escaped : Bool) : List Input → List Token
  | [] => []
  | .reset :: rest => .reset :: tokens false rest
  | .byte b :: rest =>
    if escaped then .literal b :: tokens false rest
    else if b = startMark then .start :: tokens false rest
    else if b = escapeMark then tokens true rest
    else .literal b :: tokens false rest

/-- The tokens of a stream of bytes. -/
def tokensOf (bytes : List UInt8) : List Token := tokens false (bytes.map .byte)

lemma tokens_escaped (b : UInt8) (rest : List Input) :
    tokens true (.byte b :: rest) = .literal b :: tokens false rest := rfl

lemma tokens_startMark (rest : List Input) :
    tokens false (.byte startMark :: rest) = .start :: tokens false rest := rfl

lemma tokens_escapeMark (rest : List Input) :
    tokens false (.byte escapeMark :: rest) = tokens true rest := rfl

lemma tokens_plain {b : UInt8} (hb : isMark b = false) (rest : List Input) :
    tokens false (.byte b :: rest) = .literal b :: tokens false rest := by
  simp only [isMark, Bool.or_eq_false_iff, beq_eq_false_iff_ne] at hb
  simp [tokens, hb.1, hb.2]

/-- The three ways in which a byte is read: as a literal, as the begin of a frame, and as a mark
that stands for nothing. -/
inductive ByteRead (escaped : Bool) (b : UInt8) : Prop where
  | literal
      (feed : ∀ d : Decoder, d.escaped = escaped → d.feed b = (setEscaped d false).literal b)
      (token : ∀ rest, tokens escaped (.byte b :: rest) = .literal b :: tokens false rest)
  | start (unescaped : escaped = false)
      (feed : ∀ d : Decoder, d.escaped = escaped → d.feed b = (d.restart, none))
      (token : ∀ rest, tokens escaped (.byte b :: rest) = .start :: tokens false rest)
  | mark
      (feed : ∀ d : Decoder, d.escaped = escaped → d.feed b = (setEscaped d true, none))
      (token : ∀ rest, tokens escaped (.byte b :: rest) = tokens true rest)

theorem byteRead (escaped : Bool) (b : UInt8) : ByteRead escaped b := by
  cases escaped with
  | true => exact .literal (fun d hd => feed_of_escaped hd b) (tokens_escaped b)
  | false =>
    by_cases hs : b = startMark
    · subst hs
      exact .start rfl (fun d hd => feed_startMark hd) tokens_startMark
    · by_cases hx : b = escapeMark
      · subst hx
        exact .mark (fun d hd => feed_escapeMark hd) tokens_escapeMark
      · have hb : isMark b = false := by simp [isMark, hs, hx]
        apply ByteRead.literal _ (tokens_plain hb)
        intro d hd
        rw [feed_plain hd hb, setEscaped_self hd]

lemma escaped_of_literal (d : Decoder) (b : UInt8) :
    ((setEscaped d false).literal b).1.escaped = false :=
  literal_keeps_escaped (setEscaped d false) b

/-- Bytes that are all literals complete what the literals complete. -/
theorem decode_of_literals {d : Decoder} {bytes values : List UInt8}
    (h : tokens d.escaped (bytes.map .byte) = values.map .literal) :
    (d.decode bytes).2 = (readLiterals d values).2 := by
  induction bytes generalizing d values with
  | nil =>
    obtain rfl : values = [] := by simpa [tokens] using h.symm
    rfl
  | cons b rest ih =>
    rw [decode_cons]
    rw [List.map_cons] at h
    cases byteRead d.escaped b with
    | literal feed token =>
      rw [token] at h
      obtain ⟨v, later, rfl, hv, hlater⟩ := List.map_eq_cons_iff.mp h.symm
      cases hv
      have hn : (d.feed b).1.escaped = false := by rw [feed d rfl, escaped_of_literal]
      rw [ih (by rw [hn, hlater]), feed d rfl, literal_setEscaped, readLiterals_setEscaped,
        readLiterals_cons]
    | start unescaped feed token =>
      rw [token] at h
      obtain ⟨v, later, rfl, hv, -⟩ := List.map_eq_cons_iff.mp h.symm
      cases hv
    | mark feed token =>
      rw [token] at h
      rw [feed d rfl, ih (d := setEscaped d true) h, readLiterals_setEscaped]
      rfl

/-! ### Uses -/

/-- What a caller can do with a decoder. -/
inductive Use where
  | feed (b : UInt8)
  /-- Read a chunk to its end. -/
  | parse (chunk : List UInt8)
  /-- Read a chunk until so many datagrams are complete. -/
  | pull (chunk : List UInt8) (limit : Nat)
  | reset

def perform (d : Decoder) : Use → Decoder × List Datagram
  | .feed b => ((d.feed b).1, (d.feed b).2.toList)
  | .parse chunk => d.decode chunk
  | .pull chunk limit => ((d.pull chunk limit).1, (d.pull chunk limit).2.1)
  | .reset => (d.reset, [])

def performAll (d : Decoder) : List Use → Decoder × List Datagram
  | [] => (d, [])
  | use :: rest =>
    let (d', datagrams) := perform d use
    let (d'', more) := performAll d' rest
    (d'', datagrams ++ more)

/-- The inputs that a use hands over. -/
def consumed (d : Decoder) : Use → List Input
  | .feed b => [.byte b]
  | .parse chunk => chunk.map .byte
  | .pull chunk limit =>
    (chunk.take (chunk.length - (d.pull chunk limit).2.2.length)).map .byte
  | .reset => [.reset]

def consumedBy (d : Decoder) : List Use → List Input
  | [] => []
  | use :: rest => consumed d use ++ consumedBy (perform d use).1 rest

/-- A use does what the inputs do that it hands over. -/
theorem perform_eq (d : Decoder) (use : Use) :
    perform d use =
      (after d (consumed d use), (completions d (consumed d use)).reduceOption) := by
  cases use with
  | feed b =>
    have h := decode_eq_after d [b]
    rw [decode_cons] at h
    simp only [decode, List.append_nil] at h
    exact h
  | parse chunk => exact decode_eq_after d chunk
  | pull chunk limit =>
    obtain ⟨k, hk, hpull⟩ := pull_eq_decode d chunk limit
    have htaken : chunk.take (chunk.length - (d.pull chunk limit).2.2.length) = chunk.take k := by
      rw [hpull, List.length_drop, Nat.sub_sub_self hk.within]
    rw [consumed, htaken, ← decode_eq_after, perform, hpull]
  | reset => rfl

theorem performAll_eq (d : Decoder) (uses : List Use) :
    performAll d uses =
      (after d (consumedBy d uses), (completions d (consumedBy d uses)).reduceOption) := by
  induction uses generalizing d with
  | nil => rfl
  | cons use rest ih =>
    rw [performAll, consumedBy, after_append, completions_append, List.reduceOption_append]
    simp only [ih, perform_eq]

end InverterLink.Proofs
