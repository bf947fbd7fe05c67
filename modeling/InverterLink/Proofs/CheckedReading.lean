import InverterLink.Proofs.DecoderInputs
import InverterLink.Proofs.WireGrammar

/-!
# Reading with checks

Two operations of a decoder have a limit: the size of the identifier is taken off the size byte,
which may be too small for it, and the payload goes into a datagram, for which it may be too
long. This file makes both of them fail at their limit. What the decoder knows about the text
since the last start mark keeps it within the limits, whatever it is given, and the payload that
comes out is as long as the size byte of its text says.
-/

namespace InverterLink.Proofs
open Decoder InverterLink.Frame

/-! ### The text since the last start mark -/

/-- A start mark begins another text, and so does the order to drop the frame in progress. -/
def extendText (values : List UInt8) : Token → List UInt8
  | .start | .reset => []
  | .literal b => values ++ [b]

/-- The literals since the last start mark. -/
def lastText (inputs : List Input) : List UInt8 := (tokens false inputs).foldl extendText []

/-- The size byte of the text. -/
def announced (inputs : List Input) : Option UInt8 := (lastText inputs)[1]?

/-- The payload is as long as the size byte of the text says, which counts the identifier too. -/
def AsAnnounced (inputs : List Input) (g : Datagram) : Prop :=
  ∃ size, announced inputs = some size ∧ identifierSize ≤ size.toNat ∧
    g.payload.length = size.toNat - identifierSize

section Texts

variable {d : Decoder} {values : List UInt8} {g : Datagram}

lemma headed_setEscaped {f : FrameText} (h : Headed d f) (escaped : Bool) :
    Headed (setEscaped d escaped) f :=
  ⟨h.command, h.sized, h.identifier, h.payload, h.crc⟩

lemma progress_setEscaped (h : Progress d values) (escaped : Bool) :
    Progress (setEscaped d escaped) values := by
  have hphase : (setEscaped d escaped).phase = d.phase := rfl
  cases hp : d.phase <;> simp only [Progress, hphase, hp] at h ⊢
  case awaitingPayload | awaitingCrc0 | awaitingCrc1 =>
    obtain ⟨f, hf, hrest⟩ := h
    exact ⟨f, headed_setEscaped hf escaped, hrest⟩
  all_goals exact h

/-- An input adds its token to the text, if it has one, and a datagram that it completes is
spelled by the text up to there. -/
lemma progress_react (h : Progress d values) (input : Input) :
    ∃ added : List Token,
      (∀ rest, tokens d.escaped (input :: rest) =
        added ++ tokens (react d input).1.escaped rest) ∧
      Progress (react d input).1 (added.foldl extendText values) ∧
      ∀ g, (react d input).2 = some g →
        ∃ f : FrameText, added.foldl extendText values = f.values ∧ f.Spells g := by
  cases input with
  | reset => exact ⟨[.reset], fun _ => rfl, trivial, nofun⟩
  | byte b =>
    cases byteRead d.escaped b with
    | literal feed token =>
      have hfeed : react d (.byte b) = (setEscaped d false).literal b := feed d rfl
      have hplain := progress_setEscaped h false
      refine ⟨[.literal b], fun rest => ?_, ?_, fun g hg => ?_⟩
      · rw [token, hfeed, escaped_of_literal]
        rfl
      · rw [hfeed]
        exact progress_literal hplain b
      · rw [hfeed] at hg
        exact spells_of_literal hplain hg
    | start unescaped feed token =>
      have hfeed : react d (.byte b) = (d.restart, none) := feed d rfl
      have hescaped : d.restart.escaped = false := unescaped
      refine ⟨[.start], fun rest => ?_, ?_, fun g hg => ?_⟩
      · rw [token, hfeed, hescaped]
        rfl
      · rw [hfeed]
        exact rfl
      · rw [hfeed] at hg
        cases hg
    | mark feed token =>
      have hfeed : react d (.byte b) = (setEscaped d true, none) := feed d rfl
      refine ⟨[], fun rest => ?_, ?_, fun g hg => ?_⟩
      · rw [token, hfeed]
        rfl
      · rw [hfeed]
        exact progress_setEscaped h true
      · rw [hfeed] at hg
        cases hg

/-- Whatever it is given, a decoder knows its text. -/
theorem progress_after (h : Progress d values) (inputs : List Input) :
    Progress (after d inputs) ((tokens d.escaped inputs).foldl extendText values) := by
  induction inputs generalizing d values with
  | nil => exact h
  | cons input rest ih =>
    obtain ⟨added, htokens, hnext, -⟩ := progress_react h input
    rw [htokens, List.foldl_append]
    exact ih hnext

lemma spelled_of_completed (h : Progress d values) {earlier : List Input} {input : Input}
    (hg : (react (after d earlier) input).2 = some g) :
    ∃ f : FrameText,
      (tokens d.escaped (earlier ++ [input])).foldl extendText values = f.values ∧
        f.Spells g := by
  induction earlier generalizing d values with
  | nil =>
    obtain ⟨added, htokens, -, hspelled⟩ := progress_react h input
    have hlast : tokens d.escaped [input] = added := by
      rw [htokens]
      exact List.append_nil added
    rw [List.nil_append, hlast]
    exact hspelled g hg
  | cons first rest ih =>
    obtain ⟨added, htokens, hnext, -⟩ := progress_react h first
    rw [List.cons_append, htokens, List.foldl_append]
    exact ih hnext hg

/-- A datagram that comes out has the payload that its size byte announced. -/
theorem asAnnounced_of_completed {earlier : List Input} {input : Input}
    (hg : (react (after {} earlier) input).2 = some g) : AsAnnounced (earlier ++ [input]) g := by
  have hfresh : Progress ({} : Decoder) [] := trivial
  obtain ⟨f, htext, hf⟩ := spelled_of_completed hfresh hg
  have hlast : lastText (earlier ++ [input]) = f.values := htext
  refine ⟨f.size, ?_, hf.size, ?_⟩
  · rw [announced, hlast]
    rfl
  · rw [hf.payload, hf.length]

lemma fits_of_progress (h : Progress d values) (hphase : d.phase = .awaitingCrc1) :
    d.payload.length ≤ maxPayload := by
  simp only [Progress, hphase] at h
  obtain ⟨f, hf, -, hlength, -⟩ := h
  have hsize := f.size.toNat_lt
  have hroom := hf.sized.2
  simp only [identifierSize, maxPayload] at hroom ⊢
  omega

end Texts

/-! ### The decoder with checks -/

/-- The ways in which reading can break down. -/
inductive ReadFault where
  /-- This size byte is too small to take the size of the identifier off it. -/
  | sizeUnderflow (size : UInt8)
  /-- The datagram cannot be made. -/
  | datagram (fault : Fault)
  deriving DecidableEq

/-- The size byte without what it counts for the identifier, if it counts that much. -/
def payloadRoom (size : UInt8) : Except ReadFault UInt8 :=
  if size.toNat < identifierSize then .error (.sizeUnderflow size)
  else .ok (size - UInt8.ofNat identifierSize)

/-- Compare the checksums, and make the datagram if they agree. -/
def concludeChecked (d : Decoder) : Except ReadFault (Decoder × Option Datagram) :=
  if d.crc.finish.value ≠ d.received then .ok d.conclude
  else do
    let datagram ← (Datagram.make d.command ⟨d.identifier⟩ d.payload).mapError .datagram
    return (d.conclude.1, some datagram)

/-- Read a literal. Nothing has a limit but the size byte and the end of the text. -/
def literalChecked (d : Decoder) (b : UInt8) : Except ReadFault (Decoder × Option Datagram) :=
  match d.phase with
  | .awaitingSize =>
    if b.toNat < identifierSize then .ok (d.rejectHeader, none)
    else do
      let room ← payloadRoom b
      return ({ d with
          phase := .awaitingId0
          payloadSize := room.toNat
          crc := d.crc.update b }, none)
  | .awaitingCrc1 => concludeChecked { d with received := d.received ||| b.toUInt16 }
  | _ => .ok (d.literal b)

def feedChecked (d : Decoder) (b : UInt8) : Except ReadFault (Decoder × Option Datagram) :=
  if d.escaped then literalChecked { d with escaped := false } b
  else if b = startMark then .ok (d.restart, none)
  else if b = escapeMark then .ok ({ d with escaped := true }, none)
  else literalChecked d b

def decodeChecked (d : Decoder) : List UInt8 → Except ReadFault (Decoder × List Datagram)
  | [] => .ok (d, [])
  | b :: rest => do
    let (d', completed) ← feedChecked d b
    let (d'', datagrams) ← decodeChecked d' rest
    return (d'', completed.toList ++ datagrams)

def nextChecked (d : Decoder) :
    List UInt8 → Except ReadFault (Decoder × Option Datagram × List UInt8)
  | [] => .ok (d, none, [])
  | b :: rest => do
    match ← feedChecked d b with
    | (d', some datagram) => return (d', some datagram, rest)
    | (d', none) => nextChecked d' rest

def pullChecked (d : Decoder) (bytes : List UInt8) :
    Nat → Except ReadFault (Decoder × List Datagram × List UInt8)
  | 0 => .ok (d, [], bytes)
  | n + 1 => do
    match ← nextChecked d bytes with
    | (d', none, rest) => return (d', [], rest)
    | (d', some datagram, rest) =>
      let (d'', datagrams, unread) ← pullChecked d' rest n
      return (d'', datagram :: datagrams, unread)

def performChecked (d : Decoder) : Use → Except ReadFault (Decoder × List Datagram)
  | .feed b => do
    let (d', completed) ← feedChecked d b
    return (d', completed.toList)
  | .parse chunk => decodeChecked d chunk
  | .pull chunk limit => do
    let (d', datagrams, _) ← pullChecked d chunk limit
    return (d', datagrams)
  | .reset => .ok (d.reset, [])

lemma ok_bind {ε α β : Type} (a : α) (f : α → Except ε β) : (Except.ok a >>= f) = f a := rfl

section Checks

variable {d : Decoder} {values : List UInt8}

lemma payloadRoom_eq {size : UInt8} (h : ¬ size.toNat < identifierSize) :
    ∃ room, payloadRoom size = .ok room ∧ room.toNat = size.toNat - identifierSize := by
  refine ⟨size - UInt8.ofNat identifierSize, if_neg h, ?_⟩
  have hle : UInt8.ofNat identifierSize ≤ size := by
    rw [UInt8.le_iff_toNat_le]
    exact Nat.not_lt.mp h
  rw [UInt8.toNat_sub_of_le _ _ hle]
  rfl

lemma make_eq {command : Command} {identifier : Identifier} {payload : List UInt8}
    (h : payload.length ≤ maxPayload) :
    Datagram.make command identifier payload = .ok ⟨command, identifier, payload⟩ := if_pos h

lemma concludeChecked_eq (h : d.payload.length ≤ maxPayload) :
    concludeChecked d = .ok d.conclude := by
  unfold concludeChecked
  split
  · rfl
  · rename_i hcrc
    rw [make_eq h]
    simp only [conclude, hcrc, if_false]
    rfl

lemma literalChecked_eq (h : Progress d values) (b : UInt8) :
    literalChecked d b = .ok (d.literal b) := by
  cases hp : d.phase
  case awaitingSize =>
    simp only [literalChecked, literal, hp]
    split
    · rfl
    · rename_i hsize
      obtain ⟨room, hroom, heq⟩ := payloadRoom_eq hsize
      rw [hroom, ← heq]
      rfl
  case awaitingCrc1 =>
    simp only [literalChecked, literal, hp]
    have hfits := fits_of_progress h hp
    exact concludeChecked_eq hfits
  all_goals simp only [literalChecked, hp]

lemma feedChecked_eq (h : Progress d values) (b : UInt8) :
    feedChecked d b = .ok (d.feed b) := by
  have hplain : literalChecked { d with escaped := false } b =
      .ok (literal { d with escaped := false } b) :=
    literalChecked_eq (progress_setEscaped h false) b
  unfold feedChecked feed
  rw [hplain, literalChecked_eq h]
  split_ifs <;> rfl

lemma progress_feed (h : Progress d values) (b : UInt8) :
    ∃ values', Progress (d.feed b).1 values' := by
  obtain ⟨added, -, hnext, -⟩ := progress_react h (.byte b)
  exact ⟨_, hnext⟩

lemma decodeChecked_eq (h : Progress d values) (bytes : List UInt8) :
    decodeChecked d bytes = .ok (d.decode bytes) := by
  induction bytes generalizing d values with
  | nil => rfl
  | cons b rest ih =>
    obtain ⟨values', hnext⟩ := progress_feed h b
    simp only [decodeChecked, feedChecked_eq h, ok_bind, ih hnext]
    rfl

lemma nextChecked_eq (h : Progress d values) (bytes : List UInt8) :
    nextChecked d bytes = .ok (d.next bytes) ∧
      ∃ values', Progress (d.next bytes).1 values' := by
  induction bytes generalizing d values with
  | nil => exact ⟨rfl, values, h⟩
  | cons b rest ih =>
    obtain ⟨values', hnext⟩ := progress_feed h b
    rw [nextChecked, feedChecked_eq h, next]
    cases hfeed : d.feed b with
    | mk d' completed =>
      rw [hfeed] at hnext
      cases completed with
      | some g => exact ⟨rfl, values', hnext⟩
      | none => exact ih hnext

lemma pullChecked_eq (h : Progress d values) (bytes : List UInt8) (n : Nat) :
    pullChecked d bytes n = .ok (d.pull bytes n) := by
  induction n generalizing d values bytes with
  | zero => rfl
  | succ n ih =>
    obtain ⟨hread, values', hnext⟩ := nextChecked_eq h bytes
    rcases hstop : d.next bytes with ⟨d', completed, rest⟩
    rw [hstop] at hread hnext
    cases completed with
    | none =>
      simp only [pullChecked, pull, hread, hstop, ok_bind]
      rfl
    | some g =>
      simp only [pullChecked, pull, hread, hstop, ok_bind, ih hnext]
      rfl

theorem performChecked_eq (h : Progress d values) (use : Use) :
    performChecked d use = .ok (perform d use) := by
  cases use with
  | feed b =>
    rw [performChecked, feedChecked_eq h]
    rfl
  | parse chunk => exact decodeChecked_eq h chunk
  | pull chunk limit =>
    rw [performChecked, pullChecked_eq h]
    rfl
  | reset => rfl

end Checks
end InverterLink.Proofs
