import InverterLink.Proofs.FrameText

/-!
# What a decoder accepts

The bytes of a stream are read by position: an escape mark that is not escaped makes the next
byte a literal, and a start mark that is not escaped begins a frame. A fresh decoder completes a
datagram at exactly those literals that end a text which spells it.
-/

namespace InverterLink.Proofs
open Decoder InverterLink.Frame

/-- The size byte of the text leaves room for the payload that the decoder expects. -/
def Sized (d : Decoder) (size : UInt8) : Prop :=
  identifierSize ≤ size.toNat ∧ d.payloadSize = size.toNat - identifierSize

/-- The header of the text is the one that the decoder has read. -/
structure Headed (d : Decoder) (f : FrameText) : Prop where
  command : f.command = d.command.code
  sized : Sized d f.size
  identifier : d.identifier = joinLong f.id3 f.id2 f.id1 f.id0
  payload : f.payload = d.payload
  crc : d.crc = ({} : Crc).updateAll f.covered

/-- What a decoder knows about the literals since the last start mark. -/
def Progress (d : Decoder) (values : List UInt8) : Prop :=
  match d.phase with
  | .awaitingStart | .done => True
  | .awaitingCommand => values = []
  | .awaitingSize =>
    values = [d.command.code] ∧ d.crc = ({} : Crc).updateAll values
  | .awaitingId0 =>
    ∃ size, values = [d.command.code, size] ∧ Sized d size ∧ d.crc = ({} : Crc).updateAll values
  | .awaitingId1 =>
    ∃ size b3, values = [d.command.code, size, b3] ∧ Sized d size ∧
      d.identifier = b3.toUInt32 <<< 24 ∧ d.crc = ({} : Crc).updateAll values
  | .awaitingId2 =>
    ∃ size b3 b2, values = [d.command.code, size, b3, b2] ∧ Sized d size ∧
      d.identifier = b3.toUInt32 <<< 24 ||| b2.toUInt32 <<< 16 ∧
      d.crc = ({} : Crc).updateAll values
  | .awaitingId3 =>
    ∃ size b3 b2 b1, values = [d.command.code, size, b3, b2, b1] ∧ Sized d size ∧
      d.identifier = b3.toUInt32 <<< 24 ||| b2.toUInt32 <<< 16 ||| b1.toUInt32 <<< 8 ∧
      d.crc = ({} : Crc).updateAll values
  | .awaitingPayload =>
    ∃ f, Headed d f ∧ values = f.covered ∧ d.payload.length < d.payloadSize
  | .awaitingCrc0 =>
    ∃ f, Headed d f ∧ values = f.covered ∧ d.payload.length = d.payloadSize
  | .awaitingCrc1 =>
    ∃ f, Headed d f ∧ values = f.covered ++ [f.crc1] ∧ d.payload.length = d.payloadSize ∧
      d.received = f.crc1.toUInt16 <<< 8

/-- Every literal keeps what the decoder knows. -/
theorem progress_literal {d : Decoder} {values : List UInt8} (h : Progress d values) (b : UInt8) :
    Progress (d.literal b).1 (values ++ [b]) := by
  cases hp : d.phase <;> simp only [Progress, hp] at h
  case awaitingStart => simp [literal, hp, Progress]
  case done => simp [literal, hp, Progress]
  case awaitingCommand =>
    subst h
    cases hc : Command.ofCode? b with
    | none => simp [literal, hp, hc, Progress, rejectHeader]
    | some c => simp [literal, hp, hc, Progress, Command.code_of_ofCode? hc, Crc.updateAll]
  case awaitingSize =>
    obtain ⟨hv, hcrc⟩ := h
    by_cases hs : b.toNat < identifierSize
    · simp [literal, hp, hs, Progress, rejectHeader]
    · simp only [literal, hp, hs, if_false, Progress]
      refine ⟨b, by rw [hv]; rfl, ⟨by omega, rfl⟩, ?_⟩
      rw [updateAll_concat, hcrc]
  case awaitingId0 =>
    obtain ⟨size, hv, hs, hcrc⟩ := h
    simp only [literal, hp, Progress]
    refine ⟨size, b, by rw [hv]; rfl, hs, rfl, ?_⟩
    rw [updateAll_concat, hcrc]
  case awaitingId1 =>
    obtain ⟨size, b3, hv, hs, hi, hcrc⟩ := h
    simp only [literal, hp, Progress]
    refine ⟨size, b3, b, by rw [hv]; rfl, hs, by rw [hi], ?_⟩
    rw [updateAll_concat, hcrc]
  case awaitingId2 =>
    obtain ⟨size, b3, b2, hv, hs, hi, hcrc⟩ := h
    simp only [literal, hp, Progress]
    refine ⟨size, b3, b2, b, by rw [hv]; rfl, hs, by rw [hi], ?_⟩
    rw [updateAll_concat, hcrc]
  case awaitingId3 =>
    obtain ⟨size, b3, b2, b1, hv, hs, hi, hcrc⟩ := h
    let f : FrameText := ⟨d.command.code, size, b3, b2, b1, b, [], 0, 0⟩
    have hf : Headed (d.literal b).1 f := by
      simp only [literal, hp]
      refine ⟨rfl, hs, by rw [hi]; rfl, rfl, ?_⟩
      rw [hcrc, ← updateAll_concat, hv]
      rfl
    have hv' : values ++ [b] = f.covered := by rw [hv]; rfl
    by_cases hz : d.payloadSize = 0
    · have hl : (d.literal b).1.phase = .awaitingCrc0 := by simp [literal, hp, hz]
      simp only [Progress, hl]
      exact ⟨f, hf, hv', by simp [literal, hp, hz]⟩
    · have hl : (d.literal b).1.phase = .awaitingPayload := by simp [literal, hp, hz]
      simp only [Progress, hl]
      exact ⟨f, hf, hv', by simp [literal, hp]; omega⟩
  case awaitingPayload =>
    obtain ⟨f, hf, hv, hlt⟩ := h
    let f' : FrameText := { f with payload := d.payload ++ [b] }
    have hc : f'.covered = values ++ [b] := by
      rw [hv]
      simp [f', FrameText.covered, FrameText.header, hf.payload]
    have hf' : Headed (d.literal b).1 f' := by
      simp only [literal, hp]
      refine ⟨hf.command, hf.sized, hf.identifier, rfl, ?_⟩
      rw [hc, updateAll_concat, hf.crc, hv]
    by_cases hz : d.payloadSize ≤ d.payload.length + 1
    · have hl : (d.literal b).1.phase = .awaitingCrc0 := by simp [literal, hp, hz]
      simp only [Progress, hl]
      exact ⟨f', hf', hc.symm, by simp [literal, hp]; omega⟩
    · have hl : (d.literal b).1.phase = .awaitingPayload := by simp [literal, hp, hz]
      simp only [Progress, hl]
      exact ⟨f', hf', hc.symm, by simp [literal, hp]; omega⟩
  case awaitingCrc0 =>
    obtain ⟨f, hf, hv, hl⟩ := h
    simp only [literal, hp, Progress]
    refine ⟨{ f with crc1 := b }, ⟨hf.command, hf.sized, hf.identifier, hf.payload, hf.crc⟩, ?_,
      hl, rfl⟩
    rw [hv]
    rfl
  case awaitingCrc1 =>
    simp only [literal, hp, conclude]
    split <;> trivial

lemma progress_readLiterals {d : Decoder} {values : List UInt8} (h : Progress d values)
    (more : List UInt8) : Progress (readLiterals d more).1 (values ++ more) := by
  induction more generalizing d values with
  | nil => simpa [readLiterals] using h
  | cons b rest ih =>
    rw [readLiterals_cons, List.append_cons]
    exact ih (progress_literal h b)

lemma spells_of_literal {d : Decoder} {values : List UInt8} (h : Progress d values) {b : UInt8}
    {g : Datagram} (hg : (d.literal b).2 = some g) :
    ∃ f : FrameText, values ++ [b] = f.values ∧ f.Spells g := by
  cases hp : d.phase
  case awaitingCrc1 =>
    simp only [Progress, hp] at h
    obtain ⟨f, hf, hv, hl, hr⟩ := h
    simp only [literal, hp, conclude] at hg
    split at hg
    · cases hg
    · rename_i hcrc
      rw [not_not] at hcrc
      cases hg
      refine ⟨{ f with crc0 := b }, by rw [hv]; simp [FrameText.values, FrameText.covered,
        FrameText.header], ?_⟩
      constructor
      · rw [hf.command]
        exact Command.ofCode?_code d.command
      · exact hf.sized.1
      · rw [← hf.sized.2, ← hl, ← hf.payload]
      · exact hf.identifier
      · exact hf.payload.symm
      · rw [hf.crc, finish_updateAll, hr] at hcrc
        exact hcrc.symm
  case awaitingCommand =>
    simp only [literal, hp] at hg
    split at hg <;> cases hg
  case awaitingSize =>
    simp only [literal, hp] at hg
    split at hg <;> cases hg
  all_goals simp [literal, hp] at hg

/-- Behind a start mark, a literal completes a datagram exactly if it ends a text that spells
the datagram. -/
theorem literal_completes_iff {e : Decoder} (he : e.phase = .awaitingCommand)
    (values : List UInt8) (b : UInt8) (g : Datagram) :
    ((readLiterals e values).1.literal b).2 = some g ↔
      ∃ f : FrameText, values ++ [b] = f.values ∧ f.Spells g := by
  constructor
  · intro h
    have hn : Progress e [] := by simp [Progress, he]
    exact spells_of_literal (progress_readLiterals hn values) h
  · rintro ⟨f, hv, hf⟩
    have hsplit : f.values = (f.covered ++ [f.crc1]) ++ [f.crc0] := by simp [FrameText.values]
    obtain ⟨rfl, hb⟩ := List.append_inj' (hv.trans hsplit) rfl
    cases hb
    rw [literal_last he hf]

/-- The byte at a position stands for itself because of the byte before it. -/
def escapedAt (bytes : List UInt8) : Nat → Bool
  | 0 => false
  | i + 1 => bytes[i]? == some escapeMark && !escapedAt bytes i

/-- A frame begins at a position. -/
def startsAt (bytes : List UInt8) (i : Nat) : Bool :=
  bytes[i]? == some startMark && !escapedAt bytes i

/-- The literal at a position, if there is one: an escaped byte, or one that is no mark. -/
def literalAt? (bytes : List UInt8) (i : Nat) : Option UInt8 :=
  bytes[i]?.filter fun b => escapedAt bytes i || !isMark b

/-- The literals from one position up to another, which is left out. -/
def literalsIn (bytes : List UInt8) (first last : Nat) : List UInt8 :=
  (List.range' first (last - first)).filterMap (literalAt? bytes)

/-- A decoder before the byte at a position. -/
def stateAt (d : Decoder) (bytes : List UInt8) (i : Nat) : Decoder := (d.decode (bytes.take i)).1

/-- What the byte at a position completes. -/
def emittedAt (d : Decoder) (bytes : List UInt8) (i : Nat) : Option Datagram :=
  bytes[i]?.bind fun b => ((stateAt d bytes i).feed b).2

section Positions

variable {d : Decoder} {bytes : List UInt8} {i j : Nat}

lemma stateAt_succ (hi : i < bytes.length) :
    stateAt d bytes (i + 1) = ((stateAt d bytes i).feed bytes[i]).1 := by
  rw [stateAt, List.take_add_one, List.getElem?_eq_getElem hi, decode_append]
  rfl

lemma emittedAt_of_lt (hi : i < bytes.length) :
    emittedAt d bytes i = ((stateAt d bytes i).feed bytes[i]).2 := by
  simp [emittedAt, hi]

/-- The datagrams that come out are those that the bytes complete, in order. -/
lemma decode_eq_emitted (d : Decoder) (bytes : List UInt8) :
    (d.decode bytes).2 = (List.range bytes.length).filterMap (emittedAt d bytes) := by
  -- induction on how much has been read, for the positions count from the start
  have h : ∀ n ≤ bytes.length,
      (d.decode (bytes.take n)).2 = (List.range n).filterMap (emittedAt d bytes) := by
    intro n hn
    induction n with
    | zero => rfl
    | succ n ih =>
      have hl : n < bytes.length := hn
      have he : [n].filterMap (emittedAt d bytes) =
          ((stateAt d bytes n).feed bytes[n]).2.toList := by
        rw [← emittedAt_of_lt hl]
        cases h : emittedAt d bytes n <;> simp [h]
      rw [List.range_succ, List.filterMap_append, ← ih (by omega), he, List.take_add_one,
        List.getElem?_eq_getElem hl, decode_append]
      simp [decode_cons, stateAt, decode]
  have hall := h bytes.length le_rfl
  rwa [List.take_length] at hall

lemma feed_escaped (d : Decoder) (b : UInt8) :
    (d.feed b).1.escaped = (b == escapeMark && !d.escaped) := by
  cases h : d.escaped with
  | true => rw [feed_of_escaped h, literal_keeps_escaped]; simp [setEscaped]
  | false =>
    by_cases hs : b = startMark
    · subst hs
      rw [feed_startMark h]
      exact h
    · by_cases hx : b = escapeMark
      · subst hx
        rw [feed_escapeMark h]
        simp [setEscaped]
      · have hb : isMark b = false := by simp [isMark, hs, hx]
        rw [feed_plain h hb, literal_keeps_escaped, h]
        simp [hx]

lemma stateAt_escaped (hd : d.escaped = false) (hi : i ≤ bytes.length) :
    (stateAt d bytes i).escaped = escapedAt bytes i := by
  induction i with
  | zero => exact hd
  | succ i ih =>
    have hl : i < bytes.length := hi
    rw [stateAt_succ hl, feed_escaped, ih (by omega), escapedAt, List.getElem?_eq_getElem hl]
    simp

lemma literalAt?_of_escaped (hi : i < bytes.length) (he : escapedAt bytes i = true) :
    literalAt? bytes i = some bytes[i] := by
  simp [literalAt?, hi, he]

lemma literalAt?_of_plain (hi : i < bytes.length) (hb : isMark bytes[i] = false) :
    literalAt? bytes i = some bytes[i] := by
  simp [literalAt?, hi, hb]

lemma literalAt?_of_mark (hi : i < bytes.length) (he : escapedAt bytes i = false)
    (hb : isMark bytes[i] = true) : literalAt? bytes i = none := by
  simp [literalAt?, hi, he, hb]

lemma literalsIn_self : literalsIn bytes i i = [] := by
  simp [literalsIn]

lemma literalsIn_succ (h : j ≤ i) :
    literalsIn bytes j (i + 1) = literalsIn bytes j i ++ (literalAt? bytes i).toList := by
  have hr : List.range' j (i + 1 - j) = List.range' j (i - j) ++ [i] := by
    rw [Nat.succ_sub h, List.range'_concat]
    simp; omega
  rw [literalsIn, hr, List.filterMap_append]
  cases hl : literalAt? bytes i <;> simp [literalsIn, hl]

lemma feed_of_not_start (hi : i < bytes.length) (hn : startsAt bytes i = false)
    (he : d.escaped = escapedAt bytes i) :
    (d.feed bytes[i]).1 =
        setEscaped (readLiterals d (literalAt? bytes i).toList).1 (escapedAt bytes (i + 1)) ∧
      (d.feed bytes[i]).2 = (literalAt? bytes i).bind fun b => (d.literal b).2 := by
  have hs : escapedAt bytes (i + 1) = (bytes[i] == escapeMark && !escapedAt bytes i) := by
    simp [escapedAt, hi]
  cases h : escapedAt bytes i with
  | true =>
    rw [hs, h, feed_of_escaped (he.trans h), literal_setEscaped, literalAt?_of_escaped hi h]
    simp [readLiterals]
  | false =>
    have hne : bytes[i] ≠ startMark := by simpa [startsAt, hi, h] using hn
    by_cases hx : bytes[i] = escapeMark
    · rw [hs, h, literalAt?_of_mark hi h (by simp [isMark, hx]), hx, feed_escapeMark (he.trans h)]
      simp [readLiterals]
    · have hb : isMark bytes[i] = false := by simp [isMark, hne, hx]
      have hk : (d.literal bytes[i]).1.escaped = false := by
        rw [literal_keeps_escaped, he, h]
      have hx' : (bytes[i] == escapeMark) = false := by simpa using hx
      rw [hs, h, hx', literalAt?_of_plain hi hb, feed_plain (he.trans h) hb]
      exact ⟨(setEscaped_self hk).symm, rfl⟩

lemma stateAt_behind_start (hd : d.escaped = false) (hj : startsAt bytes j = true) (hji : j < i)
    (hi : i ≤ bytes.length) (hlast : ∀ k, j < k → k < i → startsAt bytes k = false) :
    ∃ e : Decoder, e.phase = .awaitingCommand ∧ stateAt d bytes i =
      setEscaped (readLiterals e (literalsIn bytes (j + 1) i)).1 (escapedAt bytes i) := by
  induction i, hji using Nat.le_induction with
  | base =>
    have hl : j < bytes.length := hi
    have hb : bytes[j] = startMark ∧ escapedAt bytes j = false := by
      simpa [startsAt, hl] using hj
    have he : (stateAt d bytes j).escaped = false := by
      rw [stateAt_escaped hd hl.le, hb.2]
    have hr : (stateAt d bytes j).restart.escaped = false := he
    have hn : escapedAt bytes (j + 1) = false := by
      rw [escapedAt, List.getElem?_eq_getElem hl, hb.1]
      rfl
    refine ⟨(stateAt d bytes j).restart, rfl, ?_⟩
    rw [stateAt_succ hl, hb.1, feed_startMark he, literalsIn_self, hn]
    exact (setEscaped_self hr).symm
  | succ i hji ih =>
    obtain ⟨e, he, hs⟩ := ih (by omega) (fun k hjk hki => hlast k hjk (by omega))
    have hl : i < bytes.length := hi
    refine ⟨e, he, ?_⟩
    have hf := (feed_of_not_start hl (hlast i hji (by omega)) (stateAt_escaped hd hl.le)).1
    rw [stateAt_succ hl, hf, literalsIn_succ hji, readLiterals_append, hs,
      readLiterals_setEscaped]
    rfl

lemma stateAt_before_start (hd : d.escaped = false) (hb : Between d) (hi : i ≤ bytes.length)
    (hnone : ∀ k, k < i → startsAt bytes k = false) :
    stateAt d bytes i = setEscaped d (escapedAt bytes i) := by
  induction i with
  | zero => exact (setEscaped_self hd).symm
  | succ i ih =>
    have hl : i < bytes.length := hi
    have hs := ih hl.le (fun k hk => hnone k (by omega))
    have hf := (feed_of_not_start hl (hnone i (by omega)) (stateAt_escaped hd hl.le)).1
    have hb' : Between (setEscaped d (escapedAt bytes i)) := hb
    rw [stateAt_succ hl, hf, hs, readLiterals_between hb']
    rfl

lemma last_start (bytes : List UInt8) (i : Nat) :
    (∀ k, k < i → startsAt bytes k = false) ∨
      ∃ j, j < i ∧ startsAt bytes j = true ∧ ∀ k, j < k → k < i → startsAt bytes k = false := by
  induction i with
  | zero => exact .inl fun k hk => absurd hk (Nat.not_lt_zero k)
  | succ i ih =>
    cases hs : startsAt bytes i with
    | true => exact .inr ⟨i, by omega, hs, fun k hk hk' => by omega⟩
    | false =>
      rcases ih with h | ⟨j, hj, hjs, h⟩
      · left
        intro k hk
        rcases Nat.lt_succ_iff_lt_or_eq.mp hk with hk | rfl
        · exact h k hk
        · exact hs
      · refine .inr ⟨j, by omega, hjs, fun k hjk hk => ?_⟩
        rcases Nat.lt_succ_iff_lt_or_eq.mp hk with hk | rfl
        · exact h k hjk hk
        · exact hs

lemma last_start_unique {j' : Nat} (hji : j < i) (hj : startsAt bytes j = true)
    (hlast : ∀ k, j < k → k < i → startsAt bytes k = false) (hji' : j' < i)
    (hj' : startsAt bytes j' = true) (hlast' : ∀ k, j' < k → k < i → startsAt bytes k = false) :
    j = j' := by
  rcases Nat.lt_trichotomy j j' with h | h | h
  · rw [hlast j' h hji'] at hj'
    cases hj'
  · exact h
  · rw [hlast' j h hji] at hj
    cases hj

/-- Behind a start mark, a position completes a datagram exactly if it holds a literal that ends
a text which spells the datagram. -/
lemma emittedAt_behind_start (hd : d.escaped = false) (hj : startsAt bytes j = true) (hji : j < i)
    (hi : i < bytes.length) (hlast : ∀ k, j < k → k ≤ i → startsAt bytes k = false)
    (g : Datagram) :
    emittedAt d bytes i = some g ↔
      (literalAt? bytes i).isSome ∧
        ∃ f : FrameText, literalsIn bytes (j + 1) (i + 1) = f.values ∧ f.Spells g := by
  obtain ⟨e, he, hs⟩ := stateAt_behind_start hd hj hji hi.le (fun k h h' => hlast k h h'.le)
  have hf := (feed_of_not_start hi (hlast i hji le_rfl) (stateAt_escaped hd hi.le)).2
  rw [emittedAt_of_lt hi, hf, literalsIn_succ hji]
  cases hl : literalAt? bytes i with
  | none => simp
  | some b =>
    rw [Option.bind_some, hs, literal_setEscaped]
    simpa using literal_completes_iff he (literalsIn bytes (j + 1) i) b g

lemma emittedAt_before_start (hd : d.escaped = false) (hb : Between d)
    (hi : i < bytes.length) (hnone : ∀ k, k ≤ i → startsAt bytes k = false) :
    emittedAt d bytes i = none := by
  have hs := stateAt_before_start hd hb hi.le (fun k hk => hnone k hk.le)
  have hf := (feed_of_not_start hi (hnone i le_rfl) (stateAt_escaped hd hi.le)).2
  have hb' : Between (setEscaped d (escapedAt bytes i)) := hb
  rw [emittedAt_of_lt hi, hf, hs]
  cases hl : literalAt? bytes i with
  | none => rfl
  | some b => rw [Option.bind_some, literal_between hb']

lemma not_literal_of_startsAt (h : startsAt bytes i = true) : literalAt? bytes i = none := by
  have hs : bytes[i]? = some startMark ∧ escapedAt bytes i = false := by
    simpa [startsAt] using h
  rw [literalAt?, hs.1, hs.2]
  rfl

lemma not_emitted_of_startsAt (hd : d.escaped = false) (hi : i < bytes.length)
    (h : startsAt bytes i = true) : emittedAt d bytes i = none := by
  have hs : bytes[i] = startMark ∧ escapedAt bytes i = false := by
    simpa [startsAt, hi] using h
  have he : (stateAt d bytes i).escaped = false := by rw [stateAt_escaped hd hi.le, hs.2]
  rw [emittedAt_of_lt hi, hs.1, feed_startMark he]

end Positions

/-- The decoder accepts exactly the texts on the wire: a position completes a datagram if and only
if it holds a literal, and the literals from the last start mark up to it spell the datagram.
Nothing else comes out. -/
theorem decoder_accepts_exactly (bytes : List UInt8) :
    (∀ (i : Nat) (g : Datagram), emittedAt {} bytes i = some g ↔
      (literalAt? bytes i).isSome ∧
        ∃ j < i, startsAt bytes j = true ∧ (∀ k, j < k → k < i → startsAt bytes k = false) ∧
          ∃ f : FrameText, literalsIn bytes (j + 1) (i + 1) = f.values ∧ f.Spells g) ∧
      (({} : Decoder).decode bytes).2 =
        (List.range bytes.length).filterMap (emittedAt {} bytes) := by
  refine ⟨fun i g => ?_, decode_eq_emitted {} bytes⟩
  have hd : ({} : Decoder).escaped = false := rfl
  have hb : Between {} := rfl
  rcases Nat.lt_or_ge i bytes.length with hi | hi
  · cases hs : startsAt bytes i with
    | true => simp [not_emitted_of_startsAt hd hi hs, not_literal_of_startsAt hs]
    | false =>
      rcases last_start bytes i with hnone | ⟨j, hji, hj, hlast⟩
      · have hnone' : ∀ k, k ≤ i → startsAt bytes k = false := fun k hk =>
          (Nat.lt_or_eq_of_le hk).elim (hnone k) (fun h => h ▸ hs)
        rw [emittedAt_before_start hd hb hi hnone']
        refine ⟨fun h => absurd h (by simp), ?_⟩
        rintro ⟨-, j, hji, hj, -⟩
        rw [hnone j hji] at hj
        cases hj
      · have hlast' : ∀ k, j < k → k ≤ i → startsAt bytes k = false := fun k hjk hk =>
          (Nat.lt_or_eq_of_le hk).elim (hlast k hjk) (fun h => h ▸ hs)
        rw [emittedAt_behind_start hd hj hji hi hlast' g]
        constructor
        · rintro ⟨hl, hf⟩
          exact ⟨hl, j, hji, hj, hlast, hf⟩
        · rintro ⟨hl, j', hji', hj', hlast'', hf⟩
          have hjj : j' = j := last_start_unique hji' hj' hlast'' hji hj hlast
          exact ⟨hl, hjj ▸ hf⟩
  · simp [emittedAt, literalAt?, hi]

end InverterLink.Proofs
