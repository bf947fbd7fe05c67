import InverterLink.Proofs.DecoderRuns

/-!
# Reading on demand

Who wants a few datagrams of a chunk gets the first ones, and the decoder reads no byte behind the
last of them. What is left of the chunk can be read later, as if it were a chunk of its own:
nothing is lost at the cut, and nothing is read twice.
-/

namespace InverterLink.Proofs
open Decoder InverterLink.Frame

/-- How many datagrams the first bytes of a chunk complete. -/
def completed (d : Decoder) (chunk : List UInt8) (k : Nat) : Nat :=
  (d.decode (chunk.take k)).2.length

/-- The shortest part of a chunk that completes so many datagrams has so many bytes; it is the
whole chunk if the chunk completes fewer. -/
structure ShortestPart (d : Decoder) (chunk : List UInt8) (n k : Nat) : Prop where
  within : k ≤ chunk.length
  least : ∀ j < k, completed d chunk j < n
  complete : completed d chunk k = n ∨ k = chunk.length ∧ completed d chunk k < n

section Bytewise

variable (d : Decoder) (b : UInt8) (rest : List UInt8)

lemma completed_zero (chunk : List UInt8) : completed d chunk 0 = 0 := rfl

lemma completed_succ (k : Nat) :
    completed d (b :: rest) (k + 1) =
      (d.feed b).2.toList.length + completed (d.feed b).1 rest k := by
  rw [completed, List.take_succ_cons, decode_cons, List.length_append]
  rfl

lemma pull_nil (n : Nat) : d.pull [] n = (d, [], []) := by
  cases n <;> rfl

lemma pull_none (n : Nat) (h : (d.feed b).2 = none) :
    d.pull (b :: rest) (n + 1) = (d.feed b).1.pull rest (n + 1) := by
  have hf : d.feed b = ((d.feed b).1, none) := Prod.ext rfl h
  rw [pull, pull, next, hf]

lemma pull_some (n : Nat) {g : Datagram} (h : (d.feed b).2 = some g) :
    d.pull (b :: rest) (n + 1) =
      (((d.feed b).1.pull rest n).1, g :: ((d.feed b).1.pull rest n).2.1,
        ((d.feed b).1.pull rest n).2.2) := by
  have hf : d.feed b = ((d.feed b).1, some g) := Prod.ext rfl h
  rw [pull, next, hf]

variable {d b rest}

lemma shortestPart_cons {n m k : Nat} (hn : 0 < n)
    (hm : (d.feed b).2.toList.length + m = n) (h : ShortestPart (d.feed b).1 rest m k) :
    ShortestPart d (b :: rest) n (k + 1) := by
  refine ⟨Nat.succ_le_succ h.within, fun j hj => ?_, ?_⟩
  · cases j with
    | zero => rwa [completed_zero]
    | succ j =>
      have hlt := h.least j (by omega)
      rw [completed_succ]
      omega
  · rw [completed_succ, List.length_cons]
    rcases h.complete with hc | ⟨hk, hc⟩
    · left
      omega
    · right
      omega

end Bytewise

/-- Pulling datagrams is decoding the shortest part of the chunk that completes them. -/
theorem pull_eq_decode (d : Decoder) (chunk : List UInt8) (n : Nat) :
    ∃ k, ShortestPart d chunk n k ∧
      d.pull chunk n =
        ((d.decode (chunk.take k)).1, (d.decode (chunk.take k)).2, chunk.drop k) := by
  induction chunk generalizing d n with
  | nil =>
    refine ⟨0, ⟨le_rfl, fun j hj => absurd hj (Nat.not_lt_zero j), ?_⟩, pull_nil d n⟩
    rw [completed_zero]
    rcases Nat.eq_zero_or_pos n with rfl | hn
    · exact .inl rfl
    · exact .inr ⟨rfl, hn⟩
  | cons b rest ih =>
    cases n with
    | zero =>
      exact ⟨0, ⟨Nat.zero_le _, fun j hj => absurd hj (Nat.not_lt_zero j), .inl rfl⟩, rfl⟩
    | succ n =>
      cases h : (d.feed b).2 with
      | none =>
        obtain ⟨k, hk, hpull⟩ := ih (d.feed b).1 (n + 1)
        refine ⟨k + 1, shortestPart_cons n.succ_pos (by rw [h]; exact Nat.zero_add _) hk, ?_⟩
        rw [pull_none d b rest n h, hpull, List.take_succ_cons, decode_cons, h]
        rfl
      | some g =>
        obtain ⟨k, hk, hpull⟩ := ih (d.feed b).1 n
        refine ⟨k + 1, shortestPart_cons n.succ_pos (by rw [h]; exact Nat.add_comm 1 n) hk, ?_⟩
        rw [pull_some d b rest n h, hpull, List.take_succ_cons, decode_cons, h]
        rfl

section Parts

variable {d : Decoder} {chunk : List UInt8} {n k : Nat}

lemma decode_split (d : Decoder) (chunk : List UInt8) (k : Nat) :
    d.decode chunk =
      (((d.decode (chunk.take k)).1.decode (chunk.drop k)).1,
        (d.decode (chunk.take k)).2 ++ ((d.decode (chunk.take k)).1.decode (chunk.drop k)).2) := by
  rw [← decode_append, List.take_append_drop]

/-- The shortest part completes the first datagrams of the chunk, and the rest the others. -/
lemma decode_shortest (h : ShortestPart d chunk n k) :
    (d.decode (chunk.take k)).2 = (d.decode chunk).2.take n ∧
      ((d.decode (chunk.take k)).1.decode (chunk.drop k)).2 = (d.decode chunk).2.drop n := by
  rw [decode_split d chunk k]
  rcases h.complete with hc | ⟨hk, hc⟩
  · exact ⟨(List.take_left' hc).symm, (List.drop_left' hc).symm⟩
  · -- too few datagrams: the part is the whole chunk, and nothing is left
    have hnone : chunk.drop k = [] := List.drop_eq_nil_of_le hk.ge
    rw [hnone, decode, List.append_nil]
    exact ⟨(List.take_of_length_le hc.le).symm, (List.drop_eq_nil_of_le hc.le).symm⟩

lemma length_of_shortest (h : ShortestPart d chunk n k) (hn : (d.decode chunk).2.length < n) :
    k = chunk.length := by
  rcases h.complete with hc | ⟨hk, -⟩
  · rw [decode_split d chunk k, List.length_append] at hn
    rw [completed] at hc
    omega
  · exact hk

end Parts

/-- Pulling at most so many datagrams from a chunk gives the first of those that the whole chunk
gives. The decoder is then where the shortest part of the chunk leads that completes them, with
nothing read for none and everything read if there are too few. What was not read gives the other
datagrams and leads to where the whole chunk leads, statistics included. -/
theorem pull_reads_no_further (d : Decoder) (chunk : List UInt8) (n : Nat) :
    let full := d.decode chunk
    let pulled := d.pull chunk n
    pulled.2.1 = full.2.take n ∧
      (∃ k, ShortestPart d chunk n k ∧ pulled.1 = (d.decode (chunk.take k)).1 ∧
        pulled.2.2 = chunk.drop k) ∧
      d.pull chunk 0 = (d, [], chunk) ∧
      (∀ m, d.pull chunk (full.2.length + 1 + m) = (full.1, full.2, [])) ∧
      pulled.1.decode pulled.2.2 = (full.1, full.2.drop n) := by
  intro full pulled
  obtain ⟨k, hk, hpull⟩ := pull_eq_decode d chunk n
  obtain ⟨hfirst, hothers⟩ := decode_shortest hk
  have hpulled : pulled =
      ((d.decode (chunk.take k)).1, (d.decode (chunk.take k)).2, chunk.drop k) := hpull
  rw [hpulled]
  refine ⟨hfirst, ⟨k, hk, rfl, rfl⟩, rfl, fun m => ?_, ?_⟩
  · obtain ⟨k', hk', hall⟩ := pull_eq_decode d chunk (full.2.length + 1 + m)
    have hwhole : k' = chunk.length := by
      apply length_of_shortest hk'
      change full.2.length < full.2.length + 1 + m
      omega
    rw [hall, hwhole, List.take_length, List.drop_length]
  · have hend := congrArg Prod.fst (decode_split d chunk k)
    exact Prod.ext hend.symm hothers

end InverterLink.Proofs
