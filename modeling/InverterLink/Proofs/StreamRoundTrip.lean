import InverterLink.Proofs.FrameText

/-!
# Streams of frames

The frames of any datagrams, sent one behind the other and cut anywhere, are read as those
datagrams. The reader may be in the middle of another frame at first; that frame is given up at
the first start mark, and nothing else of it shows.
-/

namespace InverterLink.Proofs
open Decoder InverterLink.Frame

/-- The frames of some datagrams, one behind the other. -/
def encodeAll (datagrams : List Datagram) : List UInt8 := datagrams.flatMap Datagram.encode

lemma encodeAll_cons (g : Datagram) (rest : List Datagram) :
    encodeAll (g :: rest) = g.encode ++ encodeAll rest := List.flatMap_cons

/-- A frame is read as its datagram, whatever the reader held. -/
theorem decode_encode {p : Decoder} (hp : p.escaped = false) {g : Datagram} (hg : g.Fits) :
    p.decode g.encode = (afterText p.restart (frameText g) g.command, [g]) := by
  have hr : p.restart.escaped = false := hp
  rw [encode_eq, decode_cons, feed_startMark hp, decode_escape hr,
    readLiterals_values rfl (frameText_spells hg)]
  rfl

/-- What the frames of some datagrams do to a decoder. -/
structure ReadsAll (p q : Decoder) (datagrams : List Datagram) : Prop where
  escaped : q.escaped = false
  phase : datagrams ≠ [] → q.phase = .done
  decoded : q.statistics.decoded = p.statistics.decoded + datagrams.length
  crcErrors : q.statistics.crcErrors = p.statistics.crcErrors
  headerErrors : q.statistics.headerErrors = p.statistics.headerErrors
  resyncs : datagrams ≠ [] →
    q.statistics.resyncs = p.statistics.resyncs + if p.phase.midFrame then 1 else 0

lemma readsAll_one {p : Decoder} (hp : p.escaped = false) (g : Datagram) :
    ReadsAll p (afterText p.restart (frameText g) g.command) [g] := by
  constructor
  · exact hp
  · intro _
    rfl
  all_goals cases h : p.phase.midFrame <;> simp [afterText, restart, h]

lemma readsAll_trans {p q r : Decoder} {g : Datagram} {rest : List Datagram}
    (h : ReadsAll p q [g]) (hr : ReadsAll q r rest) (hne : rest ≠ []) :
    ReadsAll p r (g :: rest) := by
  have hq : q.phase.midFrame = false := by rw [h.phase (by simp)]; rfl
  constructor
  · exact hr.escaped
  · intro _
    exact hr.phase hne
  · rw [hr.decoded, h.decoded]
    simp only [List.length_cons, List.length_nil]
    omega
  · rw [hr.crcErrors, h.crcErrors]
  · rw [hr.headerErrors, h.headerErrors]
  · intro _
    rw [hr.resyncs hne, h.resyncs (by simp), hq]
    rfl

/-- The frames of some datagrams are read as those datagrams. -/
theorem decode_encodeAll {p : Decoder} (hp : p.escaped = false) {datagrams : List Datagram}
    (hfit : ∀ g ∈ datagrams, g.Fits) :
    ∃ q, p.decode (encodeAll datagrams) = (q, datagrams) ∧ ReadsAll p q datagrams := by
  induction datagrams generalizing p with
  | nil => exact ⟨p, rfl, ⟨hp, fun h => absurd rfl h, rfl, rfl, rfl, fun h => absurd rfl h⟩⟩
  | cons g rest ih =>
    have hone := readsAll_one hp g
    have hg := decode_encode hp (hfit g (by simp))
    by_cases hne : rest = []
    · subst hne
      refine ⟨_, ?_, hone⟩
      rw [encodeAll_cons, decode_append, hg]
      rfl
    · obtain ⟨r, hr, hall⟩ := ih hone.escaped (fun x hx => hfit x (List.mem_cons_of_mem g hx))
      refine ⟨r, ?_, readsAll_trans hone hall hne⟩
      rw [encodeAll_cons, decode_append, hg]
      simp only [hr]
      rfl

/-- Frames cut anywhere are read as their datagrams by any decoder without an escape mark behind
it. Only the frame that was in progress at first is counted besides them. -/
theorem frames_cut_anywhere (p : Decoder) (hp : p.escaped = false) (datagrams : List Datagram)
    (hfit : ∀ g ∈ datagrams, g.Fits) (chunks : List (List UInt8))
    (hcut : chunks.flatten = encodeAll datagrams) :
    (p.decodeChunks chunks).2 = datagrams ∧
      (datagrams ≠ [] →
        let q := (p.decodeChunks chunks).1
        q.phase = .done ∧
          q.statistics.decoded = p.statistics.decoded + datagrams.length ∧
          q.statistics.crcErrors = p.statistics.crcErrors ∧
          q.statistics.headerErrors = p.statistics.headerErrors ∧
          q.statistics.resyncs = p.statistics.resyncs + if p.phase.midFrame then 1 else 0) := by
  obtain ⟨q, hq, hall⟩ := decode_encodeAll hp hfit
  rw [decodeChunks_eq, hcut, hq]
  refine ⟨rfl, fun hne => ?_⟩
  exact ⟨hall.phase hne, hall.decoded, hall.crcErrors, hall.headerErrors, hall.resyncs hne⟩

/-- Two frames with marks inside, byte by byte, behind a frame that breaks off. -/
theorem frames_cut_into_bytes :
    let p := (({} : Decoder).decode [0x2B, 0x05, 0x2D, 0x2B]).1
    let datagrams : List Datagram :=
      [⟨.write, ⟨0x2B2D2B2D⟩, [0x2B, 0x2D, 0x00]⟩, ⟨.read, ⟨0x3E⟩, []⟩]
    let chunks := (encodeAll datagrams).map fun b => [b]
    p.escaped = false ∧ p.phase = .awaitingId0 ∧ (∀ g ∈ datagrams, g.Fits) ∧
      chunks.flatten = encodeAll datagrams ∧ (p.decodeChunks chunks).2 = datagrams ∧
      (p.decodeChunks chunks).1.statistics.resyncs = p.statistics.resyncs + 1 := by
  intro p datagrams chunks
  have hp : p.escaped = false := by decide +kernel
  have hfit : ∀ g ∈ datagrams, g.Fits := by decide +kernel
  have hcut : chunks.flatten = encodeAll datagrams := by decide +kernel
  have h := frames_cut_anywhere p hp datagrams hfit chunks hcut
  exact ⟨hp, by decide +kernel, hfit, hcut, h.1, (h.2 (by decide)).2.2.2.2⟩

end InverterLink.Proofs
