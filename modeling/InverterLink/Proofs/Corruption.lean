import InverterLink.Proofs.StreamRoundTrip
import InverterLink.Proofs.WireGrammar

/-!
# Streams with a damaged frame

One frame of a stream is replaced by any bytes. Everything before them and everything behind them
is read as if nothing had happened, unless they end with an escape mark: that mark swallows the
next start mark, and the frame behind it is lost with them. No other frame is.
-/

namespace InverterLink.Proofs
open Decoder InverterLink.Frame

/-- The bytes end with an escape mark that still waits for its byte. -/
def dangling (bytes : List UInt8) : Bool := escapedAt bytes bytes.length

/-- The frames of some datagrams, with other bytes in place of the frame at a position. -/
def replaceFrame (datagrams : List Datagram) (k : Nat) (garbage : List UInt8) : List UInt8 :=
  encodeAll (datagrams.take k) ++ garbage ++ encodeAll (datagrams.drop (k + 1))

/-- The datagrams that a fresh decoder finds in some bytes. -/
def readFresh (bytes : List UInt8) : List Datagram := (({} : Decoder).decode bytes).2

lemma decode_escaped {p : Decoder} (hp : p.escaped = false) (bytes : List UInt8) :
    (p.decode bytes).1.escaped = dangling bytes := by
  have h := stateAt_escaped hp (le_refl bytes.length)
  rwa [stateAt, List.take_length] at h

/-- Between two frames and without an escape mark behind it, a decoder reads like a fresh one. -/
theorem decode_eq_readFresh {p : Decoder} (hb : Between p) (hp : p.escaped = false)
    (bytes : List UInt8) : (p.decode bytes).2 = readFresh bytes :=
  (decode_congr (essence_fresh hb hp) bytes).1

lemma between_encodeAll {p : Decoder} (hb : Between p) (hp : p.escaped = false)
    {datagrams : List Datagram} (hfit : ∀ g ∈ datagrams, g.Fits) :
    Between (p.decode (encodeAll datagrams)).1 := by
  obtain ⟨q, hq, hall⟩ := decode_encodeAll hp hfit
  by_cases hne : datagrams = []
  · subst hne
    exact hb
  · rw [hq, between_iff]
    exact .inr (hall.phase hne)

/-- Behind an escape mark, a frame completes at most one datagram, and leaves no escape mark. -/
lemma decode_encode_dangling {p : Decoder} (hp : p.escaped = true) (g : Datagram) :
    ∃ g? : Option Datagram, (p.decode g.encode).2 = g?.toList ∧
      (p.decode g.encode).1.escaped = false := by
  have hs : (setEscaped p false).escaped = false := rfl
  have hd : p.decode g.encode =
      readLiterals (setEscaped p false) (startMark :: (frameText g).values) := by
    have hl : ((setEscaped p false).literal startMark).1.escaped = false := by
      rw [literal_keeps_escaped, hs]
    rw [encode_eq, decode_cons, feed_of_escaped hp, decode_escape hl, readLiterals_cons]
  obtain ⟨g?, hg⟩ := readLiterals_at_most_one (setEscaped p false)
    (startMark :: (frameText g).values)
  exact ⟨g?, by rw [hd, hg], by rw [hd, readLiterals_keeps_escaped, hs]⟩

/-- Whatever bytes take the place of a frame, the frames before them are read, then what a fresh
decoder finds in these bytes, and then all frames behind them. Only if the bytes end with an
escape mark is the next frame lost; at most one datagram comes out in its place. -/
theorem corruption_contained (datagrams : List Datagram) (hfit : ∀ g ∈ datagrams, g.Fits)
    (k : Nat) (garbage : List UInt8) :
    readFresh (encodeAll (datagrams.take k) ++ garbage) =
        datagrams.take k ++ readFresh garbage ∧
      (dangling garbage = false →
        readFresh (replaceFrame datagrams k garbage) =
          datagrams.take k ++ readFresh garbage ++ datagrams.drop (k + 1)) ∧
      (dangling garbage = true →
        ∃ g? : Option Datagram,
          readFresh (encodeAll (datagrams.take k) ++ garbage ++
              encodeAll ((datagrams.drop (k + 1)).take 1)) =
            datagrams.take k ++ readFresh garbage ++ g?.toList ∧
          readFresh (replaceFrame datagrams k garbage) =
            datagrams.take k ++ readFresh garbage ++ g?.toList ++ datagrams.drop (k + 2)) := by
  have hbefore : ∀ g ∈ datagrams.take k, g.Fits := fun g hg => hfit g (List.mem_of_mem_take hg)
  have hbehind : ∀ g ∈ datagrams.drop (k + 1), g.Fits := fun g hg =>
    hfit g (List.mem_of_mem_drop hg)
  obtain ⟨q, hq, hall⟩ := decode_encodeAll (p := {}) rfl hbefore
  have hqb : Between q := by
    have h := between_encodeAll (p := {}) rfl rfl hbefore
    rwa [hq] at h
  have hg : (q.decode garbage).2 = readFresh garbage := decode_eq_readFresh hqb hall.escaped garbage
  have hr : (q.decode garbage).1.escaped = dangling garbage := decode_escaped hall.escaped garbage
  have hread : ∀ more : List UInt8,
      readFresh (encodeAll (datagrams.take k) ++ garbage ++ more) =
        datagrams.take k ++ readFresh garbage ++ ((q.decode garbage).1.decode more).2 := by
    intro more
    rw [readFresh, List.append_assoc, decode_append, hq, decode_append, hg, List.append_assoc]
  refine ⟨?_, fun hn => ?_, fun hy => ?_⟩
  · have h := hread []
    simpa [decode] using h
  · obtain ⟨r, hr', -⟩ := decode_encodeAll (hr.trans hn) hbehind
    rw [replaceFrame, hread, hr']
  -- the escape mark makes a literal of the start mark of the next frame, if there is one
  · have hdrop : datagrams.drop (k + 2) = (datagrams.drop (k + 1)).drop 1 := by
      rw [List.drop_drop]
    rw [replaceFrame, hdrop]
    cases hrest : datagrams.drop (k + 1) with
    | nil =>
      have hnone := hread []
      simp only [decode, List.append_nil] at hnone
      exact ⟨none, by simpa [encodeAll] using hnone, by simpa [encodeAll] using hnone⟩
    | cons e later =>
      obtain ⟨g?, hout, hend⟩ := decode_encode_dangling (hr.trans hy) e
      have hlater : ∀ g ∈ later, g.Fits := fun g hg => hbehind g (by simp [hrest, hg])
      obtain ⟨r, hr', -⟩ := decode_encodeAll hend hlater
      refine ⟨g?, ?_, ?_⟩
      · have he : encodeAll ((e :: later).take 1) = e.encode := by simp [encodeAll]
        rw [hread, he, hout]
      · rw [hread, encodeAll_cons, decode_append, hout, hr']
        simp

/-- An escape mark at the end of a broken frame turns the next start mark into its last byte. -/
theorem corruption_swallows_one_frame :
    let datagrams : List Datagram :=
      [⟨.read, ⟨1⟩, []⟩, ⟨.read, ⟨2⟩, []⟩, ⟨.read, ⟨3⟩, []⟩, ⟨.write, ⟨0x2B⟩, [0x2D]⟩]
    let garbage : List UInt8 := [0x2B, 0x01, 0x04, 0x00, 0x00, 0x00, 0x3E, 0x15, 0x2D]
    (∀ g ∈ datagrams, g.Fits) ∧ dangling garbage = true ∧
      ∃ g? : Option Datagram,
        readFresh (replaceFrame datagrams 1 garbage) =
          [⟨.read, ⟨1⟩, []⟩] ++ readFresh garbage ++ g?.toList ++ [⟨.write, ⟨0x2B⟩, [0x2D]⟩] := by
  intro datagrams garbage
  have hfit : ∀ g ∈ datagrams, g.Fits := by decide +kernel
  have hdangling : dangling garbage = true := by decide +kernel
  obtain ⟨g?, -, h⟩ := (corruption_contained datagrams hfit 1 garbage).2.2 hdangling
  exact ⟨hfit, hdangling, g?, h⟩

/-- The datagram that comes out there was never sent. -/
example :
    readFresh (replaceFrame [⟨.read, ⟨1⟩, []⟩, ⟨.read, ⟨2⟩, []⟩, ⟨.read, ⟨3⟩, []⟩] 1
      [0x2B, 0x01, 0x04, 0x00, 0x00, 0x00, 0x3E, 0x15, 0x2D]) =
      [⟨.read, ⟨1⟩, []⟩, ⟨.read, ⟨0x3E⟩, []⟩] := by decide +kernel

end InverterLink.Proofs
