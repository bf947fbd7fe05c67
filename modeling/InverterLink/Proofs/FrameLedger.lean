import InverterLink.Proofs.DecoderInputs

/-!
# Where the frames go

Every start mark that a decoder reads begins a frame, and every frame that has begun is counted
once: as decoded, as wrong in its checksum or its header, as cut short by the next start mark, or
it is the one in progress. Only an order to drop the frame in progress leaves it uncounted.
-/

namespace InverterLink.Proofs
open Decoder InverterLink.Frame

/-- The frames that the statistics know. -/
def counted (s : Statistics) : Nat := s.decoded + s.crcErrors + s.headerErrors + s.resyncs

/-- The frames in progress: one or none. -/
def inProgress (d : Decoder) : Nat := if d.phase.midFrame then 1 else 0

/-- The frames that some inputs begin, for a decoder with or without an escape mark behind it. -/
def begun (escaped : Bool) (inputs : List Input) : Nat := (tokens escaped inputs).count .start

/-- The frames in progress that some inputs order to drop. -/
def abandoned (d : Decoder) : List Input → Nat
  | [] => 0
  | .reset :: rest => inProgress d + abandoned d.reset rest
  | .byte b :: rest => abandoned (d.feed b).1 rest

/-- The bytes among some inputs. -/
def bytesIn (inputs : List Input) : Nat := inputs.countP (· ≠ .reset)

lemma inProgress_between {d : Decoder} (h : Between d) : inProgress d = 0 := by
  rw [inProgress, show d.phase.midFrame = false from h]
  rfl

/-! ### One input -/

lemma literal_counted (d : Decoder) (b : UInt8) :
    counted (d.literal b).1.statistics + inProgress (d.literal b).1 =
      counted d.statistics + inProgress d := by
  cases literalRead d b with
  | idle between same => rw [same]
  | onward mid goesOn statistics nothing => rw [statistics, inProgress, inProgress, goesOn, mid]
  | badHeader mid ended statistics nothing =>
    rw [statistics, inProgress, inProgress, ended, mid]
    simp only [counted, Phase.midFrame, if_true, Bool.false_eq_true, if_false]
    omega
  | badChecksum mid ended statistics nothing =>
    rw [statistics, inProgress, inProgress, ended, mid]
    simp only [counted, Phase.midFrame, if_true, Bool.false_eq_true, if_false]
    omega
  | complete mid ended statistics datagram =>
    rw [statistics, inProgress, inProgress, ended, mid]
    simp only [counted, Phase.midFrame, if_true, Bool.false_eq_true, if_false]
    omega

lemma restart_counted (d : Decoder) :
    counted d.restart.statistics + inProgress d.restart =
      counted d.statistics + inProgress d + 1 := by
  have hn : inProgress d.restart = 1 := rfl
  rw [hn]
  cases h : d.phase.midFrame <;> simp [restart, h, inProgress, counted]
  omega

lemma literal_decoded (d : Decoder) (b : UInt8) :
    (d.literal b).1.statistics.decoded =
      d.statistics.decoded + (d.literal b).2.toList.length := by
  cases literalRead d b with
  | idle between same => rw [same]; rfl
  | onward mid goesOn statistics nothing => rw [statistics, nothing]; rfl
  | badHeader mid ended statistics nothing => rw [statistics, nothing]; rfl
  | badChecksum mid ended statistics nothing => rw [statistics, nothing]; rfl
  | complete mid ended statistics datagram =>
    obtain ⟨g, hg⟩ := datagram
    rw [statistics, hg]
    rfl

lemma restart_decoded (d : Decoder) : d.restart.statistics.decoded = d.statistics.decoded := by
  cases h : d.phase.midFrame <;> simp [restart, h]

lemma feed_counted (d : Decoder) (b : UInt8) (rest : List Input) :
    counted (d.feed b).1.statistics + inProgress (d.feed b).1 + begun (d.feed b).1.escaped rest =
      counted d.statistics + inProgress d + begun d.escaped (.byte b :: rest) := by
  cases byteRead d.escaped b with
  | literal feed token =>
    have hl := literal_counted (setEscaped d false) b
    have hs : counted (setEscaped d false).statistics + inProgress (setEscaped d false) =
        counted d.statistics + inProgress d := rfl
    have hb : begun d.escaped (.byte b :: rest) = begun false rest := by
      rw [begun, token]
      simp [begun]
    rw [feed d rfl, hl, hs, hb, escaped_of_literal]
  | start unescaped feed token =>
    have hb : begun d.escaped (.byte b :: rest) = begun false rest + 1 := by
      rw [begun, token, List.count_cons_self]
      rfl
    have hn : d.restart.escaped = false := unescaped
    rw [feed d rfl, restart_counted, hb, hn]
    omega
  | mark feed token =>
    have hb : begun d.escaped (.byte b :: rest) = begun true rest := by rw [begun, token]; rfl
    rw [feed d rfl, hb]
    rfl

lemma feed_decoded (d : Decoder) (b : UInt8) :
    (d.feed b).1.statistics.decoded = d.statistics.decoded + (d.feed b).2.toList.length := by
  cases byteRead d.escaped b with
  | literal feed token =>
    rw [feed d rfl]
    exact literal_decoded (setEscaped d false) b
  | start unescaped feed token =>
    rw [feed d rfl]
    exact restart_decoded d
  | mark feed token =>
    rw [feed d rfl]
    rfl

/-! ### All inputs -/

/-- The frames that have begun are those that were counted or dropped, and the one in progress. -/
theorem frames_after (d : Decoder) (inputs : List Input) :
    counted (after d inputs).statistics + inProgress (after d inputs) + abandoned d inputs =
      counted d.statistics + inProgress d + begun d.escaped inputs := by
  induction inputs generalizing d with
  | nil => rfl
  | cons input rest ih =>
    cases input with
    | reset =>
      have hb : begun d.escaped (.reset :: rest) = begun false rest := by simp [begun, tokens]
      have hn : inProgress d.reset = 0 := inProgress_between rfl
      have hr := ih d.reset
      change counted (after d.reset rest).statistics + inProgress (after d.reset rest) +
        (inProgress d + abandoned d.reset rest) = _
      change _ = counted d.statistics + inProgress d.reset + begun false rest at hr
      omega
    | byte b =>
      have hr := ih (d.feed b).1
      rw [feed_counted] at hr
      exact hr

theorem decoded_after (d : Decoder) (inputs : List Input) :
    (after d inputs).statistics.decoded =
      d.statistics.decoded + (completions d inputs).reduceOption.length := by
  induction inputs generalizing d with
  | nil => rfl
  | cons input rest ih =>
    have hone : (react d input).1.statistics.decoded =
        d.statistics.decoded + (react d input).2.toList.length := by
      cases input with
      | reset => rfl
      | byte b => exact feed_decoded d b
    rw [after, ih, hone, completions]
    cases (react d input).2 with
    | none => rw [List.reduceOption_cons_of_none]; rfl
    | some g =>
      rw [List.reduceOption_cons_of_some, List.length_cons, Option.toList_some,
        List.length_singleton]
      omega

lemma begun_byte_le (escaped : Bool) (b : UInt8) (rest : List Input) :
    ∃ escaped', begun escaped (.byte b :: rest) ≤ begun escaped' rest + 1 := by
  cases byteRead escaped b with
  | literal feed token =>
    refine ⟨false, ?_⟩
    rw [begun, token]
    simp [begun]
  | start unescaped feed token =>
    refine ⟨false, ?_⟩
    rw [begun, token, List.count_cons_self]
    exact le_rfl
  | mark feed token =>
    refine ⟨true, ?_⟩
    rw [begun, token]
    exact Nat.le_succ _

lemma begun_le_bytesIn (escaped : Bool) (inputs : List Input) :
    begun escaped inputs ≤ bytesIn inputs := by
  induction inputs generalizing escaped with
  | nil => exact le_rfl
  | cons input rest ih =>
    cases input with
    | reset => simpa [begun, tokens, bytesIn] using ih false
    | byte b =>
      obtain ⟨escaped', hle⟩ := begun_byte_le escaped b rest
      have hb : bytesIn (.byte b :: rest) = bytesIn rest + 1 := by simp [bytesIn]
      rw [hb]
      exact hle.trans (Nat.succ_le_succ (ih escaped'))

/-- However a decoder is used, each frame that a start mark begins is decoded, counted under one
kind of failure, dropped by order, or still in progress. As many frames are decoded as datagrams
come out, and no counter exceeds the number of bytes read. -/
theorem frames_accounted (uses : List Use) :
    let inputs := consumedBy {} uses
    let d := (performAll {} uses).1
    begun false inputs =
        d.statistics.decoded + d.statistics.crcErrors + d.statistics.headerErrors +
          d.statistics.resyncs + abandoned {} inputs + (if d.phase.midFrame then 1 else 0) ∧
      d.statistics.decoded = (performAll {} uses).2.length ∧
      d.statistics.decoded + d.statistics.crcErrors + d.statistics.headerErrors +
        d.statistics.resyncs ≤ bytesIn inputs := by
  intro inputs d
  have hd : d = after {} inputs := congrArg Prod.fst (performAll_eq {} uses)
  have hout : (performAll {} uses).2 = (completions {} inputs).reduceOption :=
    congrArg Prod.snd (performAll_eq {} uses)
  have hledger := frames_after {} inputs
  have hdecoded := decoded_after {} inputs
  have hbytes := begun_le_bytesIn false inputs
  have hfresh : counted ({} : Decoder).statistics + inProgress {} = 0 := rfl
  have hnone : ({} : Decoder).statistics.decoded = 0 := rfl
  have hescaped : ({} : Decoder).escaped = false := rfl
  rw [hfresh, ← hd, hescaped, counted, inProgress] at hledger
  rw [← hd, hnone] at hdecoded
  refine ⟨?_, ?_, ?_⟩
  · omega
  · rw [hout]
    omega
  · omega

end InverterLink.Proofs
