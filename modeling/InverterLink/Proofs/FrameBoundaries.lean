import InverterLink.Frame.Builder
import InverterLink.Proofs.DecoderInputs

/-!
# What a decoder keeps from one frame to the next

Nothing. Decoders that read the same start mark read the same from there on, whatever they held,
and a decoder between two frames reads like a fresh one. The essence of a decoder says what it
completes and how its counters grow, and for a decoder in a frame also the phases that it goes
through; between two frames, it may rest in either of two phases until something begins.
-/

namespace InverterLink.Proofs
open Decoder InverterLink.Frame

instance : Add Statistics where
  add s t := ⟨s.decoded + t.decoded, s.crcErrors + t.crcErrors, s.headerErrors + t.headerErrors,
    s.resyncs + t.resyncs⟩

/-- Two decoders read some inputs alike: each input completes the same for both, and each counter
grows by the same amount. -/
structure ReadAlike (p q : Decoder) (inputs : List Input) : Prop where
  completed : completions p inputs = completions q inputs
  gained : ∃ gain : Statistics, (after p inputs).statistics = p.statistics + gain ∧
    (after q inputs).statistics = q.statistics + gain

/-- Among some inputs, no frame begins and none is dropped by order. -/
def Undisturbed (escaped : Bool) (inputs : List Input) : Prop :=
  .start ∉ tokens escaped inputs ∧ .reset ∉ tokens escaped inputs

instance (escaped : Bool) (inputs : List Input) : Decidable (Undisturbed escaped inputs) :=
  inferInstanceAs (Decidable (_ ∧ _))

lemma statistics_add_assoc (s t u : Statistics) : s + t + u = s + (t + u) := by
  change Statistics.mk _ _ _ _ = Statistics.mk _ _ _ _
  simp only [Statistics.mk.injEq]
  exact ⟨Nat.add_assoc .., Nat.add_assoc .., Nat.add_assoc .., Nat.add_assoc ..⟩

/-! ### Counters -/

lemma literal_gain (d : Decoder) (b : UInt8) :
    (d.literal b).1.statistics = d.statistics + ((essence d).literal b).1.statistics := by
  cases h : d.phase with
  | awaitingCommand =>
    cases hc : Command.ofCode? b with
    | none => simp only [literal, essence, h, hc, rejectHeader]; rfl
    | some c => simp only [literal, essence, h, hc]; rfl
  | awaitingSize =>
    by_cases hs : b.toNat < identifierSize <;>
      simp only [literal, essence, h, hs, rejectHeader, if_true, if_false] <;> rfl
  | awaitingCrc1 =>
    by_cases hc : d.crc.finish.value = d.received ||| b.toUInt16 <;>
      simp only [literal, essence, h, conclude, hc, ne_eq, not_true_eq_false, not_false_eq_true,
        if_true, if_false] <;> rfl
  | _ =>
    simp only [literal, essence, h]
    rfl

lemma essence_midFrame (d : Decoder) : (essence d).phase.midFrame = d.phase.midFrame := by
  cases h : d.phase <;> simp [essence, h, Phase.midFrame]

lemma essence_statistics (d : Decoder) : (essence d).statistics = {} := by
  cases h : d.phase <;> simp [essence, h]

lemma restart_gain (d : Decoder) :
    d.restart.statistics = d.statistics + (essence d).restart.statistics := by
  have hm := essence_midFrame d
  cases h : d.phase.midFrame <;> rw [h] at hm <;>
    simp only [restart, h, hm, essence_statistics, if_true, Bool.false_eq_true, if_false] <;> rfl

lemma react_gain (d : Decoder) (input : Input) :
    (react d input).1.statistics = d.statistics + (react (essence d) input).1.statistics := by
  cases input with
  | reset =>
    change d.statistics = d.statistics + (essence d).statistics
    rw [essence_statistics]
    rfl
  | byte b =>
    have he := essence_escaped d
    change (d.feed b).1.statistics = d.statistics + ((essence d).feed b).1.statistics
    cases byteRead d.escaped b with
    | literal feed token =>
      have hl := literal_gain (setEscaped d false) b
      rw [essence_setEscaped] at hl
      rw [feed d rfl, feed _ he, hl]
      rfl
    | start unescaped feed token => rw [feed d rfl, feed _ he, restart_gain]
    | mark feed token =>
      rw [feed d rfl, feed _ he]
      change d.statistics = d.statistics + (essence d).statistics
      rw [essence_statistics]
      rfl

lemma react_congr {p q : Decoder} (h : essence p = essence q) (input : Input) :
    (react p input).2 = (react q input).2 ∧
      essence (react p input).1 = essence (react q input).1 := by
  cases input with
  | reset => exact ⟨rfl, rfl⟩
  | byte b => exact feed_congr h b

/-- Decoders of one essence read everything alike. -/
theorem readAlike_of_essence {p q : Decoder} (h : essence p = essence q) (inputs : List Input) :
    ReadAlike p q inputs := by
  induction inputs generalizing p q with
  | nil => exact ⟨rfl, {}, rfl, rfl⟩
  | cons input rest ih =>
    obtain ⟨hout, hnext⟩ := react_congr h input
    obtain ⟨hrest, gain, hp, hq⟩ := ih hnext
    refine ⟨?_, (react (essence p) input).1.statistics + gain, ?_, ?_⟩
    · rw [completions, completions, hout, hrest]
    · rw [after, hp, react_gain, statistics_add_assoc]
    · rw [after, hq, react_gain, statistics_add_assoc, h]

/-! ### Phases -/

lemma literal_phase (d : Decoder) (b : UInt8) :
    (d.literal b).1.phase =
      if d.phase.midFrame then ((essence d).literal b).1.phase else d.phase := by
  cases h : d.phase with
  | awaitingCommand =>
    cases hc : Command.ofCode? b <;> simp [literal, essence, h, hc, rejectHeader, Phase.midFrame]
  | awaitingSize =>
    by_cases hs : b.toNat < identifierSize <;>
      simp [literal, essence, h, hs, rejectHeader, Phase.midFrame]
  | awaitingCrc1 =>
    by_cases hc : d.crc.finish.value = d.received ||| b.toUInt16 <;>
      simp [literal, essence, h, conclude, hc, Phase.midFrame]
  | _ => simp [literal, essence, h, Phase.midFrame]

lemma literal_phase_congr {p q : Decoder} (h : essence p = essence q) (hphase : p.phase = q.phase)
    (b : UInt8) : (p.literal b).1.phase = (q.literal b).1.phase := by
  rw [literal_phase p, literal_phase q, h, hphase]

lemma react_phase_congr {p q : Decoder} (h : essence p = essence q) (hphase : p.phase = q.phase)
    (input : Input) : (react p input).1.phase = (react q input).1.phase := by
  cases input with
  | reset => rfl
  | byte b =>
    have he : q.escaped = p.escaped := by rw [← essence_escaped q, ← h, essence_escaped]
    change (p.feed b).1.phase = (q.feed b).1.phase
    cases byteRead p.escaped b with
    | literal feed token =>
      rw [feed p rfl, feed q he]
      apply literal_phase_congr (p := setEscaped p false) (q := setEscaped q false) _ hphase
      rw [essence_setEscaped, essence_setEscaped, h]
    | start unescaped feed token => rw [feed p rfl, feed q he]; rfl
    | mark feed token =>
      rw [feed p rfl, feed q he]
      exact hphase

/-- Decoders of one essence and one phase go through the same phases. -/
theorem phase_after_congr {p q : Decoder} (h : essence p = essence q) (hphase : p.phase = q.phase)
    (inputs : List Input) : (after p inputs).phase = (after q inputs).phase := by
  induction inputs generalizing p q with
  | nil => exact hphase
  | cons input rest ih => exact ih (react_congr h input).2 (react_phase_congr h hphase input)

lemma literal_setEscaped_between {d : Decoder} (h : Between d) (e : Bool) (b : UInt8) :
    ((setEscaped d e).literal b).1 = setEscaped d e := by
  have he : Between (setEscaped d e) := h
  rw [literal_between he]

lemma phase_undisturbed {d : Decoder} (h : Between d) {inputs : List Input}
    (hu : Undisturbed d.escaped inputs) : (after d inputs).phase = d.phase := by
  induction inputs generalizing d with
  | nil => rfl
  | cons input rest ih =>
    cases input with
    | reset => exact absurd List.mem_cons_self hu.2
    | byte b =>
      change (after (d.feed b).1 rest).phase = d.phase
      cases byteRead d.escaped b with
      | literal feed token =>
        rw [Undisturbed, token] at hu
        rw [feed d rfl, literal_setEscaped_between h]
        exact ih (d := setEscaped d false) h ⟨fun hm => hu.1 (List.mem_cons_of_mem _ hm),
          fun hm => hu.2 (List.mem_cons_of_mem _ hm)⟩
      | start unescaped feed token =>
        rw [Undisturbed, token] at hu
        exact absurd List.mem_cons_self hu.1
      | mark feed token =>
        rw [Undisturbed, token] at hu
        rw [feed d rfl]
        exact ih (d := setEscaped d true) h hu

/-- Decoders between two frames are in the same phase as soon as something has begun. -/
lemma phase_disturbed {p q : Decoder} (hp : Between p) (hq : Between q)
    (he : q.escaped = p.escaped) {inputs : List Input} (hd : ¬Undisturbed p.escaped inputs) :
    (after p inputs).phase = (after q inputs).phase := by
  induction inputs generalizing p q with
  | nil => exact absurd ⟨List.not_mem_nil, List.not_mem_nil⟩ hd
  | cons input rest ih =>
    cases input with
    | reset => exact phase_after_congr (p := p.reset) (q := q.reset) rfl rfl rest
    | byte b =>
      change (after (p.feed b).1 rest).phase = (after (q.feed b).1 rest).phase
      cases byteRead p.escaped b with
      | literal feed token =>
        rw [Undisturbed, token] at hd
        rw [feed p rfl, feed q he, literal_setEscaped_between hp, literal_setEscaped_between hq]
        exact ih (p := setEscaped p false) (q := setEscaped q false) hp hq rfl
          (by simpa [Undisturbed, setEscaped] using hd)
      | start unescaped feed token =>
        rw [feed p rfl, feed q he]
        apply phase_after_congr (p := p.restart) (q := q.restart) _ rfl
        rw [essence_restart, essence_restart, he]
      | mark feed token =>
        rw [Undisturbed, token] at hd
        rw [feed p rfl, feed q he]
        exact ih (p := setEscaped p true) (q := setEscaped q true) hp hq rfl hd

/-- Behind a start mark, nothing that a decoder held before it makes a difference: any two
decoders read alike and go through the same phases. A decoder between two frames reads like a
fresh one, and only its phase may be another as long as nothing has begun. -/
theorem nothing_carried_over :
    (∀ p q : Decoder, p.escaped = false → q.escaped = false → ∀ inputs : List Input,
      let p' := (p.feed startMark).1
      let q' := (q.feed startMark).1
      (p.feed startMark).2 = none ∧ (q.feed startMark).2 = none ∧ ReadAlike p' q' inputs ∧
        (after p' inputs).phase = (after q' inputs).phase) ∧
      (∀ p : Decoder, p.phase = .done ∨ p.phase = .awaitingStart → p.escaped = false →
        ∀ inputs : List Input, ReadAlike p {} inputs ∧
          (Undisturbed false inputs →
            (after p inputs).phase = p.phase ∧ (after {} inputs).phase = .awaitingStart) ∧
          (¬Undisturbed false inputs → (after p inputs).phase = (after {} inputs).phase)) ∧
      (∀ (p : Decoder) (inputs : List Input), ReadAlike p.reset {} inputs ∧
        (after p.reset inputs).phase = (after {} inputs).phase) := by
  refine ⟨fun p q hp hq inputs => ?_, fun p hphase hp inputs => ?_, fun p inputs => ?_⟩
  · have h : essence p.restart = essence q.restart := by
      rw [essence_restart, essence_restart, hp, hq]
    rw [feed_startMark hp, feed_startMark hq]
    exact ⟨rfl, rfl, readAlike_of_essence h inputs, phase_after_congr h rfl inputs⟩
  · have hb : Between p := (between_iff p).mpr hphase.symm
    have hfresh : Between {} := rfl
    refine ⟨readAlike_of_essence (essence_fresh hb hp) inputs, fun hu => ⟨?_, ?_⟩, fun hd => ?_⟩
    · exact phase_undisturbed hb (by rwa [hp])
    · exact phase_undisturbed (d := {}) hfresh hu
    · exact phase_disturbed hb hfresh hp.symm (by rwa [hp])
  · have h : essence p.reset = essence {} := essence_fresh rfl rfl
    exact ⟨readAlike_of_essence h inputs, phase_after_congr h rfl inputs⟩

/-- A decoder that broke off in a payload and one that has just completed a datagram read the
frame behind them alike. Up to its start mark, the second one rests in another phase than a fresh
decoder. -/
theorem stale_frames_forgotten :
    let p := (({} : Decoder).decode [0x2B, 0x05, 0x08, 0x00, 0x00, 0x00, 0x3E, 0xAA]).1
    let q := (({} : Decoder).decode (Datagram.encode ⟨.write, ⟨0x2B2D2B2D⟩, [0x2B, 0x07]⟩)).1
    let frame : List Input := [.byte 0x01, .byte 0x04, .byte 0x40, .byte 0x0F, .byte 0x01,
      .byte 0x5B, .byte 0x58, .byte 0xB4, .byte 0x2D, .byte 0x2B]
    let noise : List Input := [.byte 0x01, .byte 0x2D, .byte 0x2B]
    p.escaped = false ∧ q.escaped = false ∧ p.phase = .awaitingPayload ∧ q.phase = .done ∧
      ReadAlike (p.feed startMark).1 (q.feed startMark).1 frame ∧
      Undisturbed false noise ∧ (after q noise).phase = .done ∧
      (after {} noise).phase = .awaitingStart := by
  intro p q frame noise
  have hp : p.escaped = false := by decide +kernel
  have hq : q.escaped = false := by decide +kernel
  have hdone : q.phase = .done := by decide +kernel
  have hnoise : Undisturbed false noise := by decide
  obtain ⟨hframe, hbetween, -⟩ := nothing_carried_over
  obtain ⟨hrest, hfresh⟩ := (hbetween q (.inl hdone) hq noise).2.1 hnoise
  exact ⟨hp, hq, by decide +kernel, hdone, (hframe p q hp hq frame).2.2.1, hnoise,
    hrest.trans hdone, hfresh⟩

end InverterLink.Proofs
