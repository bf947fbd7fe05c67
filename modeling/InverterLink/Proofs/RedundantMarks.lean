import InverterLink.Proofs.EscapedForm

/-!
# Frames with redundant escape marks

A decoder takes an escape mark in front of any byte, and a builder writes one only where it is
needed. So a datagram has many frames, and the one that a builder writes is the shortest: every
other one is that frame with redundant escape marks put in. A frame without any is what a builder
writes for the datagram that it holds.
-/

namespace InverterLink.Proofs
open Decoder InverterLink.Frame

/-- Some bytes are a frame with so many redundant escape marks put in, each of them in front of a
byte that is neither a mark nor escaped. -/
inductive Redundant (frame : List UInt8) : Nat → List UInt8 → Prop where
  | none : Redundant frame 0 frame
  | mark {n : Nat} (first rest : List UInt8) (b : UInt8) (plain : isMark b = false)
      (unescaped : dangling first = false) (before : Redundant frame n (first ++ b :: rest)) :
      Redundant frame (n + 1) (first ++ escapeMark :: b :: rest)

section Marks

variable {frame bytes : List UInt8} {n : Nat}

lemma redundant_length (h : Redundant frame n bytes) : bytes.length = frame.length + n := by
  induction h with
  | none => rfl
  | mark first rest b plain unescaped before ih =>
    simp only [List.length_append, List.length_cons] at ih ⊢
    omega

lemma redundant_append {more : List UInt8} (hm : dangling more = false)
    (h : Redundant frame n bytes) : Redundant (more ++ frame) n (more ++ bytes) := by
  induction h with
  | none => exact .none
  | mark first rest b plain unescaped before ih =>
    rw [← List.append_assoc] at ih ⊢
    exact .mark (more ++ first) rest b plain (by rw [dangling_append first hm, unescaped]) ih

lemma redundant_sparing (h : Redundant frame n bytes) (hs : Sparing bytes) : bytes = frame := by
  cases h with
  | none => rfl
  | mark first rest b plain unescaped before =>
    have hb : (first ++ escapeMark :: b :: rest)[first.length + 1]? = some b := by
      rw [List.getElem?_append_right (by omega), Nat.add_sub_cancel_left]
      rfl
    have he : escapedAt (first ++ escapeMark :: b :: rest) (first.length + 1) = true := by
      rw [escapedAt_append_right _ unescaped]
      rfl
    rw [hs _ b hb he] at plain
    cases plain

end Marks

/-! ### Literals with and without marks -/

lemma literals_cons_plain {b : UInt8} (h : isMark b = false) (rest : List UInt8) :
    literals (b :: rest) = b :: literals rest := by
  have hb := literals_append rest (allLiterals_plain h).closed
  rwa [literals_plain h] at hb

lemma literals_cons_pair (b : UInt8) (rest : List UInt8) :
    literals (escapeMark :: b :: rest) = b :: literals rest := by
  have hb := literals_append rest (allLiterals_pair b).closed
  rwa [literals_pair] at hb

lemma allLiterals_cons_plain {b : UInt8} (h : isMark b = false) {rest : List UInt8} :
    AllLiterals (b :: rest) ↔ AllLiterals rest := by
  have hb : AllLiterals ([b] ++ rest) ↔ _ := allLiterals_append_iff (allLiterals_plain h).closed
  simpa [allLiterals_plain h] using hb

lemma allLiterals_cons_pair (b : UInt8) {rest : List UInt8} :
    AllLiterals (escapeMark :: b :: rest) ↔ AllLiterals rest := by
  have hb : AllLiterals ([escapeMark, b] ++ rest) ↔ _ :=
    allLiterals_append_iff (allLiterals_pair b).closed
  simpa [allLiterals_pair b] using hb

/-- Bytes that are all literals are put together of plain bytes and pairs. -/
theorem allLiterals_induction {motive : (bytes : List UInt8) → AllLiterals bytes → Prop}
    (nil : motive [] allLiterals_nil)
    (plain : ∀ b rest (hb : isMark b = false) (h : AllLiterals rest), motive rest h →
      motive (b :: rest) ((allLiterals_cons_plain hb).mpr h))
    (pair : ∀ b rest (h : AllLiterals rest), motive rest h →
      motive (escapeMark :: b :: rest) ((allLiterals_cons_pair b).mpr h)) :
    ∀ bytes (h : AllLiterals bytes), motive bytes h
  | [], _ => nil
  | b :: rest, h => by
    cases hb : isMark b with
    | false =>
      have hr := (allLiterals_cons_plain hb).mp h
      exact plain b rest hb hr (allLiterals_induction nil plain pair rest hr)
    | true =>
      obtain rfl | rfl : b = startMark ∨ b = escapeMark := by simpa [isMark] using hb
      · exact absurd (h.startless 0) (by simp [startsAt, escapedAt])
      · cases rest with
        | nil => exact absurd h.closed (by simp [dangling, escapedAt])
        | cons c rest =>
          have hr := (allLiterals_cons_pair c).mp h
          exact pair c rest hr (allLiterals_induction nil plain pair rest hr)

/-- Bytes that are all literals are the escaped form of their literals with redundant escape
marks. -/
theorem redundant_of_allLiterals {bytes : List UInt8} (h : AllLiterals bytes) :
    ∃ n, Redundant (escape (literals bytes)) n bytes := by
  induction bytes, h using allLiterals_induction with
  | nil => exact ⟨0, .none⟩
  | plain b rest hb h ih =>
    obtain ⟨n, hn⟩ := ih
    have hself : escapeByte b = [b] := by rw [escapeByte, hb]; rfl
    rw [literals_cons_plain hb, escape_cons, hself]
    exact ⟨n, redundant_append (allLiterals_plain hb).closed hn⟩
  | pair b rest h ih =>
    obtain ⟨n, hn⟩ := ih
    rw [literals_cons_pair, escape_cons]
    rcases escapeByte_cases b with ⟨-, hpair⟩ | ⟨hb, hself⟩
    · rw [hpair]
      exact ⟨n, redundant_append (allLiterals_pair b).closed hn⟩
    · rw [hself]
      exact ⟨n + 1, .mark [] rest b hb rfl
        (redundant_append (allLiterals_plain hb).closed hn)⟩

lemma redundant_framed {text bytes : List UInt8} {n : Nat}
    (h : Redundant (startMark :: escape text) n bytes) :
    ∃ body, bytes = startMark :: body ∧ AllLiterals body ∧ literals body = text := by
  induction h with
  | none => exact ⟨escape text, rfl, allLiterals_escape text, literals_escape text⟩
  | mark first rest b plain unescaped before ih =>
    obtain ⟨body, hbody, hall, htext⟩ := ih
    cases first with
    | nil =>
      -- the start mark itself is no plain byte
      obtain rfl : b = startMark := (List.cons_eq_cons.mp hbody).1
      cases plain
    | cons s first =>
      obtain ⟨rfl, rfl⟩ : s = startMark ∧ body = first ++ b :: rest := by
        simpa [eq_comm] using hbody
      have hf : dangling first = false := (dangling_framed first).symm.trans unescaped
      obtain ⟨hfirst, hrest⟩ := (allLiterals_append_iff hf).mp hall
      rw [allLiterals_cons_plain plain] at hrest
      rw [literals_append _ hf, literals_cons_plain plain] at htext
      refine ⟨first ++ escapeMark :: b :: rest, rfl, ?_, ?_⟩
      · exact (allLiterals_append_iff hf).mpr ⟨hfirst, (allLiterals_cons_pair b).mpr hrest⟩
      · rw [literals_append _ hf, literals_cons_pair, htext]

/-! ### What comes out at the end -/

lemma dangling_of_literal {bytes : List UInt8} {i : Nat} (hi : i + 1 = bytes.length)
    (h : (literalAt? bytes i).isSome) : dangling bytes = false := by
  have hl : i < bytes.length := by omega
  rw [dangling, ← hi, escapedAt, List.getElem?_eq_getElem hl]
  cases he : escapedAt bytes i with
  | true => simp
  | false =>
    have hb : isMark bytes[i] = false := by
      by_contra hb
      rw [literalAt?_of_mark hl he (by simpa using hb)] at h
      cases h
    simp only [isMark, Bool.or_eq_false_iff, beq_eq_false_iff_ne] at hb
    simp [hb.2]

lemma literal_of_last {bytes : List UInt8} {i : Nat} (hi : i + 1 = bytes.length)
    (hs : startsAt bytes i = false) (hd : dangling bytes = false) :
    (literalAt? bytes i).isSome := by
  have hl : i < bytes.length := by omega
  rw [dangling, ← hi, escapedAt, List.getElem?_eq_getElem hl] at hd
  cases he : escapedAt bytes i with
  | true => rw [literalAt?_of_escaped hl he]; rfl
  | false =>
    have hb : isMark bytes[i] = false := by
      simp [isMark, show bytes[i] ≠ escapeMark by simpa [he] using hd,
        show bytes[i] ≠ startMark by simpa [startsAt, he, hl] using hs]
    rw [literalAt?_of_plain hl hb]
    rfl

/-- Bytes with one start mark, in front, complete a datagram at their end exactly if they are
literals behind it that spell the datagram. -/
lemma emitted_framed_iff {body : List UInt8}
    (hstart : ∀ i, startsAt (startMark :: body) i = true ↔ i = 0) (g : Datagram) :
    emittedAt {} (startMark :: body) body.length = some g ↔
      AllLiterals body ∧ ∃ f : FrameText, literals body = f.values ∧ f.Spells g := by
  have hnot : ∀ i, 0 < i → startsAt (startMark :: body) i = false := by
    intro i hi
    by_contra h
    have := (hstart i).mp (by simpa using h)
    omega
  by_cases hne : body = []
  · -- a start mark alone completes nothing, and spells nothing
    subst hne
    have hempty : ∀ f : FrameText, literals [] ≠ f.values := by
      intro f h
      simp [literals, literalsIn, FrameText.values] at h
    rw [List.length_nil, not_emitted_of_startsAt rfl (by simp) ((hstart 0).mpr rfl)]
    simp [hempty]
  · have hpos : 0 < body.length := List.length_pos_iff.mpr hne
    rw [emittedAt_behind_start rfl ((hstart 0).mpr rfl) hpos (by simp) (fun k hk _ => hnot k hk)]
    change (_ ∧ ∃ f : FrameText,
      literalsIn (startMark :: body) 1 (startMark :: body).length = _ ∧ _) ↔ _
    rw [literalsIn_framed]
    refine and_congr_left fun _ => ⟨fun hl => ⟨fun i => ?_, ?_⟩, fun hall => ?_⟩
    · rw [← startsAt_framed_succ, hnot _ i.succ_pos]
    · rw [← dangling_framed, dangling_of_literal rfl hl]
    · exact literal_of_last rfl (hnot _ hpos) ((dangling_framed body).trans hall.closed)

lemma startsAt_iff_of_lt {bytes : List UInt8} (hne : 0 < bytes.length)
    (h : ∀ i < bytes.length, startsAt bytes i = true ↔ i = 0) (i : Nat) :
    startsAt bytes i = true ↔ i = 0 := by
  rcases Nat.lt_or_ge i bytes.length with hi | hi
  · exact h i hi
  · simp [startsAt, hi]
    omega

/-- The bytes that begin with their only start mark and complete a datagram at their end are the
frame of the datagram with redundant escape marks put in. So the frame is the shortest of them,
and the only one of its length and the only one in which every escape mark is needed. -/
theorem frames_but_for_marks (bytes : List UInt8) (g : Datagram) :
    ((∀ i, startsAt bytes i = true ↔ i = 0) ∧ emittedAt {} bytes (bytes.length - 1) = some g ↔
        g.Fits ∧ ∃ n, Redundant g.encode n bytes) ∧
      ((∀ i, startsAt bytes i = true ↔ i = 0) →
        emittedAt {} bytes (bytes.length - 1) = some g →
          g.encode.length ≤ bytes.length ∧
            (g.encode.length = bytes.length → g.encode = bytes) ∧
            (Sparing bytes → g.encode = bytes)) := by
  have hsound : (∀ i, startsAt bytes i = true ↔ i = 0) →
      emittedAt {} bytes (bytes.length - 1) = some g →
        g.Fits ∧ ∃ n, Redundant g.encode n bytes := by
    intro hstart hlast
    have hfirst : bytes[0]? = some startMark := by
      simpa [startsAt, escapedAt] using (hstart 0).mpr rfl
    obtain ⟨body, rfl⟩ : ∃ body, bytes = startMark :: body := by
      cases bytes with
      | nil => cases hfirst
      | cons b body => cases hfirst; exact ⟨body, rfl⟩
    obtain ⟨hall, f, hf, hspells⟩ := (emitted_framed_iff hstart g).mp hlast
    obtain ⟨n, hn⟩ := redundant_of_allLiterals hall
    rw [hf, values_of_spells hspells] at hn
    refine ⟨fits_of_spells hspells, n, ?_⟩
    rw [encode_eq]
    exact redundant_append dangling_startMark hn
  refine ⟨⟨fun h => hsound h.1 h.2, ?_⟩, fun hstart hlast => ?_⟩
  · rintro ⟨hg, n, hn⟩
    rw [encode_eq] at hn
    obtain ⟨body, rfl, hall, htext⟩ := redundant_framed hn
    have hstart := startsAt_framed hall
    exact ⟨hstart, (emitted_framed_iff hstart g).mpr ⟨hall, _, htext, frameText_spells hg⟩⟩
  · obtain ⟨-, n, hn⟩ := hsound hstart hlast
    have hlength := redundant_length hn
    refine ⟨by omega, fun hsame => ?_, fun hs => (redundant_sparing hn hs).symm⟩
    obtain rfl : n = 0 := by omega
    cases hn
    rfl

/-- Two frames of one datagram, with an escape mark in its checksum: in the first one every escape
mark is needed, in the second one two of the three are not. -/
theorem two_frames_of_one_datagram :
    let g : Datagram := ⟨.read, ⟨0x3E⟩, []⟩
    let short : List UInt8 := [0x2B, 0x01, 0x04, 0x00, 0x00, 0x00, 0x3E, 0x15, 0x2D, 0x2B]
    let long : List UInt8 :=
      [0x2B, 0x2D, 0x01, 0x04, 0x00, 0x00, 0x2D, 0x00, 0x3E, 0x15, 0x2D, 0x2B]
    (∀ i, startsAt short i = true ↔ i = 0) ∧ (∀ i, startsAt long i = true ↔ i = 0) ∧
      emittedAt {} short (short.length - 1) = some g ∧
      emittedAt {} long (long.length - 1) = some g ∧
      Sparing short ∧ g.encode = short ∧ g.encode.length < long.length ∧
      ∃ n, Redundant g.encode n long := by
  intro g short long
  have hshort : ∀ i, startsAt short i = true ↔ i = 0 :=
    startsAt_iff_of_lt (by decide) (by decide +kernel)
  have hlong : ∀ i, startsAt long i = true ↔ i = 0 :=
    startsAt_iff_of_lt (by decide) (by decide +kernel)
  have hlast : emittedAt {} short (short.length - 1) = some g := by decide +kernel
  have hlast' : emittedAt {} long (long.length - 1) = some g := by decide +kernel
  have hs : Sparing short := by
    intro i b hb he
    have hi : i < short.length := (List.getElem?_eq_some_iff.mp hb).1
    have hall : ∀ i < short.length, ∀ b, short[i]? = some b → escapedAt short i = true →
        isMark b = true := by decide +kernel
    exact hall i hi b hb he
  have hencode : g.encode = short := ((frames_but_for_marks short g).2 hshort hlast).2.2 hs
  have hle := ((frames_but_for_marks long g).2 hlong hlast').1
  obtain ⟨-, n, hn⟩ := (frames_but_for_marks long g).1.mp ⟨hlong, hlast'⟩
  exact ⟨hshort, hlong, hlast, hlast', hs, hencode, by rw [hencode]; decide, n, hn⟩

end InverterLink.Proofs
