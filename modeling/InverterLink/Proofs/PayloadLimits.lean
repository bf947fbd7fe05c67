import InverterLink.Connection.Query
import InverterLink.Proofs.CheckedReading
import InverterLink.Proofs.QueryTraffic

/-!
# The limits of payloads

A datagram whose payload is too long for a frame cannot be made. Nothing that is read makes one:
however decoders are used, started over and copied, each reads on as if it had no limits. Nothing
that is written makes one either: a write refuses a payload that is too long before it does
anything, and any other payload goes out in one frame.
-/

namespace InverterLink.Proofs
open Connection Decoder InverterLink.Frame

/-! ### Decoders and their copies -/

/-- A decoder, with what it was given: by its user, or before it was copied. -/
structure Copy where
  decoder : Decoder := {}
  inputs : List Input := []

/-- What can be done with decoders. -/
inductive Handling where
  | use (k : Nat) (use : Use)
  | clone (k : Nat)

/-- Do something with the decoder of a number, if there is one, with the checks of its limits. -/
def operate (copies : List Copy) : Handling → Except ReadFault (List Copy × List Datagram)
  | .use k use =>
    match copies[k]? with
    | none => .ok (copies, [])
    | some c => do
      let (decoder, datagrams) ← performChecked c.decoder use
      return (copies.set k ⟨decoder, c.inputs ++ consumed c.decoder use⟩, datagrams)
  | .clone k => .ok (copies ++ copies[k]?.toList, [])

def operateAll (copies : List Copy) : List Handling → Except ReadFault (List Copy × List Datagram)
  | [] => .ok (copies, [])
  | handling :: rest => do
    let (copies', datagrams) ← operate copies handling
    let (copies'', more) ← operateAll copies' rest
    return (copies'', datagrams ++ more)

/-- Every copy is where its inputs lead a fresh decoder, without any checks. -/
def AllCurrent (copies : List Copy) : Prop := ∀ c ∈ copies, c.decoder = after {} c.inputs

/-- One of the copies has completed a datagram. -/
def HasCompleted (copies : List Copy) (g : Datagram) : Prop :=
  ∃ c ∈ copies, ∃ earlier input, earlier ++ [input] <+: c.inputs ∧
    (react (after {} earlier) input).2 = some g

/-- What the older copies were given, the newer ones were given first. -/
def Grown (older newer : List Copy) : Prop :=
  ∀ c ∈ older, ∃ c' ∈ newer, c.inputs <+: c'.inputs

section Copies

variable {copies copies' : List Copy} {c : Copy} {g : Datagram}

lemma grown_trans {copies'' : List Copy} (h : Grown copies copies') (h' : Grown copies' copies'') :
    Grown copies copies'' := by
  intro c hc
  obtain ⟨c', hc', hle⟩ := h c hc
  obtain ⟨c'', hc'', hle'⟩ := h' c' hc'
  exact ⟨c'', hc'', hle.trans hle'⟩

lemma hasCompleted_grown (h : HasCompleted copies g) (hgrown : Grown copies copies') :
    HasCompleted copies' g := by
  obtain ⟨c, hc, earlier, input, hle, hg⟩ := h
  obtain ⟨c', hc', hle'⟩ := hgrown c hc
  exact ⟨c', hc', earlier, input, hle.trans hle', hg⟩

lemma completed_by {d : Decoder} {inputs : List Input}
    (hg : g ∈ (completions d inputs).reduceOption) :
    ∃ earlier input, earlier ++ [input] <+: inputs ∧
      (react (after d earlier) input).2 = some g := by
  induction inputs generalizing d with
  | nil => cases hg
  | cons first rest ih =>
    rw [completions, List.reduceOption_mem_iff] at hg
    rcases List.mem_cons.mp hg with hfirst | hrest
    · exact ⟨[], first, ⟨rest, rfl⟩, hfirst.symm⟩
    · rw [← List.reduceOption_mem_iff] at hrest
      obtain ⟨earlier, input, hle, hcompleted⟩ := ih hrest
      exact ⟨first :: earlier, input, (List.cons_prefix_cons).mpr ⟨rfl, hle⟩, hcompleted⟩

lemma operate_use (hcurrent : AllCurrent copies) {k : Nat} (hc : copies[k]? = some c) (use : Use) :
    let inputs := c.inputs ++ consumed c.decoder use
    operate copies (.use k use) =
      .ok (copies.set k ⟨after {} inputs, inputs⟩,
        (completions c.decoder (consumed c.decoder use)).reduceOption) := by
  have hdecoder := hcurrent c (List.mem_of_getElem? hc)
  have hfresh : Progress ({} : Decoder) [] := trivial
  have hprogress := progress_after hfresh c.inputs
  rw [← hdecoder] at hprogress
  intro inputs
  have hinputs : after {} inputs = after c.decoder (consumed c.decoder use) := by
    rw [after_append, ← hdecoder]
  simp only [operate, hc]
  rw [performChecked_eq hprogress, perform_eq, hinputs]
  rfl

/-- Whatever is done with the copies, no limit is met, and each copy stays current. -/
theorem operate_ok (hcurrent : AllCurrent copies) (handling : Handling) :
    ∃ copies' datagrams, operate copies handling = .ok (copies', datagrams) ∧
      AllCurrent copies' ∧ Grown copies copies' ∧ ∀ g ∈ datagrams, HasCompleted copies' g := by
  cases handling with
  | clone k =>
    refine ⟨_, [], rfl, fun c hc => ?_, fun c hc => ?_, nofun⟩
    · rcases List.mem_append.mp hc with hc | hc
      · exact hcurrent c hc
      · exact hcurrent c (List.mem_of_getElem? (Option.mem_toList.mp hc))
    · exact ⟨c, List.mem_append_left _ hc, List.prefix_rfl⟩
  | use k use =>
    cases hc : copies[k]? with
    | none =>
      refine ⟨copies, [], ?_, hcurrent, fun c hc => ⟨c, hc, List.prefix_rfl⟩, nofun⟩
      simp only [operate, hc]
    | some c =>
      obtain ⟨hk, hget⟩ := List.getElem?_eq_some_iff.mp hc
      have hdecoder := hcurrent c (List.mem_of_getElem? hc)
      refine ⟨_, _, operate_use hcurrent hc use, fun c' hc' => ?_, fun c' hc' => ?_, fun g hg => ?_⟩
      · rcases List.mem_or_eq_of_mem_set hc' with hold | rfl
        · exact hcurrent c' hold
        · rfl
      · -- the copy in use grows by what it reads, and every other stays
        obtain ⟨j, hj, rfl⟩ := List.mem_iff_getElem.mp hc'
        by_cases hjk : k = j
        · subst hjk
          rw [hget]
          exact ⟨_, List.mem_set hk _, List.prefix_append _ _⟩
        · refine ⟨copies[j], ?_, List.prefix_rfl⟩
          rw [← List.getElem_set_ne hjk (by simpa using hj)]
          exact List.getElem_mem _
      · obtain ⟨earlier, input, hle, hcompleted⟩ := completed_by hg
        refine ⟨_, List.mem_set hk _, c.inputs ++ earlier, input, ?_, ?_⟩
        · rw [List.append_assoc]
          exact (List.prefix_append_right_inj c.inputs).mpr hle
        · rwa [after_append, ← hdecoder]

theorem operateAll_ok (hcurrent : AllCurrent copies) (handlings : List Handling) :
    ∃ copies' datagrams, operateAll copies handlings = .ok (copies', datagrams) ∧
      AllCurrent copies' ∧ Grown copies copies' ∧ ∀ g ∈ datagrams, HasCompleted copies' g := by
  induction handlings generalizing copies with
  | nil => exact ⟨copies, [], rfl, hcurrent, fun c hc => ⟨c, hc, List.prefix_rfl⟩, nofun⟩
  | cons handling rest ih =>
    obtain ⟨copies₁, now, hnow, hcurrent₁, hgrown₁, hcompleted₁⟩ := operate_ok hcurrent handling
    obtain ⟨copies₂, later, hlater, hcurrent₂, hgrown₂, hcompleted₂⟩ := ih hcurrent₁
    refine ⟨copies₂, now ++ later, ?_, hcurrent₂, grown_trans hgrown₁ hgrown₂, fun g hg => ?_⟩
    · simp only [operateAll, hnow, ok_bind, hlater]
      rfl
    · rcases List.mem_append.mp hg with hg | hg
      · exact hasCompleted_grown (hcompleted₁ g hg) hgrown₂
      · exact hcompleted₂ g hg

end Copies

/-! ### Writes -/

/-- Begin the call of a job, unless it is refused. -/
def beginJob (s : State) : LinkResult Job → State × List Event × LinkResult CallId
  | .error error => (s, [], .error error)
  | .ok job => ((s.call job).1, (s.call job).2, .ok s.calls.length)

/-- Begin a write as a caller does: refuse a payload that is too long, and otherwise make a
datagram, which is a fault if its payload does not fit, and send its frame. -/
def beginWrite (s : State) (id : Identifier) (payload : List UInt8) :
    Except Fault (State × List Event × LinkResult CallId) :=
  if maxPayload < payload.length then
    .ok (beginJob s (.error (.invalidLength maxPayload payload.length)))
  else do
    let datagram ← Datagram.write id payload
    return beginJob s (.ok (.send datagram.encode))

section Writes

variable {s s' : State} {id : Identifier} {payload : List UInt8}

lemma beginWrite_eq (s : State) (id : Identifier) (payload : List UInt8) :
    beginWrite s id payload = .ok (beginJob s (writeJob id payload)) := by
  unfold beginWrite writeJob
  by_cases hlong : maxPayload < payload.length
  · rw [if_pos hlong, if_pos hlong]
  · rw [if_neg hlong, if_neg hlong, Datagram.write, make_eq (Nat.not_lt.mp hlong)]
    rfl

lemma run_call {job : Job} {later : List Action} {behind : List Event}
    (hlater : (s.call job).1.run later = some (s', behind)) :
    s.run (.call job :: later) = some (s', [.called s.calls.length] ++ behind) :=
  run_cons rfl hlater

/-- A call to send a frame is at most handed one socket, and writes nothing but the frame. -/
lemma sender_trace {settings : ConnectionBuilder} {now : Instant} {cancelled : Bool}
    {before later : List Action} {ahead behind : List Event} {frame : List UInt8}
    (hbefore : (State.start settings now cancelled).run before = some (s, ahead))
    (hlater : (s.call (.send frame)).1.run later = some (s', behind)) :
    let n := s.calls.length
    let h := visitsOf (State.start settings now cancelled)
      (before ++ .call (.send frame) :: later)
    traceOf n h = [] ∨ ∃ (k : SocketId) (chunks : List (List UInt8)),
      traceOf n h = .granted k frame :: chunks.map (.wrote k) ∧ chunks.flatten <+: frame ∧
        ((∃ v ∈ h, v.action = .flushed n) → chunks.flatten = frame) := by
  intro n h
  have hrecorded : Recorded h s' :=
    recorded_run settings now cancelled (runs_append hbefore (run_call hlater))
  have hbegun : outline (s.call (.send frame)).1 n = some (.send frame, .checking) := by
    simp [outline, State.call, Job.first, n]
  obtain ⟨phase, hcall⟩ := job_run hbegun hlater
  rcases record_of_call hrecorded hcall with hnone | hnone | ⟨k, rest, hspoken, hflushed⟩
  · exact .inl hnone
  · exact .inl hnone
  · obtain ⟨lead, chunks, rfl, htrace, hall⟩ := hspoken
    refine .inr ⟨k, chunks, htrace, ⟨rest, hall⟩, fun hf => ?_⟩
    rwa [hflushed hf, List.append_nil] at hall

lemma beginWrite_refused (hlong : maxPayload < payload.length) :
    beginWrite s id payload =
      .ok (s, [], .error (.invalidLength maxPayload payload.length)) := if_pos hlong

lemma beginWrite_sent (hfits : payload.length ≤ maxPayload) :
    let frame := Datagram.encode ⟨.write, id, payload⟩
    beginWrite s id payload =
      .ok ({ s with calls := s.calls ++ [{ job := .send frame, phase := .checking }] },
        [.called s.calls.length], .ok s.calls.length) := by
  intro frame
  rw [beginWrite_eq, writeJob, if_neg (Nat.not_lt.mpr hfits)]
  rfl

end Writes

/-- However decoders are used, read to the end or in part, started over and copied, neither the size
byte nor the payload of a datagram ever meets its limit: with the checks of the limits, everything
comes out as without them, and each datagram was completed by one of the copies, with the payload
that the size byte of its text announced. A write never meets the limit of its datagram: it does
what the job of the write does. A payload that is too long is refused, and nothing is sent or
changed. Any other payload makes one new call, with the frame of the datagram as its job, and that
call is at most handed one socket, to which it writes nothing but the frame, all of it if the socket
has sent it. -/
theorem payloads_within_limits (handlings : List Handling) (s : State) (id : Identifier)
    (payload : List UInt8) :
    (∃ copies datagrams, operateAll [{}] handlings = .ok (copies, datagrams) ∧
      (∀ c ∈ copies, c.decoder = after {} c.inputs) ∧
      ∀ g ∈ datagrams, ∃ c ∈ copies, ∃ earlier input, earlier ++ [input] <+: c.inputs ∧
        (react (after {} earlier) input).2 = some g ∧ AsAnnounced (earlier ++ [input]) g) ∧
    beginWrite s id payload = .ok (beginJob s (writeJob id payload)) ∧
    (maxPayload < payload.length →
      beginWrite s id payload =
        .ok (s, [], .error (.invalidLength maxPayload payload.length))) ∧
    (payload.length ≤ maxPayload →
      let n := s.calls.length
      let frame := Datagram.encode ⟨.write, id, payload⟩
      let called := { s with calls := s.calls ++ [{ job := .send frame, phase := .checking }] }
      beginWrite s id payload = .ok (called, [.called n], .ok n) ∧
      ∀ settings now cancelled before ahead later s' behind,
        (State.start settings now cancelled).run before = some (s, ahead) →
        called.run later = some (s', behind) →
        let h := visitsOf (State.start settings now cancelled)
          (before ++ .call (.send frame) :: later)
        traceOf n h = [] ∨ ∃ (k : SocketId) (chunks : List (List UInt8)),
          traceOf n h = .granted k frame :: chunks.map (.wrote k) ∧ chunks.flatten <+: frame ∧
            ((∃ v ∈ h, v.action = .flushed n) → chunks.flatten = frame)) := by
  refine ⟨?_, beginWrite_eq s id payload, beginWrite_refused, fun hfits => ?_⟩
  · have hfresh : AllCurrent [{}] := by
      intro c hc
      rw [List.mem_singleton.mp hc]
      rfl
    obtain ⟨copies, datagrams, hall, hcurrent, -, hcompleted⟩ := operateAll_ok hfresh handlings
    refine ⟨copies, datagrams, hall, hcurrent, fun g hg => ?_⟩
    obtain ⟨c, hc, earlier, input, hle, hreact⟩ := hcompleted g hg
    exact ⟨c, hc, earlier, input, hle, hreact, asAnnounced_of_completed hreact⟩
  · intro n frame called
    refine ⟨beginWrite_sent hfits, ?_⟩
    intro settings now cancelled before ahead later s' behind hbefore hlater
    exact sender_trace hbefore hlater

/-- The frame of an answer, cut behind its first bytes. -/
def cutFrame : List UInt8 × List UInt8 :=
  (Datagram.encode ⟨.response, ⟨0x3E⟩, [7]⟩).splitAt 4

/-- A decoder is copied in the middle of a frame, and the copy is started over. -/
def halfway : List Handling :=
  [.use 0 (.parse cutFrame.1), .clone 0, .use 1 .reset, .use 0 (.pull cutFrame.2 1),
    .use 1 (.parse cutFrame.2)]

/-- The socket takes a frame in two parts, and sends it. -/
def inTwoParts (frame : List UInt8) : List Action :=
  [.stepCall 0, .stepCall 0, .wrote 0 3, .wrote 0 (frame.length - 3), .stepCall 0, .flushed 0]

/-- Of a decoder and its copy, only the one that was not started over completes the frame. A payload
of 252 bytes is refused, and one of 2 bytes is written. -/
theorem one_byte_too_long :
    let start := State.start (.ofHost "inverter") 0 false
    let frame := Datagram.encode ⟨.write, ⟨0x3E⟩, [1, 2]⟩
    (∃ copies inputs, operateAll [{}] halfway = .ok (copies, [⟨.response, ⟨0x3E⟩, [7]⟩]) ∧
      AsAnnounced inputs ⟨.response, ⟨0x3E⟩, [7]⟩) ∧
    beginWrite start ⟨0x3E⟩ (List.replicate 252 0) =
      .ok (start, [], .error (.invalidLength 251 252)) ∧
    ∃ (k : SocketId) (chunks : List (List UInt8)),
      traceOf 0 (visitsOf start (.call (.send frame) :: inTwoParts frame)) =
        .granted k frame :: chunks.map (.wrote k) ∧ chunks.flatten = frame := by
  intro start frame
  obtain ⟨⟨copies, datagrams, hall, -, hcompleted⟩, -, hrefused, -⟩ :=
    payloads_within_limits halfway start ⟨0x3E⟩ (List.replicate 252 0)
  have hdatagrams : (operateAll [{}] halfway).map (·.2) = .ok [⟨.response, ⟨0x3E⟩, [7]⟩] := by
    decide +kernel
  rw [hall] at hdatagrams
  cases hdatagrams
  obtain ⟨-, -, earlier, input, -, -, hannounced⟩ := hcompleted _ (List.mem_singleton_self _)
  have hlength : (List.replicate 252 (0 : UInt8)).length = 252 := List.length_replicate
  rw [hlength] at hrefused
  obtain ⟨-, -, -, hsent⟩ := payloads_within_limits [] start ⟨0x3E⟩ [1, 2]
  obtain ⟨-, htrace⟩ := hsent (by decide)
  have hsome : ((start.call (.send frame)).1.run (inTwoParts frame)).isSome = true ∧
      traceOf 0 (visitsOf start (.call (.send frame) :: inTwoParts frame)) ≠ [] := by
    decide +kernel
  obtain ⟨⟨s, behind⟩, hrun⟩ := Option.isSome_iff_exists.mp hsome.1
  have hflush : ∃ v ∈ visitsOf start (.call (.send frame) :: inTwoParts frame),
      v.action = .flushed 0 := by
    rw [← List.mem_map, actions_eq (run_call hrun)]
    simp [inTwoParts]
  refine ⟨⟨copies, _, hall, hannounced⟩, hrefused (by decide), ?_⟩
  obtain ⟨k, chunks, hwritten, -, hflushed⟩ :=
    (htrace (.ofHost "inverter") 0 false [] [] _ s behind rfl hrun).resolve_left hsome.2
  exact ⟨k, chunks, hwritten, hflushed hflush⟩

end InverterLink.Proofs
