import InverterLink.Proofs.ConnectionVisits
import InverterLink.Proofs.EventSources
import InverterLink.Proofs.SocketStreams

/-!
# What the error callback is told

Dials, reads and writes of a connection can fail. The receiver tells the reporter of every dial and
every read of its own that fails, and the reporter tells the error callback, so nothing is lost on
the way and the order is kept: `Conveyed` says what a step adds to this queue and takes out of it. A
failed write goes back to its caller and to nobody else.
-/

namespace InverterLink.Proofs
open Connection

/-- The transport failure that an event shows: of a dial, a read or a write. -/
def failure? : Event → Option LinkError
  | .dialFailed error | .readFailed _ error | .writeFailed _ _ error => some error
  | _ => none

/-- The failure of the receiver that an event shows: of a dial or a read. -/
def setback? : Event → Option LinkError
  | .dialFailed error | .readFailed _ error => some error
  | _ => none

/-- What an event tells the error callback. -/
def reported? : Event → Option LinkError
  | .reported error => some error
  | _ => none

/-- The transport failures of a run, in the order in which they happened. -/
def failuresIn (events : List Event) : List LinkError := events.filterMap failure?

/-- The failed dials and reads of a run, in the order in which they happened. -/
def setbacksIn (events : List Event) : List LinkError := events.filterMap setback?

/-- What a run told the error callback, in order. -/
def reportsIn (events : List Event) : List LinkError := events.filterMap reported?

/-- The failure that a status tells of. -/
def failed? : Status → Option LinkError
  | .failed error => some error
  | .received => none

/-- The failure that the receiver has not told the reporter yet. -/
def untold : ReceiverPhase → List LinkError
  | .disconnecting error | .reporting error | .excusing _ error => [error]
  | _ => []

/-- The failures on the way to the error callback. -/
def onTheWay (s : State) : List LinkError := s.status.filterMap failed? ++ untold s.receiver

/-- A step loses no failure, doubles none and keeps the order. -/
def Conveyed (s s' : State) (events : List Event) : Prop :=
  onTheWay s ++ setbacksIn events = reportsIn events ++ onTheWay s'

/-- The reporter of a connection passes on what it gets, and ends only behind the receiver. -/
structure Telling (s : State) : Prop where
  working : Working s
  callback : s.settings.reportsErrors = true
  ended : s.reporter = false → s.receiver.isOver = true ∧ s.status = []

/-- The event has to do with the error callback. -/
def telltale : Event → Bool
  | .dialFailed _ | .readFailed _ _ | .reported _ => true
  | _ => false

section Steps

variable {s s' : State} {action : Action} {events : List Event}

lemma setbacksIn_append (first second : List Event) :
    setbacksIn (first ++ second) = setbacksIn first ++ setbacksIn second :=
  List.filterMap_append

lemma reportsIn_append (first second : List Event) :
    reportsIn (first ++ second) = reportsIn first ++ reportsIn second :=
  List.filterMap_append

lemma setbacks_untold (h : ∀ e ∈ events, telltale e = false) : setbacksIn events = [] := by
  refine List.filterMap_eq_nil_iff.mpr fun e he => ?_
  have hn := h e he
  cases e <;> first | rfl | cases hn

lemma reports_untold (h : ∀ e ∈ events, telltale e = false) : reportsIn events = [] := by
  refine List.filterMap_eq_nil_iff.mpr fun e he => ?_
  have hn := h e he
  cases e <;> first | rfl | cases hn

lemma conveyed_still (hstatus : s'.status = s.status)
    (huntold : untold s'.receiver = untold s.receiver)
    (he : ∀ e ∈ events, telltale e = false) : Conveyed s s' events := by
  rw [Conveyed, setbacks_untold he, reports_untold he, onTheWay, onTheWay, hstatus, huntold,
    List.append_nil, List.nil_append]

lemma reporter_runs (ht : Telling s) (ho : s.receiver.isOver = false) : s.reporter = true := by
  by_contra hn
  rw [(ht.ended (by simpa using hn)).1] at ho
  cases ho

lemma conveyed_told {item : Status} {r : ReceiverPhase} (hreporter : s.reporter = true)
    (hold : untold s.receiver = (failed? item).toList) (hnew : untold r = []) :
    Conveyed s { s with status := told s item, receiver := r } [] := by
  simp only [Conveyed, onTheWay, told, hreporter, if_true, hold, hnew, List.filterMap_append,
    setbacksIn, reportsIn, List.filterMap_nil, List.append_nil, List.nil_append]
  cases item <;> rfl

lemma untold_paused {b : Backoff} {draw : Draw} {r : ReceiverPhase} (h : Paused s b draw r) :
    untold r = [] := by
  cases h <;> rfl

lemma conveyed_setback {r : ReceiverPhase} {e : Event} {error : LinkError}
    (hold : untold s.receiver = []) (hnew : untold r = [error]) (he : setback? e = some error)
    (hn : reported? e = none) : Conveyed s { s with receiver := r } [e] := by
  simp only [Conveyed, onTheWay, hold, hnew, setbacksIn, reportsIn, List.filterMap_cons, he, hn,
    List.filterMap_nil, List.append_nil, List.nil_append]

lemma conveyed_receiver (ht : Telling s) (hm : ReceiverStep s action s' events) :
    Conveyed s s' events := by
  have hrunning : ∀ r, s.receiver = r → r.isOver = false → s.reporter = true :=
    fun r hr ho => reporter_runs ht (hr ▸ ho)
  cases hm with
  | calledOff draw phase cancelled => exact absurd (ht.working.cancelled.symm.trans cancelled) nofun
  | refused draw item hand decoder =>
    exact absurd decoder (decoder_runs ht.working (live_of_inHand hand))
  | loses draw k phase | forwards draw k bytes phase | announces draw k phase
    | wakes draw b deadline phase | connects b phase =>
    exact conveyed_still rfl (by rw [phase]; rfl) (by simp)
  | dials draw b phase | installs draw phase | reads k chunk phase =>
    exact conveyed_still rfl (by rw [phase]; rfl) (by simp [telltale])
  | disconnects draw error phase | closes draw phase =>
    exact conveyed_still rfl (by rw [phase]; rfl) (forall_released s fun _ => rfl)
  | acknowledges draw k phase | reports draw error phase =>
    exact conveyed_told (hrunning _ phase rfl) (by rw [phase]; rfl) rfl
  | excuses draw b error next phase room paused =>
    exact conveyed_told (hrunning _ phase rfl) (by rw [phase]; rfl) (untold_paused paused)
  | misses b error phase | fails k result error phase =>
    exact conveyed_setback (by rw [phase]; rfl) rfl rfl rfl

lemma conveyed_reporter (ht : Telling s) (hm : ReporterStep s s' events) :
    Conveyed s s' events ∧
      (s'.reporter = false → s'.receiver.isOver = true ∧ s'.status = []) := by
  cases hm with
  | calledOff running cancelled => exact absurd (ht.working.cancelled.symm.trans cancelled) nofun
  | hears rest running cancelled status =>
    refine ⟨?_, fun hn => absurd (running.symm.trans hn) nofun⟩
    simp [Conveyed, onTheWay, status, List.filterMap_cons, failed?, setbacksIn, reportsIn]
  | passesOn error rest running cancelled status =>
    refine ⟨?_, fun hn => absurd (running.symm.trans hn) nofun⟩
    simp [Conveyed, onTheWay, status, ht.callback, failed?, setbacksIn, reportsIn, setback?,
      reported?]
  | ends running cancelled status final =>
    refine ⟨?_, fun _ => ⟨final, rfl⟩⟩
    simp [Conveyed, onTheWay, status, setbacksIn, reportsIn, State.stopReporter]

/-- A step of neither the receiver nor the reporter: the failures on the way stay there. -/
structure KeepsOnTheWay (s s' : State) (events : List Event) : Prop where
  receiver : s'.receiver = s.receiver
  status : s'.status = s.status
  reporter : s'.reporter = s.reporter
  quiet : ∀ e ∈ events, telltale e = false

/-- The action is one of the receiver, of the reporter, or of the device on the receiver. -/
def tells : Action → Bool
  | .stepReceiver _ | .stepReporter | .dialed _ | .read _ => true
  | _ => false

lemma quiet_of_source {e : Event} (h : Source action e) (ha : tells action = false) :
    telltale e = false := by
  cases h with
  | received | dialed | read | reported => cases ha
  | _ => rfl

lemma keepsOnTheWay_step (hs : s.step action = some (s', events)) (ha : tells action = false) :
    KeepsOnTheWay s s' events := by
  have hquiet : ∀ e ∈ events, telltale e = false :=
    fun e he => quiet_of_source (source_step hs he) ha
  cases transition_step hs with
  | receiver hm =>
    cases hm with
    | _ => cases ha
  | reporter hm => cases ha
  | decoder hm =>
    cases hm with
    | _ => exact ⟨rfl, rfl, rfl, hquiet⟩
  | watcher w own hm =>
    cases hm with
    | _ => exact ⟨rfl, rfl, rfl, hquiet⟩
  | call current hm =>
    cases hm with
    | _ => exact ⟨rfl, rfl, rfl, hquiet⟩
  | filter current filter running hm =>
    cases hm with
    | _ => exact ⟨rfl, rfl, rfl, hquiet⟩
  | loop | begin | subscribe | unsubscribe | receive | shutdown | cancelParent | wait =>
    exact ⟨rfl, rfl, rfl, hquiet⟩

lemma tells_cases (hs : s.step action = some (s', events)) (ha : tells action = true) :
    ReceiverStep s action s' events ∨ ReporterStep s s' events := by
  cases action with
  | stepReceiver draw => exact .inl (receiverStep_stepReceiver hs)
  | dialed result => exact .inl (receiverStep_dialed hs)
  | read result => exact .inl (receiverStep_read hs)
  | stepReporter => exact .inr (reporterStep_stepReporter hs)
  | _ => cases ha

lemma reporter_receiver (hm : ReceiverStep s action s' events) : s'.reporter = s.reporter := by
  cases hm <;> rfl

/-- Every step that does not cancel the connection keeps the reporter at its work and loses no
failure. -/
theorem telling_step (ht : Telling s) (hs : s.step action = some (s', events))
    (hc : cancels action = false) : Telling s' ∧ Conveyed s s' events := by
  have hworking := (traffic_step ht.working hs hc).1
  have hcallback : s'.settings.reportsErrors = true := by
    rw [(changes_step hs).settings, ht.callback]
  cases ha : tells action with
  | false =>
    have hk := keepsOnTheWay_step hs ha
    refine ⟨⟨hworking, hcallback, ?_⟩, conveyed_still hk.status (by rw [hk.receiver]) hk.quiet⟩
    rw [hk.reporter, hk.receiver, hk.status]
    exact ht.ended
  | true =>
    rcases tells_cases hs ha with hm | hm
    · refine ⟨⟨hworking, hcallback, fun hn => ?_⟩, conveyed_receiver ht hm⟩
      rw [reporter_receiver hm, reporter_runs ht (live_receiver hm)] at hn
      cases hn
    · obtain ⟨hconveyed, hended⟩ := conveyed_reporter ht hm
      exact ⟨⟨hworking, hcallback, hended⟩, hconveyed⟩

theorem telling_run {actions : List Action} (ht : Telling s)
    (hr : s.run actions = some (s', events)) (hc : ∀ action ∈ actions, cancels action = false) :
    Telling s' ∧ Conveyed s s' events := by
  induction actions generalizing s events with
  | nil =>
    cases hr
    exact ⟨ht, by simp [Conveyed, setbacksIn, reportsIn]⟩
  | cons action rest ih =>
    obtain ⟨s₁, before, behind, hs, hrest, rfl⟩ := run_cases hr
    obtain ⟨ht₁, hfirst⟩ := telling_step ht hs (hc action List.mem_cons_self)
    obtain ⟨ht₂, hsecond⟩ := ih ht₁ hrest fun a ha => hc a (List.mem_cons_of_mem _ ha)
    refine ⟨ht₂, ?_⟩
    calc onTheWay s ++ setbacksIn (before ++ behind)
        = (reportsIn before ++ onTheWay s₁) ++ setbacksIn behind := by
          rw [setbacksIn_append, ← List.append_assoc, hfirst]
      _ = reportsIn (before ++ behind) ++ onTheWay s' := by
          rw [List.append_assoc, hsecond, reportsIn_append, List.append_assoc]

lemma telling_start (settings : ConnectionBuilder) (now : Instant)
    (hcallback : settings.reportsErrors = true) : Telling (State.start settings now false) :=
  ⟨working_start settings now, hcallback, nofun⟩

/-- A receiver and a reporter that wait have told everything, unless a write holds them up. -/
lemma told_of_rest (ht : Telling s) (hreceiver : ∀ draw, s.stepReceiver draw = none)
    (hreporter : s.stepReporter = none) (hwriter : s.writer = none) : onTheWay s = [] := by
  have hstatus : s.status = [] := by
    cases hr : s.reporter with
    | false => exact (ht.ended hr).2
    | true =>
      simp only [State.stepReporter, hr, ht.working.cancelled] at hreporter
      cases hq : s.status with
      | nil => rfl
      | cons item rest => cases item <;> simp [hq] at hreporter
  have hpush : ∀ item, (s.pushStatus item).isSome = true := by
    intro item
    unfold State.pushStatus
    split
    · rfl
    · rw [hstatus, if_pos (by decide)]
      rfl
  have huntold : untold s.receiver = [] := by
    have hnone := hreceiver 0
    cases hr : s.receiver with
    | disconnecting error => simp [State.stepReceiver, hr, hwriter] at hnone
    | reporting error =>
      simp only [State.stepReceiver, hr, Option.map_eq_none_iff] at hnone
      simpa [hnone] using hpush (.failed error)
    | excusing backoff error =>
      simp only [State.stepReceiver, hr, Option.map_eq_none_iff] at hnone
      simpa [hnone] using hpush (.failed error)
    | _ => rfl
  rw [onTheWay, hstatus, huntold]
  rfl

lemma refused_cases {n : CallId} {error : IoError}
    (hs : s.step (.refused n error) = some (s', events)) :
    ∃ socket, .writeFailed n socket (.connection error) ∈ events ∧
      .finished n (.error (.connection error)) ∈ events := by
  obtain ⟨c, -, hm⟩ := callMove_refused hs
  cases hm with
  | advance _ _ _ _ step => cases step
  | fail socket _ phase => exact ⟨socket, List.mem_cons_self, by simp⟩

end Steps

/-- Until the connection is cancelled, the error callback is told of every failed dial and read, in
the order in which they happened, each once, and of nothing else: what it was not told of yet is on
the way, and nothing is when the receiver and the reporter wait and no call writes. A failed write
goes back to the caller. -/
theorem setbacks_reported (settings : ConnectionBuilder) (now : Instant) (actions : List Action)
    (s : State) (events : List Event) (hcallback : settings.reportsErrors = true)
    (hrun : (State.start settings now false).run actions = some (s, events))
    (hc : ∀ action ∈ actions, cancels action = false) :
    setbacksIn events = reportsIn events ++ onTheWay s ∧
      (onTheWay s = [] → reportsIn events = setbacksIn events) ∧
      (Resting s → s.writer = none → reportsIn events = setbacksIn events) ∧
      ∀ n error s' more, s.step (.refused n error) = some (s', more) →
        ∃ socket, .writeFailed n socket (.connection error) ∈ more ∧
          .finished n (.error (.connection error)) ∈ more := by
  obtain ⟨ht, hconveyed⟩ := telling_run (telling_start settings now hcallback) hrun hc
  have hledger : setbacksIn events = reportsIn events ++ onTheWay s := hconveyed
  have htold : onTheWay s = [] → reportsIn events = setbacksIn events := by
    intro hn
    rw [hledger, hn, List.append_nil]
  refine ⟨hledger, htold, fun hrest hwriter => ?_, fun n error s' more hs => refused_cases hs⟩
  exact htold (told_of_rest ht hrest.1 hrest.2.2.2.2.2.1 hwriter)

/-- A connection with an error callback. -/
def overseen : ConnectionBuilder :=
  { ConnectionBuilder.ofHost "inverter" with reportsErrors := true }

/-- The device closes the first socket and refuses the next dial. -/
def lostAndRefused : List Action :=
  [.stepBroker, .read .endOfStream, .stepReceiver 0, .stepReceiver 0, .stepReceiver 0,
    .dialed (.error (.connection ⟨.connectionRefused, none⟩)), .stepReceiver 0, .stepReporter,
    .stepReporter]

/-- The callback is told of both. -/
theorem both_setbacks_reported :
    let start := State.start overseen 0 false
    (∀ action ∈ lostAndRefused, cancels action = false) ∧
      ∃ s events, start.run lostAndRefused = some (s, events) ∧ Resting s ∧ s.writer = none ∧
        reportsIn events = setbacksIn events ∧
        reportsIn events = [.connection ⟨.unexpectedEof, some "connection closed by device"⟩,
          .connection ⟨.connectionRefused, none⟩] := by
  intro start
  have hc : ∀ action ∈ lostAndRefused, cancels action = false := by decide
  have hsome : (start.run lostAndRefused).isSome = true := by decide +kernel
  have hend : ∀ r ∈ start.run lostAndRefused, Resting r.1 ∧ r.1.writer = none ∧
      setbacksIn r.2 = [.connection ⟨.unexpectedEof, some "connection closed by device"⟩,
        .connection ⟨.connectionRefused, none⟩] := by decide +kernel
  obtain ⟨⟨s, events⟩, hrun⟩ := Option.isSome_iff_exists.mp hsome
  obtain ⟨hrest, hwriter, hsetbacks⟩ := hend _ hrun
  have h := (setbacks_reported overseen 0 lostAndRefused s events rfl hrun hc).2.2.1 hrest hwriter
  exact ⟨hc, s, events, hrun, hrest, hwriter, h, h.trans hsetbacks⟩

/-- The device refuses the bytes of a call, and accepts the dial that follows. -/
def refusedAndRedialed : List Action :=
  [.stepBroker, .call (.send [0x2B]), .stepCall 0, .stepCall 0, .refused 0 ⟨.brokenPipe, none⟩,
    .stepReceiver 0, .stepReceiver 0, .dialed (.ok ()), .stepReceiver 0, .stepReceiver 0,
    .stepDecoder]

/-- A write fails, and the callback is never told: in the end all tasks wait and nothing is on the
way. -/
theorem failed_write_unreported :
    let start := State.start overseen 0 false
    (∀ action ∈ refusedAndRedialed, cancels action = false) ∧
      ∃ s events, start.run refusedAndRedialed = some (s, events) ∧ Resting s ∧ onTheWay s = [] ∧
        failuresIn events = [.connection ⟨.brokenPipe, none⟩] ∧ reportsIn events = [] := by
  intro start
  have hc : ∀ action ∈ refusedAndRedialed, cancels action = false := by decide
  have hsome : (start.run refusedAndRedialed).isSome = true := by decide +kernel
  have hend : ∀ r ∈ start.run refusedAndRedialed, Resting r.1 ∧ onTheWay r.1 = [] ∧
      failuresIn r.2 = [.connection ⟨.brokenPipe, none⟩] ∧ reportsIn r.2 = [] := by decide +kernel
  obtain ⟨⟨s, events⟩, hrun⟩ := Option.isSome_iff_exists.mp hsome
  exact ⟨hc, s, events, hrun, hend _ hrun⟩

end InverterLink.Proofs
