import InverterLink.Connection.Step
import InverterLink.Rehearsal.Device
import InverterLink.Rehearsal.Series

/-!
# A connection among scripted devices

The stage holds a connection and everything around it: the devices, the plan for the dials and
the clock. All tasks take turns, one step each, until none can take a step; only then does time
pass, up to the next timer.
-/

namespace InverterLink.Rehearsal

open Connection (State Event CallId CallPhase SocketId)

/-- What is done with the datagrams that the connection logs. -/
inductive LogSink where
  | none
  /-- The datagrams are collected. -/
  | plain
  /-- The datagrams go to the log of the program. -/
  | log
  deriving DecidableEq

/-- The line that a datagram leaves in a log. -/
def LogSink.line (sink : LogSink) (d : Datagram) : String :=
  match sink with
  | .log => "INFO: recv: " ++ d.line
  | _ => d.line

structure Stage where
  state : State
  plan : Nat → Attempt LinkScript
  replies : Replies
  sink : LogSink
  /-- The time at which the token of the builder is cancelled. -/
  cancelAt : Option Instant
  /-- The times of all dials, the latest first. -/
  dials : List Instant
  /-- The time at which the dial in progress ends. -/
  dialEnds : Option Instant := none
  /-- The links to devices, each at the place of its socket. -/
  links : List Link
  /-- The failures that were reported since somebody looked, the latest first. -/
  errors : List LinkError := []
  /-- The lines that were logged since somebody looked, the latest first. -/
  lines : List String := []

namespace Stage

def currentDial (g : Stage) : Attempt LinkScript := g.plan (g.dials.length - 1)

def observe (g : Stage) : Event → Stage
  | .dialStarted time =>
    let g := { g with dials := time :: g.dials }
    let dial := g.currentDial
    { g with
      dialEnds :=
        if dial.hangs then none else some (tick (time + dial.takes.getD 0 * nanosPerMilli)) }
  | .reported error => { g with errors := error :: g.errors }
  | .logged d => { g with lines := g.sink.line d :: g.lines }
  | _ => g

/-- Do what is possible, and take note of what can be seen of it. -/
def act (g : Stage) (action : Connection.Action) : Option Stage := do
  let (state, events) ← g.state.step action
  return events.foldl observe { g with state }

def updateLink (g : Stage) (socket : SocketId) (change : Link → Link) : Stage :=
  { g with links := g.links.modify socket change }

/-- The dial in progress ends, if its time has come. -/
def endDial (g : Stage) : Option Stage := do
  let ends ← g.dialEnds
  if g.state.now < ends then none
  match g.currentDial.result with
  | .ok script =>
    let g ← g.act (.dialed (.ok ()))
    return { g with links := g.links ++ [Link.ofScript script], dialEnds := none }
  | .error error =>
    let g ← g.act (.dialed (.error error))
    return { g with dialEnds := none }

def readLink (g : Stage) : Option Stage :=
  match g.state.receiver with
  | .reading socket => do
    let link ← g.links[socket]?
    let (link, result) ← link.read
    (g.updateLink socket fun _ => link).act (.read result)
  | _ => none

def writeLink (g : Stage) (call : CallId) : Option Stage := do
  let c ← g.state.calls[call]?
  match c.phase with
  | .writing socket (b :: rest) =>
    let link ← g.links[socket]?
    let (link, result) := link.write g.replies (b :: rest)
    let g := g.updateLink socket fun _ => link
    match result with
    | .taken count => g.act (.wrote call count)
    | .failed error => g.act (.refused call error)
  | .flushing socket =>
    let link ← g.links[socket]?
    match link.script.flushError with
    | some kind => g.act (.refused call ⟨kind, none⟩)
    | none => g.act (.flushed call)
  | _ => none

def stepCall (g : Stage) (call : CallId) : Option Stage :=
  g.act (.stepCall call) <|> g.writeLink call

/-- A step that a task can take, or none. -/
abbrev Task := Stage → Option Stage

/-- All tasks, in the order of their turns. -/
def tasks (g : Stage) : List Task :=
  [fun g => g.act (.stepReceiver Series.draw), endDial, readLink,
    fun g => g.act .stepDecoder, fun g => g.act .stepBroker, fun g => g.act .stepCacheKeeper,
    fun g => g.act .stepLogger, fun g => g.act .stepReporter]
  ++ (List.range g.state.calls.length).flatMap fun call =>
    [fun g => g.stepCall call, fun g => g.act (.stepFilter call)]

/-- Let every task take a step, and say whether one did. -/
def sweep (g : Stage) : Stage × Bool :=
  g.tasks.foldl (fun (g, moved) task =>
    match task g with
    | some g => (g, true)
    | none => (g, moved)) (g, false)

/-- Let the tasks take turns until none can take a step, for at most `fuel` rounds. -/
def settleFor (g : Stage) : Nat → Stage
  | 0 => g
  | fuel + 1 =>
    match g.sweep with
    | (g, false) => g
    | (g, true) => g.settleFor fuel

/-- How many rounds the tasks may take without time passing. -/
def patience : Nat := 1000000

/-- Let the tasks take turns until none can take a step. -/
def settle (g : Stage) : Stage := g.settleFor patience

/-- The time that a call waits for. -/
def callTimer (phase : CallPhase) : Option Instant :=
  match phase with
  | .awaiting deadline => some (tick deadline)
  | _ => none

/-- The timers that have not fired. -/
def timers (g : Stage) : List Instant :=
  let receiver :=
    match g.state.receiver with
    | .dialing _ => g.dialEnds
    | .pausing _ deadline => some (tick deadline)
    | _ => none
  let calls := g.state.calls.filterMap fun c => callTimer c.phase
  (receiver.toList ++ g.cancelAt.toList ++ calls).filter (g.state.now < ·)

/-- Let time pass, and cancel the token of the builder if that is due. -/
def waitUntil (g : Stage) (time : Instant) : Stage :=
  let g := (g.act (.wait time)).getD g
  if g.cancelAt = some time then (g.act .cancelParent).getD g else g

/-- Let time pass up to the next timer, but not beyond `bound`, and let the tasks react. None if
there is no such timer. -/
def advance (g : Stage) (bound : Option Instant) : Option Stage := do
  let time ← (bound.toList ++ g.timers).min?
  if time ≤ g.state.now then none
  return (g.waitUntil time).settle

/-- Let time pass up to `time`. -/
def sleepUntil (g : Stage) (time : Instant) : Nat → Stage
  | 0 => g
  | fuel + 1 =>
    match g.advance (some time) with
    | none => g
    | some g => g.sleepUntil time fuel

def result? (g : Stage) (call : CallId) : Option (LinkResult Connection.Outcome) :=
  match g.state.calls[call]? with
  | some ⟨_, .finished result, _⟩ => some result
  | _ => none

/-- Let a call alone take steps, as many as it can. -/
def push (g : Stage) (call : CallId) : Nat → Stage
  | 0 => g
  | fuel + 1 =>
    match g.stepCall call with
    | none => g
    | some g => g.push call fuel

/-- Let time pass until a call is over. -/
def waitForFor (g : Stage) (call : CallId) : Nat → Stage
  | 0 => g
  | fuel + 1 =>
    if (g.result? call).isSome then g
    else
      match g.advance none with
      | none => g
      | some g => g.waitForFor call fuel

/-- Wait for the end of a call: it goes as far as it can alone, then everybody takes turns, and
then time passes. -/
def waitFor (g : Stage) (call : CallId) : Stage :=
  let g := g.push call patience
  if (g.result? call).isSome then g else g.settle.waitForFor call patience

/-- A stage with a connection whose first dial has succeeded. -/
def ofSeries (settings : ConnectionBuilder) (series : Series LinkScript) (replies : Replies)
    (sink : LogSink) (script : LinkScript) : Stage where
  state := .start settings series.state.now series.state.cancelled
  plan := series.script
  replies := replies
  sink := sink
  cancelAt := series.cancelAt
  dials := series.starts
  links := [Link.ofScript script]

end Stage
end InverterLink.Rehearsal
