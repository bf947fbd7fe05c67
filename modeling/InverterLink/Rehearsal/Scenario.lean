import InverterLink.Connection.Query
import InverterLink.Rehearsal.Stage

/-!
# Scenarios

A scenario builds a connection and then acts as its user and as the device, one step after the
other. Queries in the background and subscriptions have names. Behind every step all tasks do
what they can, unless the scenario says otherwise.
-/

namespace InverterLink.Rehearsal

open Connection (CallId QueryKind QueryValue)

/-- A step of a scenario. Steps of the device go to the link of a number, or to the newest. -/
inductive ScenarioStep where
  | send (frame : List UInt8)
  | write (id : Identifier) (payload : List UInt8)
  | query (kind : QueryKind) (id : Identifier)
  | start (name : String) (kind : QueryKind) (id : Identifier)
  | join (name : String)
  | isFinished (name : String)
  | abort (name : String)
  | subscribe (name : String)
  | unsubscribe (name : String)
  | receive (name : String)
  | drain (name : String)
  | get (id : Identifier)
  | lastReceived
  | record
  | host
  | shutdown
  | cancel
  | sleep (millis : Nat)
  | errors
  | logged
  | dialTimes
  | deviceSend (link : Option Nat) (bytes : List UInt8)
  | deviceEnd (link : Option Nat) (ending : Connection.ReadResult)
  | deviceTake (link : Option Nat)
  | deviceStatus (link : Option Nat)

inductive ScenarioReply where
  | quiet
  /-- There is no subscription, query or link of this name. -/
  | unknown
  | sent (result : LinkResult Nat)
  | written (result : LinkResult Unit)
  | queried (result : LinkResult QueryValue)
  | finished (yes : Option Bool)
  | received (result : Received Datagram)
  | drained (datagrams : List Datagram)
  | entry (entry : Option (Datagram × Duration))
  | age (age : Option Duration)
  | text (text : String)
  | flag (yes : Bool)
  | errors (errors : List LinkError)
  | lines (lines : List String)
  | times (times : List Instant)
  | bytes (bytes : List UInt8)
  /-- Which halves of a link the client still holds. -/
  | halves (reader writer : Bool)

structure Background where
  call : CallId
  kind : QueryKind
  id : Identifier

structure Scenario where
  stage : Stage
  subscriptions : List (String × SubscriberId) := []
  queries : List (String × Background) := []

/-- The end of an attempt to build a connection. -/
inductive Opening where
  | started (scenario : Scenario)
  /-- The connection could not be built; the dials so far, and the time. -/
  | failed (error : LinkError) (dials : List Instant) (time : Instant)
  | broken (fault : Fault)

namespace Scenario

def onStage (c : Scenario) (change : Stage → Stage) : Scenario := { c with stage := change c.stage }

def act (c : Scenario) (action : Connection.Action) : Scenario :=
  c.onStage fun g => (g.act action).getD g

def call (c : Scenario) (job : Connection.Job) : Scenario × CallId :=
  (c.act (.call job), c.stage.state.calls.length)

/-- Make a call and wait for its end. -/
def await (c : Scenario) (job : Connection.Job) : Scenario × LinkResult Connection.Outcome :=
  let (c, call) := c.call job
  let c := c.onStage fun g => g.waitFor call
  (c, (c.stage.result? call).getD (.error .timeout))

/-- The count of bytes that a call sent. -/
def count (result : LinkResult Connection.Outcome) : LinkResult Nat :=
  result.map fun
    | .sent n => n
    | .answered _ => 0

def dropName (c : Scenario) (name : String) : Scenario :=
  match c.subscriptions.lookup name with
  | some id =>
    { c.act (.unsubscribe id) with subscriptions := c.subscriptions.filter (·.1 ≠ name) }
  | none => c

/-- Make a subscription under a name, in place of the one that had it. -/
def subscribe (c : Scenario) (name : String) : Scenario :=
  let id := c.stage.state.broker.queues.length
  let c := (c.act .subscribe).dropName name
  { c with subscriptions := (name, id) :: c.subscriptions }

def receive (c : Scenario) (id : SubscriberId) : Scenario × Received Datagram :=
  match c.stage.state.step (.receive id) with
  | some (state, [.received _ result]) => (c.onStage fun g => { g with state }, result)
  | _ => (c, .waiting)

/-- Take all datagrams that are there, at most `fuel`. -/
def drain (c : Scenario) (id : SubscriberId) : Nat → Scenario × List Datagram
  | 0 => (c, [])
  | fuel + 1 =>
    match c.receive id with
    | (c', .message d) =>
      let (c'', datagrams) := c'.drain id fuel
      (c'', d :: datagrams)
    | (c', _) => (c', [])

/-- The link of a number, or the newest. -/
def link? (c : Scenario) (number : Option Nat) : Option Nat :=
  let count := c.stage.links.length
  let chosen := number.getD (count - 1)
  if chosen < count then some chosen else none

/-- Do something with a link, if there is one. -/
def withLink (c : Scenario) (number : Option Nat)
    (use : Nat → Scenario × ScenarioReply) : Scenario × ScenarioReply :=
  match c.link? number with
  | some k => use k
  | none => (c, .unknown)

/-- What a step of the user does by itself. -/
def perform (c : Scenario) : ScenarioStep → Scenario × ScenarioReply
  | .send frame =>
    let (c, result) := c.await (.send frame)
    (c, .sent (count result))
  | .write id payload =>
    match Connection.writeJob id payload with
    | .error error => (c, .written (.error error))
    | .ok job =>
      let (c, result) := c.await job
      (c, .written (result.map fun _ => ()))
  | .query kind id =>
    let (c, result) := c.await (kind.job id)
    (c, .queried (kind.value id result))
  | .start name kind id =>
    let (c, call) := c.call (kind.job id)
    ({ c with queries := (name, ⟨call, kind, id⟩) :: c.queries.filter (·.1 ≠ name) }, .quiet)
  | .join name =>
    match c.queries.lookup name with
    | none => (c, .unknown)
    | some q =>
      let c := { c with queries := c.queries.filter (·.1 ≠ name) }
      let c := c.onStage fun g =>
        if (g.result? q.call).isSome then g else g.settle.waitForFor q.call Stage.patience
      (c, .queried (q.kind.value q.id ((c.stage.result? q.call).getD (.error .timeout))))
  | .isFinished name =>
    (c, .finished ((c.queries.lookup name).map fun q => (c.stage.result? q.call).isSome))
  | .abort name =>
    match c.queries.lookup name with
    | none => (c, .quiet)
    | some q => ({ c.act (.dropCall q.call) with
        queries := c.queries.filter (·.1 ≠ name) }, .quiet)
  | .subscribe name => (c.subscribe name, .quiet)
  | .unsubscribe name => (c.dropName name, .quiet)
  | .receive name =>
    match c.subscriptions.lookup name with
    | none => (c, .unknown)
    | some id =>
      let (c, result) := c.receive id
      (c, .received result)
  | .drain name =>
    match c.subscriptions.lookup name with
    | none => (c, .unknown)
    | some id =>
      let (c, datagrams) := c.drain id subscriberCapacity
      (c, .drained datagrams)
  | .get id =>
    (c, .entry ((c.stage.state.cache.get? id).map fun e =>
      (e.datagram, c.stage.state.age e.stored)))
  | .lastReceived => (c, .age (c.stage.state.lastReceived.map c.stage.state.age))
  | .record => (c, .text (Connection.recordText c.stage.state))
  | .host => (c, .text c.stage.state.config.host)
  | .shutdown => (c.act .shutdown, .flag c.stage.state.parentCancelled)
  | .cancel => (c.act .cancelParent, .quiet)
  | .sleep millis =>
    (c.onStage fun g =>
      g.settle.sleepUntil (g.state.now + millis * nanosPerMilli) Stage.patience, .quiet)
  | .errors => (c.onStage fun g => { g with errors := [] }, .errors c.stage.errors.reverse)
  | .logged => (c.onStage fun g => { g with lines := [] }, .lines c.stage.lines.reverse)
  | .dialTimes => (c, .times c.stage.dials.reverse)
  | .deviceSend link bytes => c.withLink link fun k =>
    (c.onStage fun g => g.updateLink k fun l => l.send bytes, .quiet)
  | .deviceEnd link ending => c.withLink link fun k =>
    (c.onStage fun g => g.updateLink k fun l => { l with ending := some ending }, .quiet)
  | .deviceTake link => c.withLink link fun k =>
    (c.onStage fun g => g.updateLink k fun l => { l with written := [] },
      .bytes (((c.stage.links[k]?).map (·.written)).getD []))
  | .deviceStatus link => c.withLink link fun k =>
    (c, .halves (c.stage.state.receiver.socket? = some k) (c.stage.state.live = some k))

/-- What a step does, with all that follows from it if `settles`. -/
def step (c : Scenario) (action : ScenarioStep) (settles : Bool) : Scenario × ScenarioReply :=
  let (c, reply) := c.perform action
  (if settles then c.onStage Stage.settle else c, reply)

/-- Build a connection, and let its tasks do what they can. -/
def build (settings : ConnectionBuilder) (plan : Nat → Attempt LinkScript) (replies : Replies)
    (sink : LogSink) (cancelAt : Option Instant) : Opening :=
  match settings.dialed with
  | .error error => .failed error [] 0
  | .ok _ =>
    let series := (Series.begin settings.config.backoff plan cancelAt).run Series.patience
    let dials := series.starts.reverse
    match series.state.phase with
    | .finished (.ok script) =>
      .started ⟨(Stage.ofSeries settings series replies sink script).settle, [], []⟩
    | .finished (.error error) => .failed error dials series.state.now
    | .broken fault => .broken fault
    | _ => .failed .timeout dials series.state.now

end Scenario
end InverterLink.Rehearsal
