import InverterLink.Broker.Session

/-!
# Rehearsing a broker

A script acts on one broker through one handle, and names its subscriptions. Behind every step
the control loop does all it can, unless the script says otherwise.
-/

namespace InverterLink.Rehearsal

open Broker (Session)

inductive FanoutStep where
  | start
  | discard
  | subscribe (name : String)
  | unsubscribe (name : String)
  | drop (name : String)
  | publish (value : Nat)
  | receive (name : String)
  | drain (name : String)
  | cancel
  | close
  | look

inductive FanoutReply where
  | quiet
  | handleClosed
  | unknownName
  | full
  | published (result : LinkResult Unit)
  | received (result : Received Nat)
  | drained (values : List Nat)

structure Fanout where
  session : Session Nat := {}
  names : List (String × SubscriberId) := []
  isOpen : Bool := true
  /-- The count of members that the handle last showed. -/
  shown : Nat := 0

namespace Fanout

def act (f : Fanout) (action : Session.Action Nat) : Fanout :=
  match f.session.step action with
  | some (session, _) => { f with session }
  | none => f

def dropName (f : Fanout) (name : String) : Fanout :=
  match f.names.lookup name with
  | some id => { f.act (.release id) with names := f.names.filter (·.1 ≠ name) }
  | none => f

/-- Make a subscription under a name, in place of the one that had it. -/
def subscribe (f : Fanout) (name : String) : Fanout :=
  match f.session.step .subscribe with
  | some (session, .subscribed id) =>
    let f := { f with session }.dropName name
    { f with names := (name, id) :: f.names }
  | _ => f

/-- Publish a value, if that does not have to wait. -/
def publish (f : Fanout) (value : Nat) : Fanout × FanoutReply :=
  match f.session.step (.publish value) with
  | some (session, .publishing call) =>
    match session.step (.enter call) with
    | some (session, .published _ result) => ({ f with session }, .published result)
    | _ => ({ f with session }.act (.abandon call), .full)
  | _ => (f, .quiet)

def receive (f : Fanout) (id : SubscriberId) : Fanout × Received Nat :=
  match f.session.step (.receive id) with
  | some (session, .received _ result) => ({ f with session }, result)
  | _ => (f, .waiting)

/-- Take all values that are there, at most `fuel`. -/
def drain (f : Fanout) (id : SubscriberId) : Nat → Fanout × List Nat
  | 0 => (f, [])
  | fuel + 1 =>
    match f.receive id with
    | (f', .message value) =>
      let (f'', values) := f'.drain id fuel
      (f'', value :: values)
    | (f', _) => (f', [])

/-- What a step does by itself. -/
def perform (f : Fanout) : FanoutStep → Fanout × FanoutReply
  | .start => (f.act .start, .quiet)
  | .discard => (f.act .discard, .quiet)
  | .subscribe name => if f.isOpen then (f.subscribe name, .quiet) else (f, .handleClosed)
  | .unsubscribe name => if f.isOpen then (f.dropName name, .quiet) else (f, .handleClosed)
  | .drop name => (f.dropName name, .quiet)
  | .publish value => if f.isOpen then f.publish value else (f, .handleClosed)
  | .receive name =>
    match f.names.lookup name with
    | none => (f, .unknownName)
    | some id =>
      let (f, result) := f.receive id
      (f, .received result)
  | .drain name =>
    match f.names.lookup name with
    | none => (f, .unknownName)
    | some id =>
      let (f, values) := f.drain id subscriberCapacity
      (f, .drained values)
  | .cancel => (f.act .cancel, .quiet)
  | .close => if f.isOpen then ({ f.act .dropHandle with isOpen := false }, .quiet) else (f, .quiet)
  | .look => (f, .quiet)

/-- What a step does, with all that follows from it if `settles`. -/
def step (f : Fanout) (action : FanoutStep) (settles : Bool) : Fanout × FanoutReply :=
  let (f, reply) := f.perform action
  let f := if settles then { f with session := f.session.settle } else f
  ({ f with shown := if f.isOpen then f.session.broker.count else f.shown }, reply)

/-- The control loop was started and has not ended. -/
def isRunning (f : Fanout) : Bool := f.session.broker.phase = .running

end Fanout
end InverterLink.Rehearsal
