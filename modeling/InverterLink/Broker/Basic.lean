/-!
# Fan-out of messages

A broker hands every message to all subscribers. Its control loop alone knows the members;
handles reach it through requests, which are never refused, and through room for a single message.
Delivery is best effort: a subscriber that lets its queue run full misses messages and holds up
nobody.
-/

namespace InverterLink

/-- How many messages a subscriber may leave unread. -/
def subscriberCapacity : Nat := 5

/-- The name of a subscription. It is never used twice. -/
abbrev SubscriberId := Nat

structure Queue (μ : Type) where
  messages : List μ := []
  /-- The subscriber still listens. -/
  held : Bool := true
  deriving DecidableEq

namespace Queue

variable {μ : Type}

/-- Put a message into a queue that has room. -/
def push (q : Queue μ) (m : μ) : Queue μ :=
  if q.messages.length < subscriberCapacity then { q with messages := q.messages ++ [m] } else q

/-- The subscriber is gone, and with it what it has not read. -/
def drop (_ : Queue μ) : Queue μ := ⟨[], false⟩

end Queue

/-- What the control loop is asked to do. -/
inductive Request where
  | register (id : SubscriberId)
  | remove (id : SubscriberId)
  deriving DecidableEq

/-- The life of a control loop. -/
inductive LoopPhase where
  | idle
  | running
  | stopped
  deriving DecidableEq

structure Broker (μ : Type) where
  handles : Nat := 1
  phase : LoopPhase := .idle
  /-- The subscriptions that the loop knows. -/
  members : List SubscriberId := []
  /-- The requests that the loop has not seen, the oldest first. -/
  requests : List Request := []
  /-- A message that the loop has accepted but not delivered. -/
  pending : Option μ := none
  /-- How many members the loop last announced. -/
  count : Nat := 0
  /-- The queue of each subscription ever made. -/
  queues : List (Queue μ) := []
  deriving DecidableEq

/-- What became of an offered message. -/
inductive Offer where
  | accepted
  | full
  | stopped
  deriving DecidableEq

/-- What a subscriber finds in its queue. -/
inductive Received (μ : Type) where
  | message (m : μ)
  /-- Nothing now, but there may be more. -/
  | waiting
  /-- Nothing, and there will never be more. -/
  | closed
  deriving DecidableEq

/-- What a turn of the control loop did. -/
inductive Turn (μ : Type) where
  | applied (request : Request)
  | delivered (m : μ)
  | stopped
  deriving DecidableEq

namespace Broker

variable {μ : Type}

/-- Leave a request for the loop. Nobody reads it once the loop has stopped. -/
def ask (b : Broker μ) (request : Request) : Broker μ :=
  if b.phase = .stopped then b else { b with requests := b.requests ++ [request] }

/-- Make a subscription. It gets messages from the time on when the loop knows it. -/
def subscribe (b : Broker μ) : Broker μ × SubscriberId :=
  let id := b.queues.length
  ({ b with queues := b.queues ++ [({} : Queue μ)] }.ask (.register id), id)

/-- The subscriber still listens. -/
def isHeld (b : Broker μ) (id : SubscriberId) : Bool := (b.queues[id]?).any (·.held)

def release (b : Broker μ) (id : SubscriberId) : Broker μ :=
  if b.isHeld id then { b with queues := b.queues.modify id Queue.drop }.ask (.remove id) else b

/-- Offer a message. There is room for one that has not been delivered. -/
def offer (b : Broker μ) (m : μ) : Broker μ × Offer :=
  match b.phase, b.pending with
  | .stopped, _ => (b, .stopped)
  | _, some _ => (b, .full)
  | _, none => ({ b with pending := some m }, .accepted)

/-- Somebody may still write to the queue of a subscription. -/
def isFed (b : Broker μ) (id : SubscriberId) : Bool :=
  id ∈ b.members || .register id ∈ b.requests

def receive (b : Broker μ) (id : SubscriberId) : Broker μ × Received μ :=
  match (b.queues[id]?).map (·.messages) with
  | some (m :: rest) =>
    ({ b with queues := b.queues.modify id fun q => { q with messages := rest } }, .message m)
  | _ => (b, if b.isFed id then .waiting else .closed)

def apply (b : Broker μ) (request : Request) : Broker μ :=
  let members :=
    match request with
    | .register id => b.members ++ [id]
    | .remove id => b.members.filter (· ≠ id)
  { b with members, count := members.length }

/-- Put a message into the queue of every member, and forget the members that are gone. -/
def deliver (b : Broker μ) (m : μ) : Broker μ :=
  let members := b.members.filter b.isHeld
  { b with
    members
    count := members.length
    queues := b.queues.mapIdx fun id q => if id ∈ members then q.push m else q }

/-- End the loop. What it has not seen is lost, and the subscriptions get no more messages. The
announced count of members stays. -/
def stop (b : Broker μ) : Broker μ :=
  { b with phase := .stopped, members := [], requests := [], pending := none }

/-- Start the loop, unless it was started before. -/
def start (b : Broker μ) : Broker μ :=
  if b.phase = .idle then { b with phase := .running } else b

/-- Drop a loop that has not been started. -/
def discard (b : Broker μ) : Broker μ := if b.phase = .idle then b.stop else b

/-- One turn of the loop. Cancellation goes before requests, and requests before a message; when
all handles are gone, the loop ends. Without anything to do there is no turn. -/
def turn (b : Broker μ) (cancelled : Bool) : Option (Broker μ × Turn μ) :=
  if b.phase ≠ .running then none
  else if cancelled then some (b.stop, .stopped)
  else
    match b.requests, b.pending with
    | request :: rest, _ => some ({ b with requests := rest }.apply request, .applied request)
    | [], some m => some ({ b with pending := none }.deliver m, .delivered m)
    | [], none => if b.handles = 0 then some (b.stop, .stopped) else none

/-- A bound on the turns that the loop can take on its own. -/
def workLeft (b : Broker μ) : Nat := b.requests.length + b.pending.toList.length + 1

end Broker
end InverterLink
