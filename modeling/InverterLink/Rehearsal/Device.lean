import InverterLink.Connection.Receiver
import InverterLink.Frame.Decoder

/-!
# Scripted devices

The device at the far end of a link sends what a script tells it to, and answers the read
requests that it decodes. Its script also says how much the link takes before writes fail.
-/

namespace InverterLink.Rehearsal

/-- What a link to a device does. -/
structure LinkScript where
  /-- What the device has sent before anything else happens. -/
  greeting : List UInt8 := []
  /-- How many bytes the link takes altogether. -/
  writeLimit : Option Nat := none
  /-- How writes beyond the limit fail. Without it they take no bytes, which is a failure too. -/
  writeError : Option IoKind := none
  /-- How many bytes the link takes at once. -/
  writePiece : Option Nat := none
  /-- How a flush fails. -/
  flushError : Option IoKind := none
  deriving DecidableEq

/-- The answers of a device: for an identifier, what it sends for one request after the other.
The last answer repeats. -/
abbrev Replies := List (Identifier × List (List UInt8))

/-- What a write finds. -/
inductive WriteResult where
  | taken (count : Nat)
  | failed (error : IoError)

structure Link where
  script : LinkScript
  /-- What the device has sent and the client has not read. -/
  outgoing : List UInt8
  /-- What comes behind everything sent. -/
  ending : Option Connection.ReadResult := none
  /-- What the client has written since somebody looked. -/
  written : List UInt8 := []
  /-- How many bytes the client has written altogether. -/
  total : Nat := 0
  decoder : Decoder := {}
  /-- The identifiers of the requests so far. -/
  requests : List Identifier := []

namespace Link

/-- A link that has just been opened. -/
def ofScript (script : LinkScript) : Link := { script, outgoing := script.greeting }

/-- The device sends bytes. -/
def send (l : Link) (bytes : List UInt8) : Link := { l with outgoing := l.outgoing ++ bytes }

/-- Read from the link; none if there is nothing to read yet. -/
def read (l : Link) : Option (Link × Connection.ReadResult) :=
  if l.outgoing.isEmpty then l.ending.map fun ending => (l, ending)
  else
    some ({ l with outgoing := l.outgoing.drop Connection.readLimit },
      .bytes (l.outgoing.take Connection.readLimit))

/-- How many of `count` bytes the link takes now. -/
def room (l : Link) (count : Nat) : Nat :=
  let limited := match l.script.writeLimit with
    | some limit => min count (limit - l.total)
    | none => count
  match l.script.writePiece with
  | some piece => min limited piece
  | none => limited

/-- The answer of a device to a request. -/
def reply (replies : Replies) (l : Link) (d : Datagram) : Link :=
  if d.command ≠ .read then l
  else
    let answers := (replies.lookup d.identifier).getD []
    let answer := (answers[l.requests.count d.identifier]? <|> answers.getLast?).getD []
    { l.send answer with requests := d.identifier :: l.requests }

/-- The client writes bytes, at least one. -/
def write (replies : Replies) (l : Link) (bytes : List UInt8) : Link × WriteResult :=
  let count := l.room bytes.length
  if count = 0 then
    let error : IoError := ⟨l.script.writeError.getD .writeZero, none⟩
    (l, .failed error)
  else
    let taken := bytes.take count
    let (decoder, datagrams) := l.decoder.decode taken
    let l := { l with written := l.written ++ taken, total := l.total + count, decoder }
    (datagrams.foldl (reply replies) l, .taken count)

end Link
end InverterLink.Rehearsal
