/-!
# Commands

A command says what a datagram is for. On the wire it is one byte, its code.
-/

namespace InverterLink

inductive Command where
  | read
  | write
  | longWrite
  | reserved1
  | response
  | longResponse
  | reserved2
  | readPeriodically
  | extension
  deriving DecidableEq

namespace Command

/-- The byte that stands for a command on the wire. -/
def code : Command → UInt8
  | read => 0x01
  | write => 0x02
  | longWrite => 0x03
  | reserved1 => 0x04
  | response => 0x05
  | longResponse => 0x06
  | reserved2 => 0x07
  | readPeriodically => 0x08
  | extension => 0x3C

/-- The command a byte stands for, if it stands for one. -/
def ofCode? : UInt8 → Option Command
  | 0x01 => some read
  | 0x02 => some write
  | 0x03 => some longWrite
  | 0x04 => some reserved1
  | 0x05 => some response
  | 0x06 => some longResponse
  | 0x07 => some reserved2
  | 0x08 => some readPeriodically
  | 0x3C => some extension
  | _ => none

def name : Command → String
  | read => "Read"
  | write => "Write"
  | longWrite => "LongWrite"
  | reserved1 => "Reserved1"
  | response => "Response"
  | longResponse => "LongResponse"
  | reserved2 => "Reserved2"
  | readPeriodically => "ReadPeriodically"
  | extension => "Extension"

/-- Only the device's answers carry one of these two commands. -/
def isResponse : Command → Bool
  | response | longResponse => true
  | _ => false

theorem ofCode?_code (c : Command) : ofCode? c.code = some c := by
  cases c <;> rfl

theorem code_of_ofCode? {b : UInt8} {c : Command} (h : ofCode? b = some c) : c.code = b := by
  unfold ofCode? at h
  split at h <;> cases h <;> rfl

end Command
end InverterLink
