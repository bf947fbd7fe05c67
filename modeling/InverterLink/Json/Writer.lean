import InverterLink.Json.Value
import InverterLink.Text.Hex

/-!
# Writing JSON

Values are written without blanks. In strings the quote, the backslash and the characters below
the blank are escaped, by a letter where there is one.
-/

namespace InverterLink.Json

/-- A character within a string. -/
def escapeChar (c : Char) : List Char :=
  match c with
  | '"' => ['\\', '"']
  | '\\' => ['\\', '\\']
  | '\x08' => ['\\', 'b']
  | '\x0c' => ['\\', 'f']
  | '\n' => ['\\', 'n']
  | '\r' => ['\\', 'r']
  | '\t' => ['\\', 't']
  | _ =>
    if c.toNat < 0x20 then ['\\', 'u', '0', '0'] ++ Hex.ofByte (UInt8.ofNat c.toNat) else [c]

/-- A string between quotes. -/
def quote (s : String) : String := "\"" ++ String.ofList (s.toList.flatMap escapeChar) ++ "\""

namespace Value

mutual

/-- The text of a value. A string without a text is written as the mark for unknown characters. -/
def write : Value → String
  | .null => "null"
  | .bool b => if b then "true" else "false"
  | .number n => n.text
  | .string t => quote (t.getD "\ufffd")
  | .array items => "[" ++ ",".intercalate (writeItems items) ++ "]"
  | .object members => "\x7b" ++ ",".intercalate (writeMembers members) ++ "\x7d"

/-- The texts of several values. -/
def writeItems : List Value → List String
  | [] => []
  | v :: rest => v.write :: writeItems rest

/-- The texts of members, each behind its name. -/
def writeMembers : List (Text × Value) → List String
  | [] => []
  | (name, v) :: rest => (quote (name.getD "\ufffd") ++ ":" ++ v.write) :: writeMembers rest

end

end Value
end InverterLink.Json
