import InverterLink.Json.Numeral

/-!
# JSON values

Members of an object keep their order and may repeat a name. A string may name half of a
surrogate pair, which no text contains; such a string can be passed over but not used.
-/

namespace InverterLink.Json

/-- A string as read: its text, or nothing if no text has that form. -/
abbrev Text := Option String

/-- A JSON value. -/
inductive Value where
  | null
  | bool (b : Bool)
  | number (n : Numeral)
  | string (t : Text)
  | array (items : List Value)
  | object (members : List (Text × Value))

namespace Value

/-- A text. -/
def text (s : String) : Value := .string (some s)

/-- A whole number. -/
def int (n : Int) : Value := .number (.ofInt n)

/-- A whole number that is not negative. -/
def nat (n : Nat) : Value := .int n

/-- An object with these members. -/
def record (members : List (String × Value)) : Value :=
  .object (members.map fun (name, value) => (some name, value))

/-- The value of the first member of this name. -/
def get? (v : Value) (name : String) : Option Value :=
  match v with
  | .object members => members.lookup (some name)
  | _ => none

/-- The text of a string. -/
def text? : Value → Option String
  | .string t => t
  | _ => none

/-- The value of a whole number that is not negative. -/
def nat? : Value → Option Nat
  | .number n => n.nat?
  | _ => none

/-- The value of a whole number. -/
def int? : Value → Option Int
  | .number n => n.int?
  | _ => none

def bool? : Value → Option Bool
  | .bool b => some b
  | _ => none

/-- The items of an array. -/
def items? : Value → Option (List Value)
  | .array items => some items
  | _ => none

/-- The members of an object. -/
def members? : Value → Option (List (Text × Value))
  | .object members => some members
  | _ => none

end Value
end InverterLink.Json
