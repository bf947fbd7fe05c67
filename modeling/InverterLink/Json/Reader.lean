import InverterLink.Json.Token

/-!
# Reading JSON

Tokens are put together with the containers in progress on a stack. Nothing may stand before or
behind the one value of a text, and no comma before a closing bracket.
-/

namespace InverterLink.Json

/-- A container in progress; what is complete is kept in reverse. -/
inductive Frame where
  | array (items : List Value)
  | object (members : List (Text × Value))
  /-- A member whose name has been read. -/
  | member (members : List (Text × Value)) (name : Text)

/-- What may come next. -/
inductive Expected where
  | value
  /-- A value, or the end of the array that has just begun. -/
  | firstItem
  /-- A name, or the end of the object that has just begun. -/
  | firstName
  | name
  | colon
  /-- A comma, or the end of the container. -/
  | separator
  | nothing

/-- A text read so far. -/
structure Reading where
  stack : List Frame := []
  expected : Expected := .value
  result : Option Value := none

namespace Reading

/-- A value is complete. -/
def complete (stack : List Frame) (v : Value) : Option Reading :=
  match stack with
  | [] => some ⟨[], .nothing, some v⟩
  | .array items :: rest => some ⟨.array (v :: items) :: rest, .separator, none⟩
  | .member members name :: rest => some ⟨.object ((name, v) :: members) :: rest, .separator, none⟩
  | .object _ :: _ => none

/-- A container ends. -/
def close (stack : List Frame) (token : Token) : Option Reading :=
  match stack, token with
  | .array items :: rest, .closeArray => complete rest (.array items.reverse)
  | .object members :: rest, .closeObject => complete rest (.object members.reverse)
  | _, _ => none

/-- A value begins. -/
def begin (stack : List Frame) : Token → Option Reading
  | .atom v => complete stack v
  | .openArray => some ⟨.array [] :: stack, .firstItem, none⟩
  | .openObject => some ⟨.object [] :: stack, .firstName, none⟩
  | _ => none

/-- The name of a member. -/
def named (stack : List Frame) (token : Token) : Option Reading :=
  match stack, token with
  | .object members :: rest, .atom (.string name) =>
    some ⟨.member members name :: rest, .colon, none⟩
  | _, _ => none

/-- Read one token. -/
def feed (r : Reading) (token : Token) : Option Reading :=
  match r.expected, token with
  | .value, _ => begin r.stack token
  | .firstItem, .closeArray => close r.stack token
  | .firstItem, _ => begin r.stack token
  | .firstName, .closeObject => close r.stack token
  | .firstName, _ | .name, _ => named r.stack token
  | .colon, .colon => some { r with expected := .value }
  | .colon, _ => none
  | .separator, .comma =>
    match r.stack with
    | .array _ :: _ => some { r with expected := .value }
    | .object _ :: _ => some { r with expected := .name }
    | _ => none
  | .separator, _ => close r.stack token
  | .nothing, _ => none

end Reading

/-- The value of a JSON text. -/
def Value.ofText? (text : String) : Option Value := do
  let tokens ← Token.ofText? text
  let reading ← tokens.foldlM Reading.feed {}
  reading.result

end InverterLink.Json
