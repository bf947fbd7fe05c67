import InverterLink.Text.Printable

/-!
# Record text

Values are shown to people as records: a name and fields between braces. Texts stand between
quotes, and characters without a picture are written by number.
-/

namespace InverterLink.Text

/-- The code of a character in lower-case hexadecimal. -/
def codeText (c : Char) : List Char := Nat.toDigits 16 c.toNat

/-- A character within a quoted text. -/
def quoteChar (c : Char) : List Char :=
  match c with
  | '"' => ['\\', '"']
  | '\\' => ['\\', '\\']
  | '\n' => ['\\', 'n']
  | '\r' => ['\\', 'r']
  | '\t' => ['\\', 't']
  | '\x00' => ['\\', '0']
  | _ => if isPrintable c then [c] else ['\\', 'u', '\x7b'] ++ codeText c ++ ['\x7d']

def quoted (s : String) : String := "\"" ++ String.ofList (s.toList.flatMap quoteChar) ++ "\""

/-- A record with named fields. -/
def record (name : String) (fields : List (String × String)) : String :=
  name ++ " \x7b " ++ ", ".intercalate (fields.map fun (field, text) => field ++ ": " ++ text)
    ++ " \x7d"

/-- A value that may be missing. -/
def optional (text : Option String) : String :=
  match text with
  | none => "None"
  | some t => "Some(" ++ t ++ ")"

def truth (b : Bool) : String := if b then "true" else "false"

end InverterLink.Text
