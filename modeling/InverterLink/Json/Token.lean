import InverterLink.Json.Value
import InverterLink.Text.Hex

/-!
# Tokens of JSON text

The text is cut into tokens one character at a time. Two words or numbers that touch are never
both allowed, so the longest run of their characters is one token, and a bad run is refused.
-/

namespace InverterLink.Json

/-- A piece of JSON text. -/
inductive Token where
  | openArray
  | closeArray
  | openObject
  | closeObject
  | comma
  | colon
  /-- A value without parts. -/
  | atom (v : Value)

namespace Token

/-- A character of a string, or one half of a surrogate pair. -/
inductive Piece where
  | char (c : Char)
  | surrogate (code : Nat)

/-- What the text is in the middle of. Runs are kept in reverse. -/
inductive Mode where
  | between
  | word (seen : List Char)
  | numeral (seen : List Char)
  | string (seen : List Piece)
  | escape (seen : List Piece)
  | hex (seen : List Piece) (missing code : Nat)

/-- The first code of the surrogates. -/
def surrogateBase : Nat := 0xD800

/-- The first code of the second halves of surrogate pairs. -/
def lowBase : Nat := 0xDC00

/-- The first code behind the surrogates. -/
def surrogateEnd : Nat := 0xE000

/-- The character of an escape by number. -/
def pieceOfCode (code : Nat) : Piece :=
  if surrogateBase ≤ code ∧ code < surrogateEnd then .surrogate code else .char (Char.ofNat code)

/-- The characters of a string; a half without its other half refuses it. -/
def join : List Piece → Option (List Char)
  | [] => some []
  | .char c :: rest => (join rest).map (c :: ·)
  | .surrogate high :: .surrogate low :: rest =>
    if high < lowBase ∧ lowBase ≤ low then
      (join rest).map (Char.ofNat (0x10000 + (high - surrogateBase) * 0x400 + (low - lowBase)) :: ·)
    else none
  | .surrogate _ :: _ => none

/-- The string of a run. -/
def ofPieces (seen : List Piece) : Token := .atom (.string ((join seen.reverse).map String.ofList))

/-- The value that a word stands for. -/
def ofWord? (seen : List Char) : Option Token :=
  match String.ofList seen.reverse with
  | "null" => some (.atom .null)
  | "true" => some (.atom (.bool true))
  | "false" => some (.atom (.bool false))
  | _ => none

/-- The number of a run. -/
def ofNumeral? (seen : List Char) : Option Token :=
  (Numeral.ofText? seen.reverse).map fun n => .atom (.number n)

/-- The blanks between tokens. -/
def isBlank (c : Char) : Bool := c == ' ' || c == '\n' || c == '\t' || c == '\r'

/-- The characters of a number. -/
def inNumeral (c : Char) : Bool :=
  c.isDigit || c == '-' || c == '+' || c == '.' || c == 'e' || c == 'E'

/-- A character between tokens. -/
def start (c : Char) : Option (Mode × List Token) :=
  if isBlank c then some (.between, [])
  else if c.isLower then some (.word [c], [])
  else if c.isDigit ∨ c = '-' then some (.numeral [c], [])
  else
    match c with
    | '[' => some (.between, [.openArray])
    | ']' => some (.between, [.closeArray])
    | '\x7b' => some (.between, [.openObject])
    | '\x7d' => some (.between, [.closeObject])
    | ',' => some (.between, [.comma])
    | ':' => some (.between, [.colon])
    | '"' => some (.string [], [])
    | _ => none

/-- The characters that an escape of one character stands for. -/
def escaped? : Char → Option Char
  | '"' => some '"'
  | '\\' => some '\\'
  | '/' => some '/'
  | 'b' => some '\x08'
  | 'f' => some '\x0c'
  | 'n' => some '\n'
  | 'r' => some '\r'
  | 't' => some '\t'
  | _ => none

/-- The token that ends where another one starts. -/
def behind (token : Option Token) (c : Char) : Option (Mode × List Token) := do
  let token ← token
  let (mode, tokens) ← start c
  return (mode, token :: tokens)

/-- Read one character. -/
def advance (mode : Mode) (c : Char) : Option (Mode × List Token) :=
  match mode with
  | .between => start c
  | .word seen =>
    if c.isLower then some (.word (c :: seen), []) else behind (ofWord? seen) c
  | .numeral seen =>
    if inNumeral c then some (.numeral (c :: seen), []) else behind (ofNumeral? seen) c
  | .string seen =>
    if c = '"' then some (.between, [ofPieces seen])
    else if c = '\\' then some (.escape seen, [])
    else if c.toNat < 0x20 then none
    else some (.string (.char c :: seen), [])
  | .escape seen =>
    if c = 'u' then some (.hex seen 3 0, [])
    else (escaped? c).map fun e => (.string (.char e :: seen), [])
  | .hex seen missing code =>
    match Hex.value? c, missing with
    | none, _ => none
    | some v, 0 => some (.string (pieceOfCode (code * 16 + v) :: seen), [])
    | some v, missing + 1 => some (.hex seen missing (code * 16 + v), [])

/-- The token that the end of the text completes. -/
def finish : Mode → Option (List Token)
  | .between => some []
  | .word seen => (ofWord? seen).map ([·])
  | .numeral seen => (ofNumeral? seen).map ([·])
  | .string _ | .escape _ | .hex .. => none

/-- Cut a text into tokens, from inside a token. -/
def scan (mode : Mode) : List Char → Option (List Token)
  | [] => finish mode
  | c :: rest => do
    let (mode, tokens) ← advance mode c
    return tokens ++ (← scan mode rest)

/-- Cut a text into tokens. -/
def ofText? (text : String) : Option (List Token) := scan .between text.toList

end Token
end InverterLink.Json
