import InverterLink.Json.Value

/-!
# Records in JSON

A record is read from an object with its fields in any order, or from an array with its fields in
the order of the record. Fields that are missing keep their defaults, fields that are unknown are
passed over, and a field given twice is refused.
-/

namespace InverterLink.Json

/-- A field of a record: its name, and what its value does to the record. -/
structure Field (ρ : Type) where
  name : String
  read : Value → ρ → Option ρ

/-- A member of an object, given the names of the members before it. -/
def readMember {ρ : Type} (fields : List (Field ρ)) (earlier : List String) (record : ρ)
    (member : Text × Value) : Option (List String × ρ) := do
  let name ← member.1
  match fields.find? (·.name = name) with
  | none => return (earlier, record)
  | some field =>
    if name ∈ earlier then none
    let record ← field.read member.2 record
    return (name :: earlier, record)

/-- Read a record, starting from its defaults. -/
def readRecord {ρ : Type} (fields : List (Field ρ)) (defaults : ρ) : Value → Option ρ
  | .array items =>
    if fields.length < items.length then none
    else (fields.zip items).foldlM (fun record (field, item) => field.read item record) defaults
  | .object members =>
    (members.foldlM (fun (earlier, record) member => readMember fields earlier record member)
      (([] : List String), defaults)).map Prod.snd
  | _ => none

end InverterLink.Json
