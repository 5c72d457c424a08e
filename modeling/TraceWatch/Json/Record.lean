import TraceWatch.Json.Value

/-!
# Documents as records

A record is read from an object, whose unknown fields are ignored and whose known fields may
stand only once, or from an array that gives the fields by position.
-/

namespace TraceWatch

/-- The parts that a document gives for a record. -/
structure Record where
  fields : List (String × Json)
  /-- Whether the parts were given by position. -/
  positional : Bool

namespace Record

/-- Whether no name occurs twice. -/
def distinct : List String → Bool
  | [] => true
  | name :: rest => !rest.contains name && distinct rest

/-- The parts of a record with the given field names, in their order. -/
def ofJson? (names : List String) : Json → Option Record
  | .object fields =>
    let known := fields.filter fun (name, _) => names.contains name
    if distinct (known.map Prod.fst) then some ⟨known, false⟩ else none
  | .array items =>
    if items.length ≤ names.length then some ⟨names.zip items, true⟩ else none
  | _ => none

/-- The part of a name. -/
def part? (record : Record) (name : String) : Option Json :=
  (record.fields.find? (·.1 = name)).map Prod.snd

/-- A part that has to be there. -/
def required {α : Type} (record : Record) (name : String) (read : Json → Option α) : Option α :=
  (record.part? name).bind read

/-- A part that may be null, and may be left out of an object but not out of an array. -/
def optional {α : Type} (record : Record) (name : String) (read : Json → Option α) :
    Option (Option α) :=
  match record.part? name with
  | none => if record.positional then none else some none
  | some v => v.nullable read

/-- A part that has a default value. -/
def withDefault {α : Type} (record : Record) (name : String) (read : Json → Option α) (value : α) :
    Option α :=
  match record.part? name with
  | none => some value
  | some v => read v

end Record

end TraceWatch
