import TraceWatch.Yaml.Node
import TraceWatch.Yaml.Word

/-!
# Typed parts of a document

A mapping is read as a record of known fields: unknown keys are ignored, a known one may stand
only once. A text may be any scalar; a truth value or a number has to be a plain one, or a
literal block with the tag of its type.
-/

namespace TraceWatch.Yaml

/-- The full name of a tag of the core schema. -/
def coreTag (name : String) : List Char := ("tag:yaml.org,2002:" ++ name).toList

namespace Node

/-- The text of a scalar. -/
def text? : Node → Option String
  | .scalar _ _ text => some (String.ofList text)
  | _ => none

/-- The word of a scalar that may be of the type that the tag names. -/
def word? (node : Node) (tag : String) : Option String :=
  match node with
  | .scalar _ .plain text => some (String.ofList text)
  | .scalar (some given) .literal text =>
    if given = coreTag tag then some (String.ofList text) else none
  | _ => none

/-- The truth value of a scalar. -/
def bool? (node : Node) : Option Bool := (node.word? "bool").bind Word.bool?

/-- The number of a scalar, at most `limit`. -/
def natural? (limit : Nat) (node : Node) : Option Nat :=
  (node.word? "int").bind fun word =>
    match Word.natural? word.toList with
    | some n => if n ≤ limit then some n else none
    | none => none

/-- The whole number of a scalar, from `least` to `greatest`. -/
def integer? (least greatest : Int) (node : Node) : Option Int :=
  (node.word? "int").bind fun word =>
    match Word.integer? word.toList with
    | some i => if least ≤ i ∧ i ≤ greatest then some i else none
    | none => none

/-- Whether a scalar stands for no value. No answer if its tag says so and its text does not. -/
def isNull? : Node → Option Bool
  | .scalar tag .plain text =>
    match tag with
    | some tag =>
      if tag = coreTag "null" then
        if Word.isNull (String.ofList text) then some true else none
      else some false
    | none => some (text.isEmpty || Word.isNull (String.ofList text))
  | _ => some false

/-- Reads a node that may stand for no value. -/
def nullable {α : Type} (read : Node → Option α) (node : Node) : Option (Option α) :=
  node.isNull?.bind fun null => if null then some none else (read node).map some

end Node

/-- The fields of a mapping: its keys, with the nodes that their values stand for. -/
abbrev Fields := List (String × Node)

namespace Document

/-- A key and its value. -/
def field? (document : Document) (entry : Node × Node) : Option (String × Node) := do
  let key ← (← document.resolve? entry.1).text?
  let value ← document.resolve? entry.2
  return (key, value)

/-- The fields of a mapping with the given names. What is left out has none. -/
def fields? (document : Document) (names : List String) (node : Node) : Option Fields :=
  match node with
  | .mapping entries => do
    let fields ← entries.mapM document.field?
    let known := fields.filter fun (name, _) => names.contains name
    if (known.map Prod.fst).Nodup then some known else none
  | .scalar _ .plain [] => some []
  | _ => none

end Document

namespace Fields

/-- The value of a field. -/
def value? (fields : Fields) (name : String) : Option Node :=
  (fields.find? (·.1 = name)).map Prod.snd

/-- A field that has to be there. -/
def required {α : Type} (fields : Fields) (name : String) (read : Node → Option α) : Option α :=
  (fields.value? name).bind read

/-- A field that may be left out or stand for no value. -/
def optional {α : Type} (fields : Fields) (name : String) (read : Node → Option α) :
    Option (Option α) :=
  match fields.value? name with
  | none => some none
  | some node => node.nullable read

/-- A field that has a default value. -/
def withDefault {α : Type} (fields : Fields) (name : String) (value : α)
    (read : Node → Option α) : Option α :=
  match fields.value? name with
  | none => some value
  | some node => read node

end Fields

end TraceWatch.Yaml
