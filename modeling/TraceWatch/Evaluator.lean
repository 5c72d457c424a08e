import TraceWatch.Json.Printer
import TraceWatch.Json.Record

/-!
# Evaluators

An evaluator is a check that a run applies to sampled traces. Its settings are a document that
this service only stores and forwards; they are kept in canonical order, so that equal settings
have equal texts.
-/

namespace TraceWatch

/-- A check applied to sampled traces, with its settings. -/
structure Evaluator where
  identifier : String
  displayName : String
  settings : JsonFields
deriving Repr, BEq

namespace Evaluator

/-- An evaluator without settings. -/
def plain (identifier displayName : String) : Evaluator := ⟨identifier, displayName, []⟩

/-- The evaluator with one setting put in, in place of an earlier one of the same name. -/
def withSetting (evaluator : Evaluator) (name : String) (value : Json) : Evaluator :=
  { evaluator with settings := JsonFields.insert name value.canonical evaluator.settings }

/-- The document of an evaluator. -/
def toJson (evaluator : Evaluator) : Json :=
  .object [("identifier", .string evaluator.identifier),
    ("displayName", .string evaluator.displayName),
    ("config", .object evaluator.settings)]

/-- The settings in a document, in canonical order. -/
def settingsOfJson? (document : Json) : Option JsonFields :=
  match document.canonical with
  | .object fields => some fields
  | _ => none

/-- Reads an evaluator; its settings may be left out. -/
def ofJson? (document : Json) : Option Evaluator := do
  let record ← Record.ofJson? ["identifier", "displayName", "config"] document
  let identifier ← record.required "identifier" Json.string?
  let displayName ← record.required "displayName" Json.string?
  let settings ← record.withDefault "config" settingsOfJson? []
  some ⟨identifier, displayName, settings⟩

/-- The document of a list of evaluators. -/
def listToJson (evaluators : List Evaluator) : Json := .array (evaluators.map toJson)

/-- Reads a list of evaluators. -/
def listOfJson? : Json → Option (List Evaluator) := Json.listOf ofJson?

end Evaluator

end TraceWatch
