import TraceWatch.Number.Binary64

/-!
# Documents

A document is a JSON value. An object keeps its fields in a list: as written, when it comes from
a text; in canonical order, after `Json.canonical`, where each key stands once and the keys
ascend. Whole numbers between `-2 ^ 63` and `2 ^ 64` are kept exactly and all others as binary
numbers.
-/

namespace TraceWatch

/-- A number of a document. -/
inductive JsonNumber where
  | whole (value : Int)
  | binary (value : Binary64)
deriving DecidableEq, Repr

/-- A JSON value. -/
inductive Json where
  | null
  | bool (value : Bool)
  | number (value : JsonNumber)
  | string (value : String)
  | array (items : List Json)
  | object (fields : List (String × Json))
deriving Repr, Inhabited, BEq

/-- The fields of an object. -/
abbrev JsonFields := List (String × Json)

namespace JsonFields

/-- Puts a field where its key belongs among ascending keys, in place of one with the same
key. -/
def insert (key : String) (value : Json) : JsonFields → JsonFields
  | [] => [(key, value)]
  | (k, v) :: rest =>
    if key = k then (key, value) :: rest
    else if key < k then (key, value) :: (k, v) :: rest
    else (k, v) :: insert key value rest

/-- The fields with ascending keys; of several with one key the last counts. -/
def sorted (fields : JsonFields) : JsonFields :=
  fields.foldl (fun done (k, v) => insert k v done) []

/-- The value of a key; of several the last counts. -/
def get? (fields : JsonFields) (key : String) : Option Json :=
  (fields.reverse.find? (·.1 = key)).map Prod.snd

end JsonFields

namespace Json

mutual

/-- The same document with the fields of every object in it sorted, each key once. -/
def canonical : Json → Json
  | .array items => .array (canonicalItems items)
  | .object fields => .object (JsonFields.sorted (canonicalFields fields))
  | .null => .null
  | .bool b => .bool b
  | .number n => .number n
  | .string s => .string s

/-- `canonical` on each item of an array. -/
def canonicalItems : List Json → List Json
  | [] => []
  | v :: rest => canonical v :: canonicalItems rest

/-- `canonical` on each value of an object. -/
def canonicalFields : List (String × Json) → List (String × Json)
  | [] => []
  | (k, v) :: rest => (k, canonical v) :: canonicalFields rest

end

/-- The value of a key of an object. -/
def get? (document : Json) (key : String) : Option Json :=
  match document with
  | .object fields => JsonFields.get? fields key
  | _ => none

/-- A whole number as a document. -/
def whole (i : Int) : Json := .number (.whole i)

/-- A binary number as a document. -/
def binary (x : Binary64) : Json := .number (.binary x)

/-- A text or nothing. -/
def ofString? : Option String → Json
  | none => .null
  | some s => .string s

/-- The text of a string. -/
def string? : Json → Option String
  | .string s => some s
  | _ => none

/-- The value of a truth value. -/
def bool? : Json → Option Bool
  | .bool b => some b
  | _ => none

/-- The items of an array. -/
def array? : Json → Option (List Json)
  | .array items => some items
  | _ => none

/-- A whole number from `low` to `high`. A number written with a fraction is not whole. -/
def whole? (low high : Int) : Json → Option Int
  | .number (.whole i) => if low ≤ i ∧ i ≤ high then some i else none
  | _ => none

/-- A whole number from zero to `high`. -/
def natural? (high : Nat) (document : Json) : Option Nat :=
  (document.whole? 0 high).map Int.toNat

/-- A number, as a binary one. -/
def binary? : Json → Option Binary64
  | .number (.whole i) => some (.ofInt i)
  | .number (.binary x) => some x
  | _ => none

/-- A value that may also be missing, which is written as null. -/
def nullable {α : Type} (read : Json → Option α) : Json → Option (Option α)
  | .null => some none
  | v => (read v).map some

/-- A list of values that are read one by one. -/
def listOf {α : Type} (read : Json → Option α) : Json → Option (List α)
  | .array items => items.mapM read
  | _ => none

end Json

end TraceWatch
