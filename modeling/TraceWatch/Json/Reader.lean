import TraceWatch.Json.Token

/-!
# Reading a document

`Json.parse?` reads a text as one document. The reader goes over the tokens once and keeps the
arrays and objects that are still open on a stack. `Json.parseWithin?` refuses more open ones than
it is told to allow, and `Json.parse?` more than `Json.maxDepth`.
-/

namespace TraceWatch.Json

/-- An array or object that is still open, its parts back to front. -/
inductive Frame where
  | array (items : List Json)
  | object (fields : List (String × Json))

/-- What may come next. -/
inductive Expecting where
  /-- A value. -/
  | value
  /-- A value or the end of an array just opened. -/
  | valueOrEnd
  /-- A key. -/
  | key
  /-- A key or the end of an object just opened. -/
  | keyOrEnd
  /-- The colon after a key. -/
  | colon (key : String)
  /-- The value of a key. -/
  | fieldValue (key : String)
  /-- A comma or the end of what is open. -/
  | commaOrEnd
  /-- Nothing: the document is complete. -/
  | nothing (document : Json)

/-- The reader's state. -/
structure Reader where
  stack : List Frame
  expecting : Expecting

/-- The state once a value is complete. -/
def Reader.deliver (stack : List Frame) (key : Option String) (v : Json) : Option Reader :=
  match stack, key with
  | [], none => some ⟨[], .nothing v⟩
  | .array items :: rest, none => some ⟨.array (v :: items) :: rest, .commaOrEnd⟩
  | .object fields :: rest, some k => some ⟨.object ((k, v) :: fields) :: rest, .commaOrEnd⟩
  | _, _ => none

/-- The state once an array or object has been opened, unless `depth` are open already. The key it
belongs to stays below it as a field whose value is not yet known. -/
def Reader.push (depth : Nat) (stack : List Frame) (key : Option String) (frame : Frame)
    (expecting : Expecting) : Option Reader :=
  if depth ≤ stack.length then none else
    match stack, key with
    | .object fields :: rest, some k =>
      some ⟨frame :: .object ((k, .null) :: fields) :: rest, expecting⟩
    | stack, _ => some ⟨frame :: stack, expecting⟩

/-- The state once what is open on top has been closed with the value `v`. -/
def Reader.close (below : List Frame) (v : Json) : Option Reader :=
  match below with
  | .object ((k, _) :: fields) :: rest => Reader.deliver (.object fields :: rest) (some k) v
  | below => Reader.deliver below none v

/-- A token where a value may stand. -/
def Reader.value (depth : Nat) (stack : List Frame) (key : Option String) :
    JsonToken → Option Reader
  | .scalar v => Reader.deliver stack key v
  | .string s => Reader.deliver stack key (.string s)
  | .openArray => Reader.push depth stack key (.array []) .valueOrEnd
  | .openObject => Reader.push depth stack key (.object []) .keyOrEnd
  | _ => none

/-- A token that closes what is open on top. -/
def Reader.endTop (stack : List Frame) (token : JsonToken) : Option Reader :=
  match stack, token with
  | .array items :: below, .closeArray => Reader.close below (.array items.reverse)
  | .object fields :: below, .closeObject => Reader.close below (.object fields.reverse)
  | _, _ => none

/-- Takes one token. -/
def Reader.step (depth : Nat) (reader : Reader) (token : JsonToken) : Option Reader :=
  let stack := reader.stack
  match reader.expecting, token with
  | .value, token => Reader.value depth stack none token
  | .valueOrEnd, .closeArray => Reader.endTop stack token
  | .valueOrEnd, token => Reader.value depth stack none token
  | .key, .string s => some ⟨stack, .colon s⟩
  | .keyOrEnd, .string s => some ⟨stack, .colon s⟩
  | .keyOrEnd, .closeObject => Reader.endTop stack token
  | .colon k, .colon => some ⟨stack, .fieldValue k⟩
  | .fieldValue k, token => Reader.value depth stack (some k) token
  | .commaOrEnd, .comma =>
    match stack with
    | .array _ :: _ => some ⟨stack, .value⟩
    | .object _ :: _ => some ⟨stack, .key⟩
    | [] => none
  | .commaOrEnd, token => Reader.endTop stack token
  | _, _ => none

/-- The document that a row of tokens makes up, with no more than `depth` arrays and objects open at
once. -/
def ofTokens? (depth : Nat) (tokens : List JsonToken) : Option Json :=
  (tokens.foldlM (Reader.step depth) ⟨[], .value⟩).bind fun reader =>
    match reader.expecting with
    | .nothing v => some v
    | _ => none

/-- Reads a text as one document, with no more than `depth` arrays and objects open at once. -/
def parseWithin? (depth : Nat) (text : String) : Option Json :=
  (tokens? text.toList).bind (ofTokens? depth)

/-- No more than this many arrays and objects may be open at once. -/
def maxDepth : Nat := 127

/-- Reads a text as one document. -/
def parse? (text : String) : Option Json := parseWithin? maxDepth text

end TraceWatch.Json
