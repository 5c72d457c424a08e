import TraceWatch.Yaml.Token

/-!
# The nodes of a YAML document

A stream holds one document, and a document is a tree of scalars, sequences and mappings.
`Yaml.Document.parse?` reads it. A node may carry an anchor, and an alias stands for the node
that the anchor's number refers to.
-/

namespace TraceWatch.Yaml

/-- A node of a document. -/
inductive Node where
  | scalar (tag : Option (List Char)) (style : Style) (text : List Char)
  | sequence (items : List Node)
  | mapping (entries : List (Node × Node))
  | alias (number : Nat)
deriving Repr

/-- A node with no text. -/
def Node.empty : Node := .scalar none .plain []

/-- The anchors of a document. An anchor's number is the number of different names before it, so
that a name used a second time takes the number of the next new name. -/
structure Anchors where
  /-- The names seen, each with its latest number. -/
  names : List (List Char × Nat)
  /-- The number of anchors seen. -/
  count : Nat
  /-- The nodes read, each with its number and its place among the anchors. -/
  nodes : List (Nat × Nat × Node)

namespace Anchors

/-- No anchors. -/
def none : Anchors := ⟨[], 0, []⟩

/-- The latest number of a name. -/
def number? (anchors : Anchors) (name : List Char) : Option Nat :=
  (anchors.names.find? (·.1 = name)).map Prod.snd

/-- Notes that an anchor stands before a node. -/
def note (anchors : Anchors) (name : List Char) : Anchors :=
  let number := anchors.names.length
  { anchors with
    names := (name, number) :: anchors.names.filter (·.1 ≠ name)
    count := anchors.count + 1 }

/-- Adds the node that the anchor at a place stands before. -/
def add (anchors : Anchors) (number place : Nat) (node : Node) : Anchors :=
  { anchors with nodes := (number, place, node) :: anchors.nodes }

/-- The node of a number: the one whose anchor comes last. -/
def node? (anchors : Anchors) (number : Nat) : Option Node :=
  let known := anchors.nodes.filter (·.1 = number)
  let last := known.foldl (fun best (_, place, _) => max best place) 0
  (known.find? (·.2.1 = last)).map (·.2.2)

end Anchors

/-- A document. -/
structure Document where
  root : Node
  anchors : Anchors

namespace Reader

/-- The tokens left and the anchors seen. -/
structure State where
  tokens : List Token
  anchors : Anchors

/-- What the handles of tags stand for. -/
abbrev Handles := List (List Char × List Char)

/-- The handles that every document knows. -/
def knownHandles : Handles := [(['!'], ['!']), (['!', '!'], "tag:yaml.org,2002:".toList)]

/-- The full tag. -/
def resolve? (handles : Handles) (handle suffix : List Char) : Option (List Char) :=
  if handle.isEmpty then some suffix
  else (handles.find? (·.1 = handle)).map fun (_, meaning) => meaning ++ suffix

/-- What stands before a node: its anchor and its tag, in either order. -/
structure Properties where
  anchor : Option (List Char)
  tag : Option (List Char × List Char)

/-- Reads what stands before a node. -/
def properties : List Token → Properties × List Token
  | .anchor name :: .tag handle suffix :: rest => (⟨some name, some (handle, suffix)⟩, rest)
  | .tag handle suffix :: .anchor name :: rest => (⟨some name, some (handle, suffix)⟩, rest)
  | .anchor name :: rest => (⟨some name, none⟩, rest)
  | .tag handle suffix :: rest => (⟨none, some (handle, suffix)⟩, rest)
  | tokens => (⟨none, none⟩, tokens)

/-- The node of a scalar. The tag `!` says no more than that it is one. -/
def scalarNode (tag : Option (List Char)) (style : Style) (text : List Char) : Node :=
  .scalar (if tag = some ['!'] then none else tag) style text

/-- What may stand where a node may, and where it starts. -/
structure Place where
  /-- Whether blocks may start here. -/
  block : Bool
  /-- Whether a block sequence may start here without further indentation. -/
  indentless : Bool

/-- A place between brackets. -/
def Place.flow : Place := ⟨false, false⟩

/-- A place in a block. -/
def Place.item : Place := ⟨true, false⟩

/-- A place in a block mapping. -/
def Place.entry : Place := ⟨true, true⟩

/-- Whether the next token is one of those that stand where a node has been left out. -/
def leftOut (tokens : List Token) (ends : Token → Bool) : Bool := tokens.head?.any ends

/-- The tokens that end a part of a block mapping. -/
def endsEntry (token : Token) : Bool :=
  token = .key || token = .value || token = .closeBlock

/-- The tokens that end an item of a block sequence. -/
def endsItem (token : Token) : Bool := token = .item || token = .closeBlock

/-- The tokens that end an item of a block sequence without indentation of its own. -/
def endsIndentless (token : Token) : Bool := token = .item || endsEntry token

/-- The tokens that end an entry between braces. -/
def endsFlowEntry (token : Token) : Bool := token = .comma || token = .closeFlowMapping

/-- The tokens that end an item between square brackets. -/
def endsFlowItem (token : Token) : Bool := token = .comma || token = .closeFlowSequence

mutual

/-- Reads a node. -/
def node? (handles : Handles) : Nat → Place → State → Option (Node × State)
  | 0, _, _ => none
  | fuel + 1, place, s =>
    match s.tokens with
    | .alias name :: rest =>
      (s.anchors.number? name).map fun number => (.alias number, ⟨rest, s.anchors⟩)
    | tokens =>
      let (found, rest) := properties tokens
      let tag := found.tag.bind fun (handle, suffix) => resolve? handles handle suffix
      if found.tag.isSome && tag.isNone then none else
        let number := s.anchors.names.length
        let placeOf := s.anchors.count
        let anchors := match found.anchor with
          | some name => s.anchors.note name
          | none => s.anchors
        let content := content? handles fuel place tag
          (found.anchor.isSome || found.tag.isSome) ⟨rest, anchors⟩
        content.map fun (node, s) =>
          if found.anchor.isSome then (node, ⟨s.tokens, s.anchors.add number placeOf node⟩)
          else (node, s)

/-- Reads a node after what stands before it. A node may be left out after an anchor or a tag. -/
def content? (handles : Handles) : Nat → Place → Option (List Char) → Bool → State →
    Option (Node × State)
  | 0, _, _, _, _ => none
  | fuel + 1, place, tag, described, s =>
    match s.tokens with
    | .scalar style text :: rest => some (scalarNode tag style text, ⟨rest, s.anchors⟩)
    | .openFlowSequence :: rest =>
      (flowItems? handles fuel true ⟨rest, s.anchors⟩).map fun (items, s) => (.sequence items, s)
    | .openFlowMapping :: rest =>
      (flowEntries? handles fuel true ⟨rest, s.anchors⟩).map fun (entries, s) =>
        (.mapping entries, s)
    | tokens =>
      match tokens, place with
      | .item :: _, ⟨_, true⟩ =>
        (indentlessItems? handles fuel s).map fun (items, s) => (.sequence items, s)
      | .openBlockSequence :: rest, ⟨true, _⟩ =>
        (items? handles fuel ⟨rest, s.anchors⟩).map fun (items, s) => (.sequence items, s)
      | .openBlockMapping :: rest, ⟨true, _⟩ =>
        (entries? handles fuel ⟨rest, s.anchors⟩).map fun (entries, s) => (.mapping entries, s)
      | _, _ => if described then some (.scalar tag .plain [], s) else none

/-- Reads a node, unless it has been left out. -/
def optional? (handles : Handles) : Nat → Place → (Token → Bool) → State → Option (Node × State)
  | 0, _, _, _ => none
  | fuel + 1, place, ends, s =>
    if leftOut s.tokens ends then some (.empty, s) else node? handles fuel place s

/-- Reads the items of a block sequence up to its end. -/
def items? (handles : Handles) : Nat → State → Option (List Node × State)
  | 0, _ => none
  | fuel + 1, s =>
    match s.tokens with
    | .item :: rest =>
      (optional? handles fuel .item endsItem ⟨rest, s.anchors⟩).bind fun (node, s) =>
        (items? handles fuel s).map fun (items, s) => (node :: items, s)
    | .closeBlock :: rest => some ([], ⟨rest, s.anchors⟩)
    | _ => none

/-- Reads the items of a block sequence without indentation of its own. -/
def indentlessItems? (handles : Handles) : Nat → State → Option (List Node × State)
  | 0, _ => none
  | fuel + 1, s =>
    match s.tokens with
    | .item :: rest =>
      (optional? handles fuel .item endsIndentless ⟨rest, s.anchors⟩).bind fun (node, s) =>
        (indentlessItems? handles fuel s).map fun (items, s) => (node :: items, s)
    | _ => some ([], s)

/-- Reads the entries of a block mapping up to its end. -/
def entries? (handles : Handles) : Nat → State → Option (List (Node × Node) × State)
  | 0, _ => none
  | fuel + 1, s =>
    match s.tokens with
    | .key :: rest =>
      (optional? handles fuel .entry endsEntry ⟨rest, s.anchors⟩).bind fun (key, s) =>
        (value? handles fuel .entry endsEntry s).bind fun (value, s) =>
          (entries? handles fuel s).map fun (entries, s) => ((key, value) :: entries, s)
    | .closeBlock :: rest => some ([], ⟨rest, s.anchors⟩)
    | _ => none

/-- Reads the value of a key, which may be left out together with its colon. -/
def value? (handles : Handles) : Nat → Place → (Token → Bool) → State → Option (Node × State)
  | 0, _, _, _ => none
  | fuel + 1, place, ends, s =>
    match s.tokens with
    | .value :: rest => optional? handles fuel place ends ⟨rest, s.anchors⟩
    | _ => some (.empty, s)

/-- Reads the items between square brackets. An item may be a single entry of a mapping. -/
def flowItems? (handles : Handles) : Nat → Bool → State → Option (List Node × State)
  | 0, _, _ => none
  | fuel + 1, first, s =>
    match s.tokens, first with
    | .closeFlowSequence :: rest, _ => some ([], ⟨rest, s.anchors⟩)
    | .comma :: rest, false => flowItem? handles fuel ⟨rest, s.anchors⟩
    | _, true => flowItem? handles fuel s
    | _, false => none

/-- Reads an item between square brackets and those after it. -/
def flowItem? (handles : Handles) : Nat → State → Option (List Node × State)
  | 0, _ => none
  | fuel + 1, s =>
    match s.tokens with
    | .closeFlowSequence :: rest => some ([], ⟨rest, s.anchors⟩)
    | .key :: rest =>
      let key := if leftOut rest fun token => token = .value || endsFlowItem token
        then some (.empty, ⟨rest.drop 1, s.anchors⟩)
        else node? handles fuel .flow ⟨rest, s.anchors⟩
      key.bind fun (key, s) =>
        (value? handles fuel .flow endsFlowItem s).bind fun (value, s) =>
          (flowItems? handles fuel false s).map fun (items, s) =>
            (.mapping [(key, value)] :: items, s)
    | _ =>
      (node? handles fuel .flow s).bind fun (node, s) =>
        (flowItems? handles fuel false s).map fun (items, s) => (node :: items, s)

/-- Reads the entries between braces. -/
def flowEntries? (handles : Handles) : Nat → Bool → State → Option (List (Node × Node) × State)
  | 0, _, _ => none
  | fuel + 1, first, s =>
    match s.tokens, first with
    | .closeFlowMapping :: rest, _ => some ([], ⟨rest, s.anchors⟩)
    | .comma :: rest, false => flowEntry? handles fuel ⟨rest, s.anchors⟩
    | _, true => flowEntry? handles fuel s
    | _, false => none

/-- Reads an entry between braces and those after it. A key without the mark of one has no
value. -/
def flowEntry? (handles : Handles) : Nat → State → Option (List (Node × Node) × State)
  | 0, _ => none
  | fuel + 1, s =>
    match s.tokens with
    | .closeFlowMapping :: rest => some ([], ⟨rest, s.anchors⟩)
    | .key :: rest =>
      let ends := fun token => token = .value || endsFlowEntry token
      (optional? handles fuel .flow ends ⟨rest, s.anchors⟩).bind fun (key, s) =>
        (value? handles fuel .flow endsFlowEntry s).bind fun (value, s) =>
          (flowEntries? handles fuel false s).map fun (entries, s) => ((key, value) :: entries, s)
    | _ =>
      (node? handles fuel .flow s).bind fun (key, s) =>
        (flowEntries? handles fuel false s).map fun (entries, s) => ((key, .empty) :: entries, s)

end

/-- Whether a version is one that can be read. -/
def isKnownVersion (major minor : Nat) : Bool := major = 1 && (minor = 1 || minor = 2)

/-- Reads the directives before a document: at most one version, and no handle twice. Answers
whether there were any. -/
def directives? (version : Bool) (handles : Handles) : List Token → Option (Handles × List Token)
  | .versionDirective major minor :: rest =>
    if version || !isKnownVersion major minor then none else directives? true handles rest
  | .tagDirective handle meaning :: rest =>
    if handles.any (·.1 = handle) then none
    else directives? version ((handle, meaning) :: handles) rest
  | tokens => some (handles, tokens)

/-- The root of a document whose tokens start here. -/
def root? (handles : Handles) (tokens : List Token) : Option (Node × State) :=
  node? (handles ++ knownHandles) (6 * tokens.length + 6) .item ⟨tokens, .none⟩

/-- The root of a document after its directives and the row of dashes, which has to be there if
directives are. Nothing but the border of a document may stand where the root has been left
out. -/
def explicitRoot? : List Token → Option (Node × State)
  | tokens =>
    match directives? false [] tokens with
    | some (handles, .documentStart :: rest) =>
      match rest with
      | [] => some (.empty, ⟨[], .none⟩)
      | token :: _ =>
        match token with
        | .versionDirective _ _ | .tagDirective _ _ | .documentStart | .documentEnd =>
          some (.empty, ⟨rest, .none⟩)
        | _ => root? handles rest
    | _ => none

/-- The root of the first document of a stream. An empty stream holds an empty document. -/
def document? (tokens : List Token) : Option (Node × State) :=
  match tokens with
  | [] => some (.empty, ⟨[], .none⟩)
  | .versionDirective _ _ :: _ | .tagDirective _ _ :: _ | .documentStart :: _ =>
    explicitRoot? tokens
  | _ => root? [] tokens

end Reader

namespace Document

/-- The document of a row of tokens. After it there are only ends of documents. -/
def ofTokens? (tokens : List Token) : Option Document :=
  (Reader.document? tokens).bind fun (root, s) =>
    if s.tokens.all (· = .documentEnd) then some ⟨root, s.anchors⟩ else none

/-- Reads a stream that holds one document. -/
def parse? (text : String) : Option Document := (tokens? text).bind ofTokens?

/-- The node that a node stands for. -/
def resolve? (document : Document) : Node → Option Node
  | .alias number => document.anchors.node? number
  | node => some node

end Document

end TraceWatch.Yaml
