import TraceWatch.Yaml.Scalar.Plain
import TraceWatch.Yaml.Scalar.Block

/-!
# The words of a YAML stream

`Yaml.tokens?` cuts a stream into tokens. Indentation becomes tokens of its own, which open and
close blocks; the token that marks a key is put before it once the colon after it is seen.
-/

namespace TraceWatch.Yaml

/-- How a scalar is written. -/
inductive Style where
  | plain
  | singleQuoted
  | doubleQuoted
  | literal
  | folded
deriving DecidableEq, Repr

/-- A word of a stream. -/
inductive Token where
  | versionDirective (major minor : Nat)
  | tagDirective (handle meaning : List Char)
  | documentStart
  | documentEnd
  | openBlockSequence
  | openBlockMapping
  | closeBlock
  | openFlowSequence
  | closeFlowSequence
  | openFlowMapping
  | closeFlowMapping
  /-- The dash before an item of a block sequence. -/
  | item
  /-- A comma between brackets. -/
  | comma
  /-- What comes next is a key. -/
  | key
  /-- The colon before a value. -/
  | value
  | alias (name : List Char)
  | anchor (name : List Char)
  | tag (handle suffix : List Char)
  | scalar (style : Style) (text : List Char)
deriving DecidableEq, Repr

namespace Lexer

/-- A place where a key may have started. -/
structure KeyStart where
  /-- Whether what starts here has to be a key, because it starts a line of a block mapping. -/
  required : Bool
  /-- The number of tokens before it. -/
  tokenIndex : Nat
  place : Cursor

/-- A level of brackets, or the stream itself: where a key may have started at this level. -/
abbrev Level := Option KeyStart

/-- The lexer's state. -/
structure State where
  cursor : Cursor
  /-- The tokens found, back to front. -/
  found : List Token
  /-- The columns of the open blocks, innermost first. -/
  blocks : List Nat
  /-- Whether a key may start at the place reached. -/
  keyAllowed : Bool
  /-- The levels of brackets, innermost first. The stream itself is the last. -/
  levels : List Level

/-- Whether the place reached is inside brackets. -/
def State.inFlow (s : State) : Bool := 1 < s.levels.length

/-- The least column that a line has to reach to belong to the innermost block. -/
def State.leastColumn (s : State) : Nat :=
  match s.blocks with
  | [] => 0
  | column :: _ => column + 1

/-- The state with one more token. -/
def State.emit (s : State) (token : Token) : State := { s with found := token :: s.found }

/-- The state with a token put after the first `index` tokens. -/
def State.insert (s : State) (index : Nat) (token : Token) : State :=
  { s with found := s.found.insertIdx (s.found.length - index) token }

/-- The state at the place after `count` more characters. -/
def State.skip (s : State) (count : Nat) : State := { s with cursor := s.cursor.skip count }

/-- Gives up the key that may have started at the innermost level. It must not be required. -/
def State.dropKey? (s : State) : Option State :=
  match s.levels with
  | some start :: outer => if start.required then none else some { s with levels := none :: outer }
  | _ => some s

/-- Notes that a key may start here. -/
def State.noteKey? (s : State) : Option State :=
  if !s.keyAllowed then some s
  else s.dropKey?.map fun s =>
    let required := !s.inFlow && s.blocks.head? = some s.cursor.column
    { s with levels := some ⟨required, s.found.length, s.cursor⟩ :: s.levels.drop 1 }

/-- A key stands on one line and is at most this many characters long. -/
def maxKeyLength : Nat := 1024

/-- Gives up every key that can no longer be one at the place reached. None of them may be
required. -/
def State.dropStaleKeys? (s : State) : Option State :=
  let fresh (level : Level) : Option Level :=
    match level with
    | none => some none
    | some start =>
      if start.place.line < s.cursor.line ∨ start.place.index + maxKeyLength < s.cursor.index then
        if start.required then none else some none
      else some (some start)
  (s.levels.mapM fresh).map fun levels => { s with levels := levels }

/-- The columns of the blocks that stay open at a column, and how many are closed. -/
def closeBlocks (column : Option Nat) : List Nat → List Nat × Nat
  | [] => ([], 0)
  | block :: outer =>
    if column.all (· < block) then
      let (left, closed) := closeBlocks column outer
      (left, closed + 1)
    else (block :: outer, 0)

/-- Closes the blocks that reach further than the column; all of them if there is none. -/
def State.closeBlocks (s : State) (column : Option Nat) : State :=
  if s.inFlow then s else
    let (left, closed) := Lexer.closeBlocks column s.blocks
    { s with blocks := left, found := List.replicate closed .closeBlock ++ s.found }

/-- Opens a block at a column, unless one is open there. `index` is the number of tokens before
the block. -/
def State.openBlock (s : State) (column index : Nat) (token : Token) : State :=
  if s.inFlow ∨ column < s.leastColumn then s
  else { s.insert index token with blocks := column :: s.blocks }

/-- Opens a block at the place reached, unless one is open there. -/
def State.openBlockHere (s : State) (token : Token) : State :=
  s.openBlock s.cursor.column s.found.length token

/-- Passes spacing and comments. A tab counts as spacing only where no key may start. -/
def State.skipSpacing : Nat → State → State
  | 0, s => s
  | fuel + 1, s =>
    let cursor := if s.cursor.column = 0 && s.cursor.rest.head? = some byteOrderMark
      then s.cursor.skip 1 else s.cursor
    let cursor := cursor.skipWhile fun c =>
      c = ' ' || (c = '\t' && (s.inFlow || !s.keyAllowed))
    let cursor := cursor.skipComment
    match cursor.rest with
    | [] => { s with cursor := cursor }
    | c :: _ =>
      if isBreak c then
        State.skipSpacing fuel
          { s with cursor := cursor.skip 1, keyAllowed := s.keyAllowed || !s.inFlow }
      else { s with cursor := cursor }

/-! ## Directives, anchors and tags -/

/-- The number of a version, which has at most nine digits. -/
def versionNumber? (rest : List Char) : Option (Nat × List Char) :=
  let digits := rest.takeWhile Char.isDigit
  if digits.isEmpty ∨ 9 < digits.length then none
  else some (digits.foldl (fun n c => n * 10 + (c.toNat - '0'.toNat)) 0,
    rest.dropWhile Char.isDigit)

/-- The version that a version directive names. -/
def version? (rest : List Char) : Option (Token × List Char) :=
  match versionNumber? (rest.dropWhile isBlank) with
  | some (major, '.' :: rest) =>
    (versionNumber? rest).map fun (minor, rest) => (.versionDirective major minor, rest)
  | _ => none

/-- Whether a character can stand in a tag. -/
def isTagChar (verbatim : Bool) (c : Char) : Bool :=
  isNameChar c || c = ';' || c = '/' || c = '?' || c = ':' || c = '@' || c = '&' || c = '='
    || c = '+' || c = '$' || c = '.' || c = '!' || c = '~' || c = '*' || c = '\'' || c = '('
    || c = ')' || (verbatim && (c = ',' || c = '[' || c = ']'))

/-- How many octets an encoded character has whose first octet is given. -/
def octetCount? (octet : Nat) : Option Nat :=
  if octet < 0x80 then some 1
  else if 0xC0 ≤ octet ∧ octet < 0xE0 then some 2
  else if 0xE0 ≤ octet ∧ octet < 0xF0 then some 3
  else if 0xF0 ≤ octet ∧ octet < 0xF8 then some 4
  else none

/-- Reads the characters of a tag. An escape stands for an octet, and the octets of a character
follow each other: `due` of them are still to come. An octet is kept as the character of its
number. -/
def tagText? (verbatim : Bool) (seen : List Char) (due : Nat) :
    List Char → Option (List Char × List Char)
  | '%' :: a :: b :: rest =>
    match Text.hexNumber? [a, b] with
    | none => none
    | some octet =>
      if due = 0 then
        match octetCount? octet with
        | none => none
        | some count => tagText? verbatim (Char.ofNat octet :: seen) (count - 1) rest
      else if 0x80 ≤ octet ∧ octet < 0xC0 then
        tagText? verbatim (Char.ofNat octet :: seen) (due - 1) rest
      else none
  | [] => if due = 0 then some (seen.reverse, []) else none
  | c :: rest =>
    if due ≠ 0 ∨ c = '%' then none
    else if isTagChar verbatim c then tagText? verbatim (c :: seen) 0 rest
    else some (seen.reverse, c :: rest)

/-- Reads the handle of a tag, from its first `!` to the second one if there is one. -/
def tagHandle? : List Char → Option (List Char × List Char)
  | '!' :: rest =>
    let name := rest.takeWhile isNameChar
    match rest.dropWhile isNameChar with
    | '!' :: rest => some ('!' :: name ++ ['!'], rest)
    | rest => some ('!' :: name, rest)
  | _ => none

/-- Reads a tag that starts here. -/
def tag? (rest : List Char) : Option (Token × List Char) :=
  match rest with
  | '!' :: '<' :: rest =>
    match tagText? true [] 0 rest with
    | some (text, '>' :: rest) => if text.isEmpty then none else some (.tag [] text, rest)
    | _ => none
  | _ =>
    match tagHandle? rest with
    | none => none
    | some (handle, rest) =>
      if 1 < handle.length && handle.getLast? = some '!' then
        match tagText? false [] 0 rest with
        | some (text, rest) => if text.isEmpty then none else some (.tag handle text, rest)
        | none => none
      else
        match tagText? false (handle.drop 1).reverse 0 rest with
        | some ([], rest) => some (.tag [] ['!'], rest)
        | some (text, rest) => some (.tag ['!'] text, rest)
        | none => none

/-- The handle and the meaning that a tag directive names. -/
def tagMeaning? (rest : List Char) : Option (Token × List Char) :=
  match tagHandle? (rest.dropWhile isBlank) with
  | some (handle, c :: rest) =>
    if !isBlank c ∨ handle.getLast? ≠ some '!' then none
    else match tagText? true [] 0 (rest.dropWhile isBlank) with
      | some (text, rest) =>
        if text.isEmpty ∨ !atSpacing rest then none else some (.tagDirective handle text, rest)
      | none => none
  | _ => none

/-- Reads a directive that starts here, up to the end of what it says. -/
def directive? (rest : List Char) : Option (Token × List Char) :=
  let name := (rest.drop 1).takeWhile isNameChar
  let rest := (rest.drop 1).dropWhile isNameChar
  if !atSpacing rest then none
  else if name = "YAML".toList then version? rest
  else if name = "TAG".toList then tagMeaning? rest
  else none

/-- The name of an anchor or an alias, which its sign stands before. -/
def anchorName? (rest : List Char) : Option (List Char) :=
  let name := (rest.drop 1).takeWhile isNameChar
  match (rest.drop 1).dropWhile isNameChar with
  | [] => if name.isEmpty then none else some name
  | c :: _ =>
    if !name.isEmpty && (isSpacing c || c = '?' || c = ':' || c = ',' || c = ']' || c = '\x7d'
      || c = '%' || c = '@' || c = '\x60') then some name else none

/-! ## Tokens -/

/-- The border of a document. -/
def border (s : State) (token : Token) : Option State :=
  (s.closeBlocks none).dropKey?.map fun s =>
    { (s.skip 3).emit token with keyAllowed := false }

/-- A directive. -/
def directive (s : State) : Option State :=
  (s.closeBlocks none).dropKey?.bind fun s =>
    match directive? s.cursor.rest with
    | none => none
    | some (token, rest) =>
      (s.cursor.skipTo rest).skipLineEnd?.map fun cursor =>
        { s.emit token with cursor := cursor, keyAllowed := false }

/-- An opening bracket. -/
def openFlow (s : State) (token : Token) : Option State :=
  s.noteKey?.map fun s =>
    { (s.skip 1).emit token with keyAllowed := true, levels := none :: s.levels }

/-- A closing bracket. -/
def closeFlow (s : State) (token : Token) : Option State :=
  s.dropKey?.map fun s =>
    { (s.skip 1).emit token with
      keyAllowed := false
      levels := if s.inFlow then s.levels.drop 1 else s.levels }

/-- A comma. -/
def comma (s : State) : Option State :=
  s.dropKey?.map fun s => { (s.skip 1).emit .comma with keyAllowed := true }

/-- The dash before an item. -/
def item (s : State) : Option State :=
  if !s.inFlow && !s.keyAllowed then none
  else (s.openBlockHere .openBlockSequence).dropKey?.map fun s =>
    { (s.skip 1).emit .item with keyAllowed := true }

/-- The question mark before a key. -/
def explicitKey (s : State) : Option State :=
  if !s.inFlow && !s.keyAllowed then none
  else (s.openBlockHere .openBlockMapping).dropKey?.map fun s =>
    { (s.skip 1).emit .key with keyAllowed := !s.inFlow }

/-- The colon before a value. -/
def value (s : State) : Option State :=
  match s.levels with
  | some start :: outer =>
    let s := { s.insert start.tokenIndex .key with levels := none :: outer }
    let s := s.openBlock start.place.column start.tokenIndex .openBlockMapping
    some { (s.skip 1).emit .value with keyAllowed := false }
  | _ =>
    if !s.inFlow && !s.keyAllowed then none
    else
      let s := s.openBlockHere .openBlockMapping
      some { (s.skip 1).emit .value with keyAllowed := !s.inFlow }

/-- An anchor or an alias. -/
def anchored (s : State) (token : List Char → Token) : Option State :=
  s.noteKey?.bind fun s =>
    (anchorName? s.cursor.rest).map fun name =>
      { (s.skip (name.length + 1)).emit (token name) with keyAllowed := false }

/-- A tag. Spacing follows it, or a comma inside brackets. -/
def tagged (s : State) : Option State :=
  s.noteKey?.bind fun s =>
    match tag? s.cursor.rest with
    | none => none
    | some (token, rest) =>
      if atSpacing rest || (s.inFlow && rest.head? = some ',') then
        some { s.emit token with cursor := s.cursor.skipTo rest, keyAllowed := false }
      else none

/-- A block scalar. -/
def blockScalar (s : State) (literal : Bool) : Option State :=
  s.dropKey?.bind fun s =>
    match Block.head? literal (s.cursor.rest.drop 1) with
    | none => none
    | some (head, rest) =>
      (s.cursor.skipTo rest).skipLineEnd?.bind fun cursor =>
        (Block.read? head s.leastColumn cursor.rest).map fun (text, rest) =>
          { s.emit (.scalar (if literal then .literal else .folded) text) with
            cursor := cursor.skipTo rest, keyAllowed := true }

/-- A scalar in quotes. -/
def quotedScalar (s : State) (double : Bool) : Option State :=
  s.noteKey?.bind fun s =>
    (Quoted.read? double (s.cursor.rest.drop 1)).map fun (text, rest) =>
      { s.emit (.scalar (if double then .doubleQuoted else .singleQuoted) text) with
        cursor := s.cursor.skipTo rest, keyAllowed := false }

/-- A plain scalar. -/
def plainScalar (s : State) : Option State :=
  s.noteKey?.bind fun s =>
    (Plain.read? s.inFlow s.leastColumn s.cursor.rest).map fun reading =>
      { s.emit (.scalar .plain reading.text) with
        cursor := s.cursor.skipTo reading.rest, keyAllowed := reading.lineEnded }

/-- The characters that cannot start a plain scalar, or only before a character that is no
spacing. -/
def isIndicator (c : Char) : Bool :=
  c = '-' || c = '?' || c = ':' || c = ',' || c = '[' || c = ']' || c = '\x7b' || c = '\x7d'
    || c = '#' || c = '&' || c = '*' || c = '!' || c = '|' || c = '>' || c = '\'' || c = '"'
    || c = '%' || c = '@' || c = '\x60'

/-- Takes the token that starts with the character `c`, which `after` follows. -/
def take (s : State) (c : Char) (after : List Char) : Option State :=
  let atLineStart := s.cursor.column = 0
  let mark := s.inFlow || atSpacing after
  if atLineStart && c = '%' then directive s
  else if atLineStart && startsBorder (c :: after) then
    border s (if c = '-' then .documentStart else .documentEnd)
  else if c = '[' then openFlow s .openFlowSequence
  else if c = '\x7b' then openFlow s .openFlowMapping
  else if c = ']' then closeFlow s .closeFlowSequence
  else if c = '\x7d' then closeFlow s .closeFlowMapping
  else if c = ',' then comma s
  else if c = '-' && atSpacing after then item s
  else if c = '?' && mark then explicitKey s
  else if c = ':' && mark then value s
  else if c = '*' then anchored s .alias
  else if c = '&' then anchored s .anchor
  else if c = '!' then tagged s
  else if c = '|' && !s.inFlow then blockScalar s true
  else if c = '>' && !s.inFlow then blockScalar s false
  else if c = '\'' then quotedScalar s false
  else if c = '"' then quotedScalar s true
  else if !(isSpacing c || isIndicator c) || c = '-' || (!s.inFlow && (c = '?' || c = ':')) then
    plainScalar s
  else none

/-- The tokens found, once the stream has ended. -/
def finish (s : State) : Option (List Token) :=
  (s.closeBlocks none).dropKey?.map fun s => s.found.reverse

/-- Takes token after token. Each is made of at least one character, so that as many steps as
there are characters, and one more, are enough. -/
def run : Nat → State → Option (List Token)
  | 0, _ => none
  | fuel + 1, s =>
    let s := s.skipSpacing (s.cursor.rest.length + 1)
    match s.dropStaleKeys? with
    | none => none
    | some s =>
      let s := s.closeBlocks (some s.cursor.column)
      match s.cursor.rest with
      | [] => finish s
      | c :: after => (take s c after).bind (run fuel)

end Lexer

/-- The tokens of a stream. -/
def tokens? (text : String) : Option (List Token) :=
  (source? text).bind fun source =>
    Lexer.run (source.length + 1) ⟨.start source, [], [], true, [none]⟩

end TraceWatch.Yaml
