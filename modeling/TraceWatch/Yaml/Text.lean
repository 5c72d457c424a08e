/-!
# The text of a YAML stream

The characters a stream may hold, those that separate its words and lines, and a cursor that
knows the line and the column it has reached. `Yaml.source?` spells the line breaks that mean
the same alike, so that every line break after it is one character.
-/

namespace TraceWatch.Yaml

/-- The characters that end a line, once `source?` has spelt them alike. -/
def isBreak (c : Char) : Bool := c = '\n' || c = '\u2028' || c = '\u2029'

/-- A space or a tab. -/
def isBlank (c : Char) : Bool := c = ' ' || c = '\t'

/-- A blank or a line break. -/
def isSpacing (c : Char) : Bool := isBlank c || isBreak c

/-- Whether what is left starts with spacing or has ended. -/
def atSpacing : List Char → Bool
  | [] => true
  | c :: _ => isSpacing c

/-- The characters of names: ASCII letters and digits, `-` and `_`. -/
def isNameChar (c : Char) : Bool := c.isAlphanum || c = '-' || c = '_'

/-- Whether a stream may hold the character. -/
def isAllowed (c : Char) : Bool :=
  let n := c.toNat
  n = 0x09 || n = 0x0A || n = 0x0D || (0x20 ≤ n && n ≤ 0x7E) || n = 0x85
    || (0xA0 ≤ n && n ≤ 0xD7FF) || (0xE000 ≤ n && n ≤ 0xFFFD) || 0x10000 ≤ n

/-- Writes CR LF, CR and NEL as a line feed. The separators U+2028 and U+2029 stay. -/
def unifyBreaks : List Char → List Char
  | [] => []
  | '\r' :: '\n' :: rest => '\n' :: unifyBreaks rest
  | c :: rest => (if c = '\r' || c = '\u0085' then '\n' else c) :: unifyBreaks rest

/-- The characters of a stream, if all of them are allowed. -/
def source? (text : String) : Option (List Char) :=
  if text.toList.all isAllowed then some (unifyBreaks text.toList) else none

/-- The mark that stands at the start of some texts, U+FEFF. -/
def byteOrderMark : Char := '\ufeff'

/-- Whether what is left starts with a row of three `-` or of three `.`, followed by spacing. At
the start of a line that is the border of a document. -/
def startsBorder : List Char → Bool
  | '-' :: '-' :: '-' :: rest => atSpacing rest
  | '.' :: '.' :: '.' :: rest => atSpacing rest
  | _ => false

/-- A place in a stream. -/
structure Cursor where
  /-- What is left. -/
  rest : List Char
  /-- The number of characters before this place. -/
  index : Nat
  line : Nat
  column : Nat

namespace Cursor

/-- The start of a stream. -/
def start (rest : List Char) : Cursor := ⟨rest, 0, 0, 0⟩

/-- The place after `count` more characters. -/
def skip (cursor : Cursor) : Nat → Cursor
  | 0 => cursor
  | count + 1 =>
    match cursor.rest with
    | [] => cursor
    | c :: rest =>
      if isBreak c then skip ⟨rest, cursor.index + 1, cursor.line + 1, 0⟩ count
      else skip ⟨rest, cursor.index + 1, cursor.line, cursor.column + 1⟩ count

/-- The place where `rest`, the end of what is left, starts. -/
def skipTo (cursor : Cursor) (rest : List Char) : Cursor :=
  cursor.skip (cursor.rest.length - rest.length)

/-- The place after the characters that satisfy `p`. -/
def skipWhile (cursor : Cursor) (p : Char → Bool) : Cursor :=
  cursor.skip (cursor.rest.takeWhile p).length

/-- The place after a comment, if one starts here. -/
def skipComment (cursor : Cursor) : Cursor :=
  match cursor.rest with
  | '#' :: _ => cursor.skipWhile fun c => !isBreak c
  | _ => cursor

/-- The place after the blanks, the comment and the line break that end a line, if nothing else
stands here. -/
def skipLineEnd? (cursor : Cursor) : Option Cursor :=
  let cursor := (cursor.skipWhile isBlank).skipComment
  match cursor.rest with
  | [] => some cursor
  | c :: _ => if isBreak c then some (cursor.skip 1) else none

end Cursor

end TraceWatch.Yaml
