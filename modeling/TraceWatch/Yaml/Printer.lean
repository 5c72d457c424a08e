import TraceWatch.Yaml.Text
import TraceWatch.Yaml.Word

/-!
# Writing a document

`Block.render` writes a tree of mappings whose leaves are texts and plain words. A text is
written plain if it reads back as the same text, else in single quotes if they can hold it, else
in double quotes; a text with line feeds is written as a literal block where that is possible.
-/

namespace TraceWatch.Yaml

/-- What a document to be written is made of. -/
inductive Block where
  /-- A number or a truth value. -/
  | word (text : String)
  /-- A text. -/
  | text (text : String)
  | mapping (entries : List (String × Block))

namespace Block

/-- Whether a character can be written as it is. -/
def isPrintable (c : Char) : Bool :=
  let n := c.toNat
  n = 0x0A || (0x20 ≤ n && n ≤ 0x7E) || (0xA0 ≤ n && n ≤ 0xD7FF)
    || (0xE000 ≤ n && n ≤ 0xFFFD && n != 0xFEFF) || 0x10000 ≤ n

/-- A character that never starts a plain text. -/
def isStartIndicator (c : Char) : Bool :=
  c = '#' || c = ',' || c = '[' || c = ']' || c = '\x7b' || c = '\x7d' || c = '&' || c = '*'
    || c = '!' || c = '|' || c = '>' || c = '\'' || c = '"' || c = '%' || c = '@' || c = '\x60'

/-- Spacing, the end of a text or the character with the number zero. -/
def endsWord : List Char → Bool
  | '\x00' :: _ => true
  | rest => atSpacing rest

/-- Whether an indicator stands at the start of a text. -/
def hasStartIndicator : List Char → Bool
  | [] => false
  | c :: rest =>
    isStartIndicator c || ((c = '-' || c = '?' || c = ':') && endsWord rest)

/-- Whether an indicator stands after the start of a text. `spaced` tells whether a space was
passed last. -/
def hasInnerIndicator (spaced : Bool) : List Char → Bool
  | [] => false
  | c :: rest =>
    (c = ':' && endsWord rest) || (c = '#' && spaced)
      || hasInnerIndicator (endsWord [c]) rest

/-- Whether a text starts like the border of a document. -/
def hasBorder : List Char → Bool
  | '-' :: '-' :: '-' :: _ => true
  | '.' :: '.' :: '.' :: _ => true
  | _ => false

/-- Whether a text holds a character of the first kind with one of the second kind after it. -/
def hasPair (first second : Char → Bool) : List Char → Bool
  | a :: b :: rest => (first a && second b) || hasPair first second (b :: rest)
  | _ => false

/-- Whether a space stands before a line break, or a character has to be escaped. -/
def needsEscapes (text : List Char) : Bool :=
  hasPair (· = ' ') isBreak text || text.any fun c => !isPrintable c

/-- Whether a text can be written plain. -/
def allowsPlain (text : List Char) : Bool :=
  let inner := match text with
    | [] => false
    | c :: rest => hasInnerIndicator (endsWord [c]) rest
  !(needsEscapes text || text.any isBreak || text.head? = some ' ' || text.getLast? = some ' '
    || hasBorder text || hasStartIndicator text || inner)

/-- Whether a text can be written in single quotes. -/
def allowsSingleQuotes (text : List Char) : Bool :=
  !(needsEscapes text || hasPair isBreak (· = ' ') text)

/-- Whether a text can be written as a literal block. -/
def allowsLiteral (text : List Char) : Bool :=
  !(needsEscapes text || text.isEmpty || text.getLast? = some ' ')

/-- How a text is written. -/
inductive Spelling where
  | plain
  | singleQuotes
  | doubleQuotes
  | literal

/-- The spelling of a text. -/
def spelling (text : String) : Spelling :=
  let chars := text.toList
  if chars.contains '\n' then (if allowsLiteral chars then .literal else .doubleQuotes)
  else if !Word.isSpecial text && allowsPlain chars then .plain
  else if allowsSingleQuotes chars then .singleQuotes
  else .doubleQuotes

/-- The spaces that indent a line. -/
def spaces (indent : Nat) : List Char := List.replicate indent ' '

/-- The text between single quotes. A line separator is followed by the indentation of the next
line. -/
def singleQuoted (indent : Nat) (pending : Bool) : List Char → List Char
  | [] => if pending then spaces indent else []
  | c :: rest =>
    if isBreak c then c :: singleQuoted indent true rest
    else
      (if pending then spaces indent else []) ++ (if c = '\'' then ['\'', '\''] else [c])
        ++ singleQuoted indent false rest

/-- The escape with a letter of its own, or with the number of a character. -/
def escape (c : Char) : List Char :=
  let digits (count : Nat) : List Char :=
    (List.range count).map fun i => Text.upperHexDigit (c.toNat / Nat.pow 16 (count - 1 - i))
  match c with
  | '\x00' => ['0']
  | '\x07' => ['a']
  | '\x08' => ['b']
  | '\t' => ['t']
  | '\n' => ['n']
  | '\x0b' => ['v']
  | '\x0c' => ['f']
  | '\r' => ['r']
  | '\x1b' => ['e']
  | '"' => ['"']
  | '\\' => ['\\']
  | '\u0085' => ['N']
  | '\u2028' => ['L']
  | '\u2029' => ['P']
  | c =>
    if c.toNat ≤ 0xFF then 'x' :: digits 2
    else if c.toNat ≤ 0xFFFF then 'u' :: digits 4
    else 'U' :: digits 8

/-- The text between double quotes. -/
def doubleQuoted (text : List Char) : List Char :=
  text.flatMap fun c =>
    if !isPrintable c || isBreak c || c = '"' || c = '\\' then '\\' :: escape c else [c]

/-- The signs after the mark of a literal block: its indentation if it starts with spacing, and
which line breaks at its end count. -/
def literalSigns (text : List Char) : List Char :=
  let indentation := match text with
    | c :: _ => if c = ' ' || isBreak c then ['2'] else []
    | [] => []
  let chomping := match text.reverse with
    | [] => ['-']
    | [c] => if isBreak c then ['+'] else ['-']
    | c :: d :: _ => if !isBreak c then ['-'] else if isBreak d then ['+'] else []
  indentation ++ chomping

/-- The lines of a literal block. `lineStart` tells whether a line starts here. -/
def literalLines (indent : Nat) (lineStart : Bool) : List Char → List Char
  | [] => []
  | c :: rest =>
    if isBreak c then c :: literalLines indent true rest
    else (if lineStart then spaces indent else []) ++ c :: literalLines indent false rest

/-- A text after its key, up to the end of its last line. -/
def renderText (indent : Nat) (text : String) : List Char :=
  let chars := text.toList
  match spelling text with
  | .plain => chars ++ ['\n']
  | .singleQuotes => '\'' :: singleQuoted indent false chars ++ ['\'', '\n']
  | .doubleQuotes => '"' :: doubleQuoted chars ++ ['"', '\n']
  | .literal =>
    '|' :: literalSigns chars ++ '\n' :: literalLines indent true chars
      ++ (if (chars.getLast?).any isBreak then [] else ['\n'])

mutual

/-- What follows the colon after a key whose line is indented by `indent`. -/
def renderValue (indent : Nat) : Block → List Char
  | .word w => ' ' :: w.toList ++ ['\n']
  | .text s => ' ' :: renderText (indent + 2) s
  | .mapping entries =>
    match entries with
    | [] => [' ', '\x7b', '\x7d', '\n']
    | _ => '\n' :: renderEntries (indent + 2) entries

/-- The entries of a mapping, a line or more for each. -/
def renderEntries (indent : Nat) : List (String × Block) → List Char
  | [] => []
  | (key, value) :: rest =>
    spaces indent ++ key.toList ++ ':' :: renderValue indent value ++ renderEntries indent rest

end

/-- The text of a document with the given entries. -/
def render (entries : List (String × Block)) : String := String.ofList (renderEntries 0 entries)

end Block

end TraceWatch.Yaml
