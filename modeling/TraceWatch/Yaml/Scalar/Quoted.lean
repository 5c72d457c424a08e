import TraceWatch.Yaml.Text
import TraceWatch.Text.Hexadecimal

/-!
# Scalars in quotes

A scalar in single or double quotes may run over several lines: a single line break between two
words reads as a space, and of several the first is dropped. `Quoted.read?` starts after the
opening quote and answers the text and what follows the closing one.
-/

namespace TraceWatch.Yaml

/-- The spacing passed since the last word of a scalar, back to front. -/
inductive Gap where
  /-- Blanks within a line. -/
  | blanks (seen : List Char)
  /-- Line breaks: the first one, unless it was escaped, and those after it. -/
  | lines (first : Option Char) (more : List Char)

namespace Gap

/-- No spacing. -/
def empty : Gap := .blanks []

/-- Whether a line break is in it. -/
def hasBreak : Gap → Bool
  | .blanks _ => false
  | .lines _ _ => true

/-- The spacing with one more character. Blanks around line breaks do not count. -/
def push (gap : Gap) (c : Char) : Gap :=
  match gap with
  | .blanks seen => if isBreak c then .lines (some c) [] else .blanks (c :: seen)
  | .lines first more => if isBreak c then .lines first (c :: more) else .lines first more

/-- What the spacing reads as, back to front. -/
def folded : Gap → List Char
  | .blanks seen => seen
  | .lines (some '\n') [] => [' ']
  | .lines (some '\n') more => more
  | .lines (some c) more => more ++ [c]
  | .lines none more => more

end Gap

namespace Quoted

/-- The character of a one-letter escape. -/
def escaped? : Char → Option Char
  | '0' => some '\x00'
  | 'a' => some '\x07'
  | 'b' => some '\x08'
  | 't' => some '\t'
  | '\t' => some '\t'
  | 'n' => some '\n'
  | 'v' => some '\x0b'
  | 'f' => some '\x0c'
  | 'r' => some '\r'
  | 'e' => some '\x1b'
  | ' ' => some ' '
  | '"' => some '"'
  | '/' => some '/'
  | '\\' => some '\\'
  | 'N' => some '\u0085'
  | '_' => some '\u00a0'
  | 'L' => some '\u2028'
  | 'P' => some '\u2029'
  | _ => none

/-- How many hexadecimal digits follow an escape's letter. -/
def digitCount? : Char → Option Nat
  | 'x' => some 2
  | 'u' => some 4
  | 'U' => some 8
  | _ => none

/-- What a scalar in quotes is in the middle of. -/
inductive Mode where
  /-- Text and spacing. `lineStart` tells whether a line has just begun. -/
  | text (gap : Gap) (lineStart : Bool)
  /-- After a quote in single quotes: a second one stands for a quote. -/
  | quote
  /-- After a backslash. -/
  | backslash
  /-- In the digits of an escape: how many are to come, and their value so far. -/
  | digits (left value : Nat)

/-- Reads on in a scalar. `seen` is its text so far, back to front; `double` tells which quotes
it stands in. -/
def readFrom? (double : Bool) (seen : List Char) (mode : Mode) (rest : List Char) :
    Option (List Char × List Char) :=
  match rest with
  | [] => match mode with
    | .quote => some (seen.reverse, [])
    | _ => none
  | c :: rest' =>
    match mode with
    | .text gap lineStart =>
      if isSpacing c then readFrom? double seen (.text (gap.push c) (isBreak c)) rest'
      else
        let seen := gap.folded ++ seen
        if lineStart && startsBorder rest then none
        else if double then
          if c = '"' then some (seen.reverse, rest')
          else if c = '\\' then readFrom? double seen .backslash rest'
          else readFrom? double (c :: seen) (.text .empty false) rest'
        else if c = '\'' then readFrom? double seen .quote rest'
        else readFrom? double (c :: seen) (.text .empty false) rest'
    | .quote =>
      if c = '\'' then readFrom? double ('\'' :: seen) (.text .empty false) rest'
      else some (seen.reverse, rest)
    | .backslash =>
      if isBreak c then readFrom? double seen (.text (.lines none []) true) rest'
      else match digitCount? c with
        | some count => readFrom? double seen (.digits count 0) rest'
        | none => match escaped? c with
          | some e => readFrom? double (e :: seen) (.text .empty false) rest'
          | none => none
    | .digits left value =>
      match Text.hexValue? c with
      | none => none
      | some digit =>
        let value := value * 16 + digit
        if left = 1 then
          if value.isValidChar then
            readFrom? double (Char.ofNat value :: seen) (.text .empty false) rest'
          else none
        else readFrom? double seen (.digits (left - 1) value) rest'

/-- The text of a scalar in quotes, from what follows the opening quote, and what follows the
closing one. -/
def read? (double : Bool) (rest : List Char) : Option (List Char × List Char) :=
  readFrom? double [] (.text .empty false) rest

end Quoted

end TraceWatch.Yaml
