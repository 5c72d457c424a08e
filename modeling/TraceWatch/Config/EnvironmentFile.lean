import TraceWatch.Config.Environment
import TraceWatch.Text.Blank
import TraceWatch.Text.Parts

/-!
# Files of environment variables

A file of environment variables holds statements `NAME=value`, one a line. A value in quotes may go
on over several lines, and outside single quotes `$` before a name stands for the value of that
variable. What is set already is not set again. Reading ends at the first statement that makes no
sense: those before it count.
-/

namespace TraceWatch.EnvironmentFile

/-! ## Statements -/

/-- Where a character of a file stands, as far as the end of its statement depends on it. -/
inductive Place where
  | plain
  /-- Right after a blank. Here a comment may start. -/
  | blank
  | escaped
  | double
  | doubleEscaped
  | single
  | singleEscaped
deriving DecidableEq, Repr

/-- Whether a blank is one within a line. -/
def isInlineBlank (c : Char) : Bool := Text.isBlankChar c && c ≠ '\n' && c ≠ '\r'

/-- The place after a character. -/
def Place.next (c : Char) : Place → Place
  | .escaped => .plain
  | .double => if c = '\\' then .doubleEscaped else if c = '"' then .plain else .double
  | .doubleEscaped => .double
  | .single => if c = '\\' then .singleEscaped else if c = '\'' then .plain else .single
  | .singleEscaped => .single
  | place =>
    if c = '\\' then .escaped
    else if c = '"' then .double
    else if c = '\'' then .single
    else if place = .plain ∧ isInlineBlank c then .blank
    else .plain

/-- A line up to a comment, and the place at its end unless it has a comment. -/
def untilComment (place : Place) : List Char → List Char × Option Place
  | [] => ([], some place)
  | c :: rest =>
    if place = .blank ∧ c = '#' then ([], none)
    else
      let (kept, last) := untilComment (place.next c) rest
      (c :: kept, last)

/-- The lines of a text, each with its line break. -/
def lines : List Char → List (List Char)
  | [] => []
  | '\n' :: rest => ['\n'] :: lines rest
  | c :: rest =>
    match lines rest with
    | [] => [[c]]
    | line :: others => (c :: line) :: others

/-- Whether a text is a comment. -/
def isComment (text : List Char) : Bool := (Text.trimStart text).head? = some '#'

/-- The statements in lines; one that lacks its end is missing. `begun` is what has been read of a
statement, up to `place`. -/
def statements (begun : List Char) (place : Place) : List (List Char) → List (Option (List Char))
  | [] => if place = .plain then [] else [none]
  | line :: rest =>
    if isComment (begun ++ line) then statements [] .plain rest
    else
      match untilComment place line with
      | (kept, none) => some (begun ++ kept) :: statements [] .plain rest
      | (_, some .plain) => some (begun ++ line) :: statements [] .plain rest
      | (_, some place) => statements (begun ++ line) place rest

/-! ## Values -/

/-- Whether a character belongs to the name of a variable that a value refers to: letters and
digits. Outside ASCII, whole blocks of symbols, marks and punctuation are told apart from
letters. -/
def isReferenceChar (c : Char) : Bool :=
  let n := c.toNat
  c.isAlphanum || n = 0xAA || n = 0xB2 || n = 0xB3 || n = 0xB5 || n = 0xB9 || n = 0xBA
    || (0xBC ≤ n && n ≤ 0xBE)
    || (0xC0 ≤ n && n ≠ 0xD7 && n ≠ 0xF7 && !(0x300 ≤ n && n ≤ 0x344)
      && !(0x2000 ≤ n && n ≤ 0x206F) && !(0x20A0 ≤ n && n ≤ 0x20FF) && !(0x2190 ≤ n && n ≤ 0x245F)
      && !(0x2500 ≤ n && n ≤ 0x2775) && !(0x2794 ≤ n && n ≤ 0x2BFF)
      && !(0x3000 ≤ n && n ≤ 0x3004) && !(0x3008 ≤ n && n ≤ 0x3020)
      && !(0xE000 ≤ n && n ≤ 0xF8FF) && !(0xFE00 ≤ n && n ≤ 0xFE6F)
      && !(0xFF01 ≤ n && n ≤ 0xFF0F) && !(0xFFE0 ≤ n && n ≤ 0xFFFF)
      && !(0x1F000 ≤ n && n ≤ 0x1F0FF) && !(0x1F300 ≤ n && n ≤ 0x1FAFF) && n < 0xE0000)

/-- What is being read of a value. -/
inductive Reading where
  | text
  | escape
  | single
  /-- A name after `$`, read so far back to front. -/
  | reference (name : List Char)
  /-- A name in braces, read so far back to front. -/
  | braced (name : List Char)
  /-- Blanks and a comment after the value. -/
  | after
deriving DecidableEq, Repr

/-- The character that an escape stands for. -/
def escape? (c : Char) : Option Char :=
  if c = 'n' then some '\n'
  else if ['\\', '\'', '"', '$', ' '].contains c then some c
  else none

/-- Reads a value on. `lookup` gives the values of variables, and `double` tells whether double
quotes are open. -/
def value? (lookup : List Char → List Char) (double : Bool) :
    Reading → List Char → Option (List Char)
  | .text, [] => if double then none else some []
  | .escape, [] => if double then none else some []
  | .reference name, [] => if double then none else some (lookup name.reverse)
  | .single, [] => none
  | .braced _, [] => none
  | .after, [] => some []
  | .text, c :: rest =>
    if c = '$' then value? lookup double (.reference []) rest
    else if c = '\\' then value? lookup double .escape rest
    else if c = '"' then value? lookup (!double) .text rest
    else if double then (value? lookup true .text rest).map (c :: ·)
    else if c = '\'' then value? lookup false .single rest
    else if c = ' ' ∨ c = '\t' then value? lookup false .after rest
    else (value? lookup false .text rest).map (c :: ·)
  | .escape, c :: rest =>
    match escape? c with
    | some c => (value? lookup double .text rest).map (c :: ·)
    | none => none
  | .single, c :: rest =>
    if c = '\'' then value? lookup false .text rest
    else (value? lookup false .single rest).map (c :: ·)
  | .reference name, c :: rest =>
    if isReferenceChar c then value? lookup double (.reference (c :: name)) rest
    else if c = '\x7b' ∧ name.isEmpty then value? lookup double (.braced []) rest
    else if c = '$' then
      (value? lookup double (.reference []) rest).map (lookup name.reverse ++ ·)
    else (value? lookup double .text rest).map (lookup name.reverse ++ c :: ·)
  | .braced name, c :: rest =>
    if c = '\x7d' then (value? lookup double .text rest).map (lookup name.reverse ++ ·)
    else value? lookup double (.braced (c :: name)) rest
  | .after, c :: rest =>
    if c = ' ' ∨ c = '\t' then value? lookup double .after rest
    else if c = '#' then some []
    else none

/-! ## Assignments -/

/-- Whether a character can stand in the name of a variable that is set. -/
def isNameChar (c : Char) : Bool := c.isAlphanum || c = '_' || c = '.'

/-- A name, and the text after the blanks that follow it. -/
def name? (text : List Char) : Option (List Char × List Char) :=
  match text with
  | [] => none
  | c :: _ =>
    if c.isAlpha || c = '_' then
      some (text.takeWhile isNameChar, Text.trimStart (text.dropWhile isNameChar))
    else none

/-- The text after an equals sign and blanks. -/
def afterEquals? : List Char → Option (List Char)
  | '=' :: rest => some (Text.trimStart rest)
  | _ => none

/-- The name and the text of the value in an assignment. The word `export` may stand before it. -/
def assignment? (text : List Char) : Option (List Char × List Char) :=
  match name? text with
  | none => none
  | some (name, rest) =>
    match afterEquals? rest with
    | some value => some (name, value)
    | none =>
      if name = "export".toList then
        match name? rest with
        | none => none
        | some (name, rest) => (afterEquals? rest).map (name, ·)
      else none

/-- The environment after a statement. The first value of a variable is the one that counts. -/
def execute? (environment : Environment) (statement : List Char) : Option Environment :=
  let text := Text.trimStart (Text.trimEnd statement)
  if text.isEmpty || isComment text then some environment
  else
    match assignment? text with
    | none => none
    | some (name, text) =>
      let lookup (name : List Char) : List Char :=
        ((environment.value? (String.ofList name)).getD "").toList
      let value :=
        if text.isEmpty || isComment text then some [] else value? lookup false .text text
      value.map fun value => environment ++ [(String.ofList name, String.ofList value)]

/-- The environment after statements, up to the first that makes no sense. -/
def executeAll (environment : Environment) : List (Option (List Char)) → Environment
  | some statement :: rest =>
    match execute? environment statement with
    | some environment => executeAll environment rest
    | none => environment
  | _ => environment

/-- The text after the mark of the order of octets. -/
def withoutMark : List Char → List Char
  | '\ufeff' :: rest => rest
  | text => text

/-- The environment with what a file of variables adds to it. -/
def load (environment : Environment) (text : String) : Environment :=
  executeAll environment (statements [] .plain (lines (withoutMark text.toList)))

/-- The names that a file of variables may set or refer to. -/
def mentioned (text : String) : List String :=
  ((Text.parts (fun c => !isNameChar c) text.toList).filter (!·.isEmpty)).map String.ofList

end TraceWatch.EnvironmentFile
