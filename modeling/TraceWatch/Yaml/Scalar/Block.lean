import TraceWatch.Yaml.Text

/-!
# Block scalars

A scalar that starts with `|` or `>` is made of the indented lines below it. After `|` its lines
are kept, after `>` they are folded; the sign `-` drops the line breaks at its end and the sign
`+` keeps all of them.
-/

namespace TraceWatch.Yaml.Block

/-- Which line breaks at the end of a block scalar are kept. -/
inductive Chomping where
  /-- None. -/
  | strip
  /-- The first. -/
  | clip
  /-- All. -/
  | keep
deriving DecidableEq

/-- What the head of a block scalar says. -/
structure Head where
  literal : Bool
  chomping : Chomping
  /-- How much further than the surrounding block the lines are indented, if the head says so. -/
  increment : Option Nat

/-- The chomping that a sign asks for. -/
def chomping? : Char → Option Chomping
  | '+' => some .keep
  | '-' => some .strip
  | _ => none

/-- An indentation indicator, a digit that is not zero. -/
def increment? (c : Char) : Option Nat :=
  if '1' ≤ c && c ≤ '9' then some (c.toNat - '0'.toNat) else none

/-- Reads the signs of a head, in either order, and answers what follows them. -/
def head? (literal : Bool) (rest : List Char) : Option (Head × List Char) :=
  match rest with
  | [] => some (⟨literal, .clip, none⟩, [])
  | c :: after =>
    match chomping? c, after with
    | some chomping, d :: after' =>
      if d = '0' then none
      else match increment? d with
        | some n => some (⟨literal, chomping, some n⟩, after')
        | none => some (⟨literal, chomping, none⟩, after)
    | some chomping, [] => some (⟨literal, chomping, none⟩, [])
    | none, after =>
      if c = '0' then none
      else match increment? c, after with
        | some n, d :: after' =>
          match chomping? d with
          | some chomping => some (⟨literal, chomping, some n⟩, after')
          | none => some (⟨literal, .clip, some n⟩, after)
        | some n, [] => some (⟨literal, .clip, some n⟩, [])
        | none, _ => some (⟨literal, .clip, none⟩, rest)

/-- The part of a block scalar that has been read. Texts are kept back to front. -/
structure Body where
  /-- The complete lines, without the break that ends the last of them. -/
  text : List Char
  /-- The break that ends the last line. -/
  lastBreak : Option Char
  /-- The line breaks after that, of empty lines. -/
  emptyLines : List Char
  /-- Whether the last line starts with a blank. -/
  startsBlank : Bool

/-- The text before a line that starts with `c`: the breaks passed are kept or folded. -/
def Body.beforeLine (body : Body) (literal : Bool) (c : Char) : List Char :=
  match body.lastBreak with
  | none => body.emptyLines ++ body.text
  | some b =>
    if !literal && b = '\n' && !body.startsBlank && !isBlank c then
      if body.emptyLines.isEmpty then ' ' :: body.text else body.emptyLines ++ body.text
    else body.emptyLines ++ b :: body.text

/-- The text of a scalar that ends here. -/
def Body.finish (body : Body) (chomping : Chomping) : List Char :=
  let lastBreak := body.lastBreak.toList
  match chomping with
  | .strip => body.text.reverse
  | .clip => (lastBreak ++ body.text).reverse
  | .keep => (body.emptyLines ++ lastBreak ++ body.text).reverse

/-- What a block scalar is in the middle of. -/
inductive Mode where
  /-- In the spaces at the start of a line. `indent` is the column where lines start, `deepest`
  the greatest column reached by spaces alone. -/
  | margin (indent : Option Nat) (column deepest : Nat)
  /-- In a line. -/
  | line (indent : Nat)

/-- Reads on in a block scalar inside a block whose lines start at least at column `least`.
Answers the text and what follows the scalar. -/
def readFrom? (head : Head) (least : Nat) (body : Body) (mode : Mode) (rest : List Char) :
    Option (List Char × List Char) :=
  let ended : Option (List Char × List Char) := some (body.finish head.chomping, rest)
  match rest with
  | [] => ended
  | c :: rest' =>
    match mode with
    | .margin indent column deepest =>
      let inMargin := indent.all (column < ·)
      if inMargin && c = ' ' then
        readFrom? head least body (.margin indent (column + 1) (max deepest (column + 1))) rest'
      else if inMargin && c = '\t' then none
      else if isBreak c then
        readFrom? head least ⟨body.text, body.lastBreak, c :: body.emptyLines, body.startsBlank⟩
          (.margin indent 0 deepest) rest'
      else
        let indent := indent.getD (max deepest (max least 1))
        if column = indent then
          readFrom? head least ⟨c :: body.beforeLine head.literal c, none, [], isBlank c⟩
            (.line indent) rest'
        else ended
    | .line indent =>
      if isBreak c then
        readFrom? head least ⟨body.text, some c, [], body.startsBlank⟩
          (.margin (some indent) 0 0) rest'
      else
        readFrom? head least ⟨c :: body.text, none, [], body.startsBlank⟩ (.line indent) rest'

/-- Reads the lines below the head of a block scalar. `least` is the least column at which they
may start, one more than that of the block around them. -/
def read? (head : Head) (least : Nat) (rest : List Char) : Option (List Char × List Char) :=
  let indent := head.increment.map (· + (least - 1))
  readFrom? head least ⟨[], none, [], false⟩ (.margin indent 0 0) rest

end TraceWatch.Yaml.Block
