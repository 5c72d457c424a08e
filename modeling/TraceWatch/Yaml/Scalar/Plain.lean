import TraceWatch.Yaml.Scalar.Quoted

/-!
# Plain scalars

A scalar without quotes ends before `: `, before a comment, before a line that is indented too
little, and inside brackets also before a bracket or a comma. Its lines are folded like those of
a scalar in quotes.
-/

namespace TraceWatch.Yaml.Plain

/-- The characters that end a plain scalar inside brackets. -/
def isFlowMark (c : Char) : Bool :=
  c = ',' || c = '[' || c = ']' || c = '\x7b' || c = '\x7d'

/-- The characters that may not follow a colon inside brackets. -/
def isFlowMarkOrQuestion (c : Char) : Bool := isFlowMark c || c = '?'

/-- Where a plain scalar ended. -/
structure Reading where
  text : List Char
  /-- Whether line breaks stand between the scalar and what follows. -/
  lineEnded : Bool
  rest : List Char

/-- Reads on in a scalar. `flow` tells whether it stands inside brackets, `indent` is the column
that its lines have to reach, `column` counts the characters since the last line break, and
`seen` is the text so far, back to front. -/
def readFrom? (flow : Bool) (indent : Nat) (seen : List Char) (gap : Gap) (column : Nat)
    (rest : List Char) : Option Reading :=
  let ended : Option Reading := some ⟨seen.reverse, gap.hasBreak, rest⟩
  match rest with
  | [] => ended
  | c :: rest' =>
    if isBreak c then readFrom? flow indent seen (gap.push c) 0 rest'
    else if isBlank c then
      if gap.hasBreak && column < indent && c = '\t' then none
      else readFrom? flow indent seen (gap.push c) (column + 1) rest'
    else if gap.hasBreak && !flow && column < indent then ended
    else if gap.hasBreak && column = 0 && startsBorder rest then ended
    else
      let spaced := match gap with
        | .blanks [] => false
        | _ => true
      if spaced && c = '#' then ended
      else if flow && c = ':' && rest'.head?.any isFlowMarkOrQuestion then none
      else if (c = ':' && atSpacing rest') || (flow && isFlowMark c) then ended
      else readFrom? flow indent (c :: (gap.folded ++ seen)) .empty (column + 1) rest'

/-- Reads a plain scalar that starts here. -/
def read? (flow : Bool) (indent : Nat) (rest : List Char) : Option Reading :=
  readFrom? flow indent [] .empty 0 rest

end TraceWatch.Yaml.Plain
