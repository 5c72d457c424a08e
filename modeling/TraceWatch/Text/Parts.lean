/-!
# The parts of a text

A text cut at certain characters, at all of them or at the first or last one.
-/

namespace TraceWatch.Text

/-- The parts of a text between the characters that satisfy `p`. There is always at least one. -/
def parts (p : Char → Bool) : List Char → List (List Char)
  | [] => [[]]
  | c :: rest =>
    if p c then [] :: parts p rest
    else match parts p rest with
      | [] => [[c]]
      | part :: others => (c :: part) :: others

/-- Parts joined by a character. -/
def joined (separator : Char) : List (List Char) → List Char
  | [] => []
  | [part] => part
  | part :: others => part ++ separator :: joined separator others

/-- A text before and after the first place where a character stands. -/
def atFirst? (mark : Char) : List Char → Option (List Char × List Char)
  | [] => none
  | c :: rest =>
    if c = mark then some ([], rest)
    else (atFirst? mark rest).map fun (before, after) => (c :: before, after)

/-- A text before and after the last place where a character stands. -/
def atLast? (mark : Char) : List Char → Option (List Char × List Char)
  | [] => none
  | c :: rest =>
    match atLast? mark rest with
    | some (before, after) => some (c :: before, after)
    | none => if c = mark then some ([], rest) else none

/-- There is always a part. -/
theorem parts_ne_nil (p : Char → Bool) (text : List Char) : parts p text ≠ [] := by
  cases text with
  | nil => simp [parts]
  | cons c rest =>
    unfold parts
    split
    · simp
    · split <;> simp

end TraceWatch.Text
