import TraceWatch.Config.Environment
import TraceWatch.Text.Parts

/-!
# What a run of the program leaves behind

A run prints text, ends with a code, and if it fails says why: what could not be done, and what
caused it. Words that matter are coloured if the environment asks for it.
-/

namespace TraceWatch

/-- What a run of the program leaves behind. -/
structure Output where
  exit : Nat
  stdout : String
  stderr : String
deriving DecidableEq, Repr

/-- Why a command failed, and what caused it, the last cause last. -/
structure CommandError where
  message : String
  causes : List String
deriving DecidableEq, Repr

namespace CommandError

/-- An error without a cause. -/
def of (message : String) : CommandError := ⟨message, []⟩

/-- The error of an attempt that failed because of another. -/
def because (message : String) (error : CommandError) : CommandError :=
  ⟨message, error.message :: error.causes⟩

/-- A text with its lines after the first moved to the right. -/
def indented (width : Nat) (text : String) : String :=
  let lineBreak := '\n' :: List.replicate width ' '
  String.ofList (text.toList.flatMap fun c => if c = '\n' then lineBreak else [c])

/-- A cause among several. -/
def numbered (cause : String × Nat) : String :=
  let number := Nat.repr cause.2
  String.ofList (List.replicate (5 - number.length) ' ') ++ number ++ ": " ++ indented 7 cause.1

/-- The text of the causes. -/
def renderCauses : List String → String
  | [] => ""
  | [cause] => "\n\nCaused by:\n    " ++ indented 4 cause
  | causes => "\n\nCaused by:\n" ++ String.intercalate "\n" (causes.zipIdx.map numbered)

/-- The text of an error. -/
def render (error : CommandError) : String :=
  "Error: " ++ error.message ++ renderCauses error.causes ++ "\n"

end CommandError

/-- How a command ended: what it printed, and why it failed if it did. -/
structure Ending where
  printed : String
  error : Option CommandError
deriving DecidableEq, Repr

/-- What a command leaves behind that ended so. -/
def Ending.output (ending : Ending) : Output :=
  match ending.error with
  | none => ⟨0, ending.printed, ""⟩
  | some error => ⟨1, ending.printed, error.render⟩

/-- Ways to mark a word on a terminal. -/
inductive Mark where
  | bold
  | dimmed
  | green
  | yellow
deriving DecidableEq, Repr

/-- The number of a mark. -/
def Mark.code : Mark → String
  | bold => "1"
  | dimmed => "2"
  | green => "32"
  | yellow => "33"

/-- A text with marks, if marks are wanted. -/
def marked (wanted : Bool) (marks : List Mark) (text : String) : String :=
  if wanted then "\x1b[" ++ String.intercalate ";" (marks.map Mark.code) ++ "m" ++ text ++ "\x1b[0m"
  else text

/-- The variable that asks for marks. -/
def Environment.marksVariable : String := "CLICOLOR_FORCE"

/-- Whether the environment asks for marks even where there is no terminal. -/
def Environment.wantsMarks (environment : Environment) : Bool :=
  match environment.value? marksVariable with
  | some value => value ≠ "0"
  | none => false

end TraceWatch
