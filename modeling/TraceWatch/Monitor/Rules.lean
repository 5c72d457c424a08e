import TraceWatch.Monitor.Basic
import TraceWatch.Text.Blank
import TraceWatch.Window

/-!
# The rules for monitors

Each rule about a field of a monitor is a check that names the first thing wrong with it.
-/

namespace TraceWatch.Rules

/-- The characters of a monitor's name. -/
def isNameChar (c : Char) : Bool := c.isLower || c.isDigit || c = '-'

/-- Names have 3 to 50 characters, begin with a letter and do not end with a hyphen. -/
def isName (name : String) : Bool :=
  let cs := name.toList
  3 ≤ cs.length && cs.length ≤ 50 && cs.all isNameChar && cs.head?.any Char.isLower
    && cs.getLast?.any (· ≠ '-')

/-- The rule for a monitor's name. -/
def checkName (name : String) : Except Violation Unit :=
  if isName name then .ok () else .error (.invalidName name)

/-- The rule for a display name. -/
def checkDisplayName (displayName : String) : Except Violation Unit :=
  if Text.isBlank displayName then .error .blankDisplayName else .ok ()

/-- The rule for a sampling rate: above zero and at most one. -/
def checkSamplingRate (rate : Binary64) : Except Violation Unit :=
  if rate.isPositive && rate.isAtMostOne then .ok () else .error (.samplingRateOutOfRange rate)

/-- The rule for an interval. -/
def checkInterval (minutes : Int) : Except Violation Unit :=
  if minutes < minInterval then .error (.intervalTooShort minutes) else .ok ()

/-- The rule for the identifiers of evaluators, of which some have been seen before. -/
def checkIdentifiers : List String → List String → Except Violation Unit
  | _, [] => .ok ()
  | seen, identifier :: rest =>
    if Text.isBlank identifier then .error .blankIdentifier
    else if seen.contains identifier then .error (.duplicateEvaluator identifier)
    else checkIdentifiers (identifier :: seen) rest

/-- The rule for a list of evaluators: not empty, no blank identifier, none twice. -/
def checkEvaluators (evaluators : List Evaluator) : Except Violation Unit :=
  if evaluators.isEmpty then .error .noEvaluators
  else checkIdentifiers [] (evaluators.map Evaluator.identifier)

/-- The rule for the window of a past monitor: not empty and already over. -/
def checkWindow (window : Window) (now : Timestamp) : Except Violation Unit :=
  if ¬ window.start < window.stop then .error .emptyWindow
  else if now < window.stop then .error .windowNotElapsed
  else .ok ()

end TraceWatch.Rules
