import TraceWatch.Config.Basic

/-!
# The environment

Environment variables override what a configuration says, and may hold the token of the workflow
plane. A variable whose value makes no sense is ignored.
-/

namespace TraceWatch

/-- The environment variables, each with its value. -/
abbrev Environment := List (String × String)

/-- The value of a variable. -/
def Environment.value? (environment : Environment) (name : String) : Option String :=
  (environment.find? (·.1 = name)).map Prod.snd

namespace ServiceConfig

/-- The truth value that the text of a variable means, in any case. -/
def switch? (text : String) : Option Bool :=
  let word := String.ofList (text.toList.map Char.toLower)
  if ["true", "1", "yes", "on"].contains word then some true
  else if ["false", "0", "no", "off"].contains word then some false
  else none

/-- The number of seconds that the text of a variable means: digits, perhaps after a plus
sign. -/
def seconds? (text : String) : Option Nat :=
  let digits := match text.toList with
    | '+' :: rest => rest
    | rest => rest
  if digits.isEmpty ∨ !digits.all Char.isDigit then none
  else
    let value := digits.foldl (fun n c => n * 10 + (c.toNat - '0'.toNat)) 0
    if value < Nat.pow 2 64 then some value else none

/-- The variable that holds the URL of the database. -/
def databaseVariable : String := "MONITOR_DATABASE_URL"

/-- The variable that holds the URL of the workflow plane. -/
def planeVariable : String := "MONITOR_WORKFLOW_PLANE_URL"

/-- The variable that holds the token of the workflow plane. -/
def tokenVariable : String := "MONITOR_WORKFLOW_PLANE_TOKEN"

/-- The variable that switches the scheduler on or off. -/
def schedulerVariable : String := "MONITOR_SCHEDULER_ENABLED"

/-- The variable that holds the seconds between two cycles. -/
def intervalVariable : String := "MONITOR_POLL_INTERVAL_SECONDS"

/-- The variables that override a configuration. -/
def overridingVariables : List String :=
  [databaseVariable, planeVariable, tokenVariable, schedulerVariable, intervalVariable]

/-- The configuration with what the environment overrides. -/
def overriddenBy (config : ServiceConfig) (environment : Environment) : ServiceConfig :=
  let value? := environment.value?
  { config with
    database := { config.database with
      url := (value? databaseVariable).getD config.database.url }
    plane := { config.plane with
      baseUrl := (value? planeVariable).getD config.plane.baseUrl
      apiToken := (value? tokenVariable).or config.plane.apiToken }
    scheduler := { config.scheduler with
      enabled :=
        ((value? schedulerVariable).bind switch?).getD config.scheduler.enabled
      pollIntervalSeconds := ((value? intervalVariable).bind seconds?).getD
        config.scheduler.pollIntervalSeconds } }

/-- The token of requests. After `env:` stands the name of the variable that holds it. -/
def token? (config : ServiceConfig) (environment : Environment) : Option String :=
  config.plane.apiToken.bind fun token =>
    match token.toList with
    | 'e' :: 'n' :: 'v' :: ':' :: name => environment.value? (String.ofList name)
    | _ => some token

end ServiceConfig

end TraceWatch
