import TraceWatch.Config.Document
import TraceWatch.Text.Parts

/-!
# Configurations to be shown

A configuration is shown with its secrets masked: the token of the workflow plane, and the
password before the host in the URL of the database.
-/

namespace TraceWatch

namespace Redaction

/-- What stands in place of a secret. -/
def mask : String := "********"

/-- A text before and after the first place where `://` stands. -/
def atScheme? : List Char → Option (List Char × List Char)
  | [] => none
  | ':' :: '/' :: '/' :: rest => some ([], rest)
  | c :: rest => (atScheme? rest).map fun (before, after) => (c :: before, after)

/-- A URL with its password masked. The password stands between the first colon after the scheme
and the last `@`. -/
def url (text : String) : String :=
  let masked := do
    let (scheme, rest) ← atScheme? text.toList
    let (credentials, host) ← Text.atLast? '@' rest
    let (user, _) ← Text.atFirst? ':' credentials
    return String.ofList (scheme ++ "://".toList ++ user ++ ':' :: mask.toList ++ '@' :: host)
  masked.getD text

end Redaction

namespace ServiceConfig

/-- The configuration with its secrets masked. -/
def redacted (config : ServiceConfig) : ServiceConfig :=
  { config with
    database := { config.database with url := Redaction.url config.database.url }
    plane := { config.plane with
      apiToken := config.plane.apiToken.map fun _ => Redaction.mask } }

/-- The text of a configuration to be shown. -/
def renderRedacted (config : ServiceConfig) : String := config.redacted.render

end ServiceConfig

end TraceWatch
