import TraceWatch.Text.Octets
import TraceWatch.Text.Parts

/-!
# The query of a URL

A query that holds parameters names each with its value, as in `name=value&name=value`. A plus sign
stands for a space, and any octet may be written as `%` and two hexadecimal digits.
-/

namespace TraceWatch.Url

/-- A name or value in a query. Octets that store no text give the replacement character. -/
def parameterText (text : List Char) : List Char :=
  let octets := Text.percentDecode (text.map fun c => if c = '+' then ' ' else c)
  (Text.decode? octets).getD ['\ufffd']

/-- A parameter. Without an equals sign its value is empty. -/
def parameter (text : List Char) : String × String :=
  let (name, value) := (Text.atFirst? '=' text).getD (text, [])
  (String.ofList (parameterText name), String.ofList (parameterText value))

/-- The parameters in a query, in order. -/
def parameters (query : String) : List (String × String) :=
  ((Text.parts (· = '&') query.toList).filter (!·.isEmpty)).map parameter

end TraceWatch.Url
