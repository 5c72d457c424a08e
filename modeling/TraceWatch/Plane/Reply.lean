import TraceWatch.Plane.Request
import TraceWatch.Json.Reader

/-!
# Replies of the workflow plane

What the workflow plane makes of a request, and what that means for the call it was made for.
-/

namespace TraceWatch

/-- What became of a request. -/
inductive PlaneReply where
  /-- No answer came: the plane could not be reached, or it closed the connection. -/
  | lost
  | answered (status : Nat) (body : String)
deriving DecidableEq, Repr

namespace PlaneCall

/-- The identifier in the document of an agent or an environment. -/
def identifier? (document : Json) : Option String := do
  let record ← Record.ofJson? ["id"] document
  record.required "id" Json.string?

/-- The lines in the document of a log. -/
def logLines? (document : Json) : Option (List LogLine) := do
  let record ← Record.ofJson? ["logs"] document
  record.withDefault "logs" LogLine.listOfJson? []

/-- The answer of a call in the body of a reply. -/
def decode? (body : String) : (call : PlaneCall) → Option call.Answer
  | submit spec => some (.run spec.space spec.name)
  | delete _ => some ()
  | resource _ => (Json.parse? body).map Json.canonical
  | agent _ _ _ => (Json.parse? body).bind identifier?
  | environment _ _ => (Json.parse? body).bind identifier?
  | logs _ _ => (Json.parse? body).bind logLines?

/-- What a reply to a call's request at a URL means. -/
def interpret (call : PlaneCall) (url : Url) : PlaneReply → Except PlaneError call.Answer
  | .lost => .error (Obstacle.notSent url).toPlaneError
  | .answered status body =>
    if status = 404 then .error (.notFound call.subject)
    else if status < 200 ∨ 300 ≤ status then .error (.rejected status body)
    else
      match call.decode? body with
      | some answer => .ok answer
      | none => .error (Obstacle.notDecoded url).toPlaneError

end PlaneCall

namespace PlaneClient

/-- Makes a call over a network, which says what becomes of a request. -/
def perform (client : PlaneClient) (network : PlaneRequest → PlaneReply) (call : PlaneCall) :
    Except PlaneError call.Answer :=
  match client.request call with
  | .error obstacle => .error obstacle.toPlaneError
  | .ok request => call.interpret request.url (network request)

end PlaneClient

end TraceWatch
