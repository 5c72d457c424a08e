import TraceWatch.Json.Value

/-!
# The health page

The daemon answers one page over HTTP, which tells that it is alive, whether its scheduler is
running, and since when.
-/

namespace TraceWatch

/-- An answer over HTTP; without a body it is null. -/
structure PageReply where
  status : Nat
  body : Json

namespace Health

/-- The page as a document. -/
def page (uptime : Nat) (running : Bool) : Json :=
  .object [("status", .string "healthy"), ("scheduler_running", .bool running),
    ("uptime_seconds", .whole uptime)]

/-- The path of a request's target, without its query. -/
def pathOf (target : String) : String :=
  String.ofList (target.toList.takeWhile fun c => c ≠ '?' && c ≠ '#')

/-- The answer to a request. The page can be read, or asked for without its body; nothing else can
be done to it, and there is no other. -/
def respond (method target : String) (uptime : Nat) (running : Bool) : PageReply :=
  if pathOf target ≠ "/health" then ⟨404, .null⟩
  else if method = "GET" then ⟨200, page uptime running⟩
  else if method = "HEAD" then ⟨200, .null⟩
  else ⟨405, .null⟩

end Health

end TraceWatch
