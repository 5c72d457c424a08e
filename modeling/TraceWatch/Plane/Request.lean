import TraceWatch.Config.Basic
import TraceWatch.Service.Program
import TraceWatch.Text.Base64
import TraceWatch.Url.Parser

/-!
# Requests to the workflow plane

Each call of the workflow plane is one request over HTTP. `PlaneClient.request` makes it, or says
why it cannot be made: its address has to be the URL of a host that can be reached over HTTP, and
its token has to fit into a header.
-/

namespace TraceWatch

/-- The methods of requests. -/
inductive Method where
  | get
  | post
  | delete
deriving DecidableEq, Repr

/-- The name of a method. -/
def Method.word : Method → String
  | get => "GET"
  | post => "POST"
  | delete => "DELETE"

/-- A request to the workflow plane. -/
structure PlaneRequest where
  method : Method
  url : Url
  /-- The values of its authorization headers. -/
  authorization : List String
  body : Option Json

/-- The collection of the resources of a kind. -/
def collection (kind : String) : String := String.ofList (kind.toList.map Char.toLower) ++ "s"

namespace PlaneCall

/-- The method of a call. -/
def method : PlaneCall → Method
  | submit _ => .post
  | delete _ => .delete
  | _ => .get

/-- Where the jobs and other resources of a namespace are. -/
def space (name : String) : String := "/api/v1/namespaces/" ++ name ++ "/"

/-- Where an organization is. -/
def organization (name : String) : String := "/api/v1/orgs/" ++ name ++ "/"

/-- The path of a resource. -/
def resourcePath (job : JobRef) : String :=
  space job.space ++ collection job.kind ++ "/" ++ job.name

/-- The path of a call. The names in it are written as they are. -/
def path : PlaneCall → String
  | submit spec => space spec.space ++ collection jobKind
  | delete job => resourcePath job
  | resource job => resourcePath job
  | agent org project name => organization org ++ "projects/" ++ project ++ "/agents/" ++ name
  | environment org name => organization org ++ "environments/" ++ name
  | logs owner job => resourcePath (.run owner job) ++ "/logs"

/-- The document sent with a call. -/
def body : PlaneCall → Option Json
  | submit spec => some spec.toJson
  | _ => none

/-- What is missing if the plane does not find what a call is about. -/
def subject : PlaneCall → String
  | submit spec => "namespace " ++ spec.space
  | delete job => job.kind ++ " " ++ job.space ++ "/" ++ job.name
  | resource job => job.kind ++ " " ++ job.space ++ "/" ++ job.name
  | agent org project name => "agent " ++ org ++ "/" ++ project ++ "/" ++ name
  | environment org name => "environment " ++ org ++ "/" ++ name
  | logs owner job => "logs of " ++ owner ++ "/" ++ job

end PlaneCall

/-- A client of the workflow plane: the text that the URLs of its requests start with, and the
token sent with them. -/
structure PlaneClient where
  base : String
  token : Option String
deriving DecidableEq, Repr

/-- Why a request could not be made or was not answered. -/
inductive Obstacle where
  | notBuilt (url : Option Url)
  | notSent (url : Url)
  | notDecoded (url : Url)

namespace Obstacle

/-- The text of an obstacle. -/
def text : Obstacle → String
  | notBuilt none => "builder error"
  | notBuilt (some url) => "builder error for url (" ++ url.render ++ ")"
  | notSent url => "error sending request for url (" ++ url.render ++ ")"
  | notDecoded url => "error decoding response body for url (" ++ url.render ++ ")"

/-- The failure that an obstacle is for those who called. -/
def toPlaneError (obstacle : Obstacle) : PlaneError :=
  match obstacle with
  | notDecoded _ => .invalidResponse obstacle.text
  | _ => .transport obstacle.text

end Obstacle

namespace PlaneClient

/-- The client that a configuration describes. Slashes at the end of the URL do not count. -/
def ofConfig (config : PlaneConfig) (token : Option String) : PlaneClient :=
  ⟨String.ofList (config.baseUrl.toList.reverse.dropWhile (· = '/')).reverse, token⟩

/-- Whether a text can be the value of a header. -/
def isHeaderText (text : String) : Bool :=
  text.toList.all fun c => (0x20 ≤ c.toNat && c.toNat ≠ 0x7F) || c = '\t'

/-- The text that escapes in a part of a URL stand for, if they stand for one. -/
def unescaped? (text : String) : Option String :=
  (Text.decode? (Text.percentDecode text.toList)).map String.ofList

/-- Takes out of a URL who the request is made for. What is no text stays. -/
def takeUser (url : Url) : Url × Option (String × Option String) :=
  match url.user with
  | none => (url, none)
  | some user =>
    match unescaped? user.name with
    | none => (url, none)
    | some name =>
      let password := user.password.bind unescaped?
      if name.isEmpty && password.isNone then (url, none)
      else ({ url with user := none }, some (name, password))

/-- The value of a header for a name and a password. -/
def basic (name : String) (password : Option String) : String :=
  let text := name ++ ":" ++ password.getD ""
  "Basic " ++ String.ofList (Text.base64 (text.toList.flatMap Text.octets))

/-- Whether a URL names a host. -/
def hasHost (url : Url) : Bool :=
  match url.host with
  | none => false
  | some host => host ≠ .name ""

/-- Whether a request can be sent to a URL: over HTTP, to a host whose name holds no character
that is reserved there. The limit that the HTTP library sets to the length of a URL is not
modelled. -/
def isReachable (url : Url) : Bool :=
  let reserved (c : Char) : Bool := c = '"' || c = '\x60' || c = '\x7b' || c = '\x7d'
  (url.scheme = "http" || url.scheme = "https")
    && match url.host with
      | some (.name text) => !text.toList.any reserved
      | _ => true

/-- The request of a call. -/
def request (client : PlaneClient) (call : PlaneCall) : Except Obstacle PlaneRequest :=
  match Url.parse (client.base ++ call.path) with
  | .error _ => .error (.notBuilt none)
  | .ok url =>
    if !hasHost url then .error (.notBuilt (some url))
    else
      let (url, user) := takeUser url
      if !client.token.all isHeaderText then .error (.notBuilt none)
      else if !isReachable url then .error (.notBuilt (some url))
      else
        let own := (user.map fun (name, password) => basic name password).toList
        let token := (client.token.map ("Bearer " ++ ·)).toList
        .ok ⟨call.method, url, own ++ token, call.body⟩

end PlaneClient

end TraceWatch
