import TraceWatch.Url.Host

/-!
# Reading a URL

`Url.parse` reads a text that starts with a scheme. Control characters and spaces around it, and
tabs and line breaks within it, do not count. In a special scheme a backslash is a slash, and the
segments `.` and `..` are followed rather than kept.
-/

namespace TraceWatch.Url

/-- The characters of the text that count. -/
def significant (text : String) : List Char :=
  let isOuter (c : Char) : Bool := c.toNat ≤ 0x20
  let inner := ((text.toList.dropWhile isOuter).reverse.dropWhile isOuter).reverse
  inner.filter fun c => c ≠ '\t' ∧ c ≠ '\n' ∧ c ≠ '\r'

/-- Whether a character can stand in a scheme after its first letter. -/
def isSchemeChar (c : Char) : Bool := c.isAlphanum || c = '+' || c = '-' || c = '.'

/-- The scheme in lower case, and what follows the colon after it. -/
def scheme? (text : List Char) : Option (String × List Char) :=
  match text.takeWhile isSchemeChar, text.dropWhile isSchemeChar with
  | first :: others, ':' :: rest =>
    if first.isAlpha then some (String.ofList ((first :: others).map Char.toLower), rest) else none
  | _, _ => none

/-! ## Escapes -/

/-- The characters that are escaped in a fragment. -/
def escapedInFragment (c : Char) : Bool :=
  Host.isControl c || c = ' ' || c = '"' || c = '<' || c = '>' || c = '\x60'

/-- The characters that are escaped in a path. -/
def escapedInPath (c : Char) : Bool :=
  escapedInFragment c || c = '#' || c = '?' || c = '\x7b' || c = '\x7d'

/-- The characters that are escaped in the part before the host. -/
def escapedInUser (c : Char) : Bool :=
  escapedInPath c || c = '/' || c = ':' || c = ';' || c = '=' || c = '@' || c = '[' || c = '\\'
    || c = ']' || c = '^' || c = '|'

/-- The characters that are escaped in a query. -/
def escapedInQuery (special : Bool) (c : Char) : Bool :=
  Host.isControl c || c = ' ' || c = '"' || c = '#' || c = '<' || c = '>'
    || (special && c = '\'')

/-- A text with its escapes. -/
def escape (escapes : Char → Bool) (text : List Char) : String :=
  String.ofList (Text.percentEncode escapes text)

/-! ## Path, query and fragment -/

/-- Whether a character is a slash in a path. -/
def isSlash (special : Bool) (c : Char) : Bool := c = '/' || (special && c = '\\')

/-- Whether a character ends a path. -/
def endsPath (c : Char) : Bool := c = '?' || c = '#'

/-- Query and fragment, from where the path ends. -/
def queryAndFragment (special : Bool) (rest : List Char) : Option String × Option String :=
  let fragment (rest : List Char) : Option String :=
    match rest with
    | '#' :: rest => some (escape escapedInFragment rest)
    | _ => none
  match rest with
  | '?' :: rest =>
    (some (escape (escapedInQuery special) (rest.takeWhile (· ≠ '#'))),
      fragment (rest.dropWhile (· ≠ '#')))
  | rest => (none, fragment rest)

/-- A segment with its escaped full stops undone, to tell whether it is `.` or `..`. -/
def plainStops : List Char → List Char
  | '%' :: '2' :: 'e' :: rest => '.' :: plainStops rest
  | '%' :: '2' :: 'E' :: rest => '.' :: plainStops rest
  | c :: rest => c :: plainStops rest
  | [] => []

/-- Whether a segment is a letter and a colon or bar, which stand for a drive in a file's path. -/
def isDrive : List Char → Bool
  | [a, b] => a.isAlpha && (b = ':' || b = '|')
  | _ => false

/-- Whether a segment is the first of a file's path and stands for a drive. -/
def isFirstDrive (kind : SchemeKind) (done : List String) (segment : List Char) : Bool :=
  kind = .file && done.isEmpty && isDrive segment

/-- A path without its last segment. `done` holds the segments back to front. The drive of a file
stays. -/
def shorten (kind : SchemeKind) (done : List String) : List String :=
  match done with
  | [only] => if kind = .file && isDrive only.toList then [only] else []
  | _ :: rest => rest
  | [] => []

/-- Follows a path, segment by segment. `done` holds the segments so far, back to front. -/
def follow (kind : SchemeKind) (done : List String) : List (List Char) → List String
  | [] => done.reverse
  | segment :: rest =>
    let isLast := rest.isEmpty
    let plain := plainStops segment
    if plain = ['.', '.'] then
      let done := shorten kind done
      follow kind (if isLast then "" :: done else done) rest
    else if plain = ['.'] then follow kind (if isLast then "" :: done else done) rest
    else if isFirstDrive kind done segment then
      follow kind (String.ofList (segment.take 1 ++ [':']) :: done) rest
    else follow kind (escape escapedInPath segment :: done) rest

/-- The segments of a path whose first slash has been passed. -/
def segments (kind : SchemeKind) (path : List Char) : UrlPath :=
  let followed := follow kind [] (Text.parts (isSlash kind.isSpecial) path)
  if kind = .file then
    let kept := followed.dropWhile (· = "")
    .segments (if kept.isEmpty then [""] else kept)
  else .segments followed

/-- The path after a host. A special scheme always has one. -/
def pathAfterHost (kind : SchemeKind) (path : List Char) : UrlPath :=
  match path with
  | [] => if kind.isSpecial then segments kind [] else .segments []
  | c :: rest =>
    if isSlash kind.isSpecial c then segments kind rest else segments kind path

/-! ## What stands before the path -/

/-- Whether a character ends the part of a URL that names the host. -/
def endsAuthority (special : Bool) (c : Char) : Bool := isSlash special c || endsPath c

/-- Who the request is made for, from the text before the last `@`. -/
def userInfo (text : List Char) : Option UserInfo :=
  let name := escape escapedInUser (text.takeWhile (· ≠ ':'))
  match text.dropWhile (· ≠ ':') with
  | _ :: c :: rest => some ⟨name, some (escape escapedInUser (c :: rest))⟩
  | _ => if name.isEmpty then none else some ⟨name, none⟩

/-- The length of a host: it ends before a colon that is not in square brackets. -/
def hostLength (inside : Bool) : List Char → Nat
  | [] => 0
  | c :: rest =>
    if c = ':' ∧ !inside then 0
    else hostLength (if c = '[' then true else if c = ']' then false else inside) rest + 1

/-- The number of a port, up to a character that ends it. A backslash ends it in any scheme. -/
def portNumber : Nat → List Char → Except UrlError Nat
  | value, [] => .ok value
  | value, c :: rest =>
    if c.isDigit then
      let value := value * 10 + (c.toNat - '0'.toNat)
      if 65535 < value then .error .invalidPort else portNumber value rest
    else if c = '\\' then .ok value
    else .error .invalidPort

/-- The port after a host, unless it is the scheme's own, and what follows it. -/
def portAfterHost (kind : SchemeKind) (rest : List Char) :
    Except UrlError (Option Nat × List Char) :=
  match rest with
  | ':' :: rest =>
    match portNumber 0 rest with
    | .error e => .error e
    | .ok value =>
      let after := rest.dropWhile Char.isDigit
      if rest.length = after.length ∨ kind.port? = some value then .ok (none, after)
      else .ok (some value, after)
  | rest => .ok (none, rest)

/-- The host, the port and what follows them within the authority. -/
def hostAndPort (kind : SchemeKind) (text : List Char) :
    Except UrlError (Host × Option Nat × List Char) :=
  let hostText := text.take (hostLength false text)
  let rest := text.drop (hostLength false text)
  if hostText.isEmpty ∧ (kind.isSpecial ∨ rest.head? = some ':') then .error .emptyHost
  else do
    let host ← if kind.isSpecial then Host.parse hostText else Host.parseOther hostText
    let (port, rest) ← portAfterHost kind rest
    return (host, port, rest)

/-- A URL whose scheme is followed by two slashes. -/
def withAuthority (scheme : String) (rest : List Char) : Except UrlError Url := do
  let kind := SchemeKind.of scheme
  let isInside (c : Char) : Bool := !endsAuthority kind.isSpecial c
  let authority := rest.takeWhile isInside
  let path := rest.dropWhile isInside
  let (user, hostText) ← match Text.atLast? '@' authority with
    | none => pure (none, authority)
    | some (before, after) =>
      if before.isEmpty ∧ after.isEmpty ∧ !path.isEmpty then throw .emptyHost
      else pure (userInfo before, after)
  let (host, port, unread) ← hostAndPort kind hostText
  if host = .name "" ∧ user.isSome then throw .emptyHost
  let path := unread ++ path
  let (query, fragment) := queryAndFragment kind.isSpecial
    (path.dropWhile fun c => !endsPath c)
  return ⟨scheme, user, some host, port,
    pathAfterHost kind (path.takeWhile fun c => !endsPath c), query, fragment⟩

/-! ## Files -/

/-- The host of a file: none if it is this one, or if a drive stands in its place. -/
def fileHost (text : List Char) : Except UrlError (Option Host) :=
  if text.isEmpty then .ok none
  else
    match Host.parse text with
    | .error e => .error e
    | .ok host => .ok (if host = .name "localhost" then none else some host)

/-- A URL of a file. -/
def ofFile (rest : List Char) : Except UrlError Url := do
  let isPathChar (c : Char) : Bool := !endsPath c
  let slashes := (rest.take 2).takeWhile (isSlash true)
  let url (host : Option Host) (rest : List Char) : Url :=
    let path := rest.takeWhile isPathChar
    let (query, fragment) := queryAndFragment true (rest.dropWhile isPathChar)
    let path := pathAfterHost .file path
    let hasDrive := match path with
      | .segments (first :: _) => isDrive first.toList
      | _ => false
    ⟨"file", none, some (if hasDrive then .name "" else host.getD (.name "")), none, path, query,
      fragment⟩
  if slashes.length = 2 then
    let isInside (c : Char) : Bool := !endsAuthority true c
    let text := (rest.drop 2).takeWhile isInside
    if isDrive text then return url none (rest.drop 2)
    else
      let host ← fileHost text
      return url host ((rest.drop 2).dropWhile isInside)
  else return url none rest

/-! ## The whole -/

/-- A URL of another scheme without a host. -/
def withoutAuthority (scheme : String) (rest : List Char) : Url :=
  let path := rest.takeWhile fun c => !endsPath c
  let (query, fragment) := queryAndFragment false (rest.dropWhile fun c => !endsPath c)
  let path := match path with
    | '/' :: path => segments .other path
    | path => .rootless (escape Host.isControl path)
  ⟨scheme, none, none, none, path, query, fragment⟩

/-- Reads the text of a URL. -/
def parse (text : String) : Except UrlError Url :=
  match scheme? (significant text) with
  | none => .error .missingScheme
  | some (scheme, rest) =>
    match SchemeKind.of scheme with
    | .file => ofFile rest
    | .network _ => withAuthority scheme (rest.dropWhile (isSlash true))
    | .other =>
      match rest with
      | '/' :: '/' :: rest => withAuthority scheme rest
      | rest => .ok (withoutAuthority scheme rest)

/-! ## The text of a URL -/

/-- What stands before the path. -/
def renderAuthority (url : Url) (host : Host) : String :=
  let user := match url.user with
    | none => ""
    | some ⟨name, none⟩ => name ++ "@"
    | some ⟨name, some password⟩ => name ++ ":" ++ password ++ "@"
  let port := match url.port with
    | none => ""
    | some port => ":" ++ Nat.repr port
  "//" ++ user ++ host.render ++ port

/-- The text of a path. -/
def renderPath : UrlPath → String
  | .rootless text => text
  | .segments names => String.join (names.map ("/" ++ ·))

/-- The text of a URL. Without a host, a path must not start with two slashes. -/
def render (url : Url) : String :=
  let start := match url.host, url.path with
    | some host, _ => url.renderAuthority host
    | none, .segments ("" :: _ :: _) => "/."
    | none, _ => ""
  url.scheme ++ ":" ++ start ++ renderPath url.path
    ++ (match url.query with | none => "" | some query => "?" ++ query)
    ++ (match url.fragment with | none => "" | some fragment => "#" ++ fragment)

end TraceWatch.Url
