/-!
# Uniform resource locators

The parts of a URL, as they are written, and what can be wrong with the text of one.
-/

namespace TraceWatch

/-- What is wrong with the text of a URL. -/
inductive UrlError where
  | emptyHost
  | invalidDomain
  | invalidPort
  | invalidIpv4
  | invalidIpv6
  | invalidHostCharacter
  | missingScheme
deriving DecidableEq, Repr

/-- The message of a malformed URL. -/
def UrlError.message : UrlError → String
  | .emptyHost => "empty host"
  | .invalidDomain => "invalid international domain name"
  | .invalidPort => "invalid port number"
  | .invalidIpv4 => "invalid IPv4 address"
  | .invalidIpv6 => "invalid IPv6 address"
  | .invalidHostCharacter => "invalid domain character"
  | .missingScheme => "relative URL without a base"

/-- The host of a URL. -/
inductive Host where
  /-- A name. It may be empty where the scheme does not ask for a host. -/
  | name (text : String)
  | ipv4 (address : Nat)
  /-- The eight pieces of sixteen bits. -/
  | ipv6 (pieces : List Nat)
deriving DecidableEq, Repr

/-- The path of a URL. -/
inductive UrlPath where
  /-- A path that does not start with a slash, and has no segments. -/
  | rootless (text : String)
  /-- The segments of a path, each of them with a slash before it. -/
  | segments (names : List String)
deriving DecidableEq, Repr

/-- Who a request is made for, as far as the URL says so. -/
structure UserInfo where
  name : String
  password : Option String
deriving DecidableEq, Repr

/-- A URL. All texts are written with the escapes that they need. -/
structure Url where
  scheme : String
  user : Option UserInfo
  host : Option Host
  /-- The port, unless it is the scheme's own. -/
  port : Option Nat
  path : UrlPath
  query : Option String
  fragment : Option String
deriving DecidableEq, Repr

/-- Kinds of schemes, which differ in how the rest of a URL is read. -/
inductive SchemeKind where
  /-- A network protocol with hosts that are domain names or addresses. -/
  | network (port : Nat)
  | file
  | other
deriving DecidableEq, Repr

namespace SchemeKind

/-- The kind of a scheme. -/
def of (scheme : String) : SchemeKind :=
  if scheme = "http" ∨ scheme = "ws" then .network 80
  else if scheme = "https" ∨ scheme = "wss" then .network 443
  else if scheme = "ftp" then .network 21
  else if scheme = "file" then .file
  else .other

/-- Whether a backslash stands for a slash and the host is a domain name or an address. -/
def isSpecial : SchemeKind → Bool
  | .other => false
  | _ => true

/-- The port of a scheme. -/
def port? : SchemeKind → Option Nat
  | .network port => some port
  | _ => none

end SchemeKind

end TraceWatch
