import TraceWatch.Text.Quoted
import TraceWatch.Url.Parser
import TraceWatch.Url.Query
import TraceWatch.Url.Socket

/-!
# The URL of a database

The URL of a database names the host and the database, who connects to it and how. Before anything
is connected to, `DatabaseUrl.fault?` tells what makes no sense in it.
-/

namespace TraceWatch

/-- Why a text is no number of a given size. -/
inductive NumberFault where
  | empty
  | invalidDigit
  | tooLarge
deriving DecidableEq, Repr

/-- The message of a text that is no number. -/
def NumberFault.message : NumberFault → String
  | .empty => "cannot parse integer from empty string"
  | .invalidDigit => "invalid digit found in string"
  | .tooLarge => "number too large to fit in target type"

/-- What is wrong with the URL of a database. -/
inductive DatabaseUrlFault where
  | malformed (error : UrlError)
  /-- Octets at a place store no character: so many of them, or those at the end. -/
  | notText (place : Nat) (count : Option Nat)
  | unknownEncryption (mode : String)
  | notANumber (fault : NumberFault)
  | notAnAddress
deriving DecidableEq, Repr

namespace DatabaseUrlFault

/-- What stands before the message of a fault in the settings of a connection. -/
def inSettings (message : String) : String := "error with configuration: " ++ message

/-- The message of a fault, and then those of its causes. -/
def messages (fault : DatabaseUrlFault) : List String :=
  let because (message : String) : List String := [inSettings message, message]
  match fault with
  | malformed error => because error.message
  | notText place none =>
    because ("incomplete utf-8 byte sequence from index " ++ Nat.repr place)
  | notText place (some count) =>
    because ("invalid utf-8 sequence of " ++ Nat.repr count ++ " bytes from index "
      ++ Nat.repr place)
  | unknownEncryption mode =>
    let message := "unknown value " ++ Text.quoted mode ++ " for \x60ssl_mode\x60"
    inSettings (inSettings message) :: because message
  | notANumber fault => because fault.message
  | notAnAddress => because "invalid IP address syntax"

end DatabaseUrlFault

namespace DatabaseUrl

/-- The octets of a text with escapes have to store a text. -/
def textFault? (text : String) : Option DatabaseUrlFault :=
  (Text.fault? (Text.percentDecode text.toList)).map fun (place, count) => .notText place count

/-- A number that has to be below a bound. -/
def numberFrom (bound value : Nat) : List Char → Option NumberFault
  | [] => none
  | c :: rest =>
    if !c.isDigit then some .invalidDigit
    else
      let value := value * 10 + (c.toNat - '0'.toNat)
      if bound ≤ value then some .tooLarge else numberFrom bound value rest

/-- What is wrong with a number that has to be below a bound. It may have a plus sign. -/
def numberFault? (bound : Nat) (text : String) : Option DatabaseUrlFault :=
  let fault? : Option NumberFault := match text.toList with
    | [] => some .empty
    | ['+'] => some .invalidDigit
    | '+' :: digits => numberFrom bound 0 digits
    | digits => numberFrom bound 0 digits
  fault?.map .notANumber

/-- How far a connection is encrypted. -/
def encryptionModes : List String :=
  ["disable", "allow", "prefer", "require", "verify-ca", "verify-full"]

/-- What is wrong with a parameter. One that is not known is passed over. -/
def parameterFault? (name value : String) : Option DatabaseUrlFault :=
  if name = "sslmode" ∨ name = "ssl-mode" then
    if encryptionModes.contains (String.ofList (value.toList.map Char.toLower)) then none
    else some (.unknownEncryption value)
  else if name = "statement-cache-capacity" then numberFault? (Nat.pow 2 64) value
  else if name = "port" then numberFault? (Nat.pow 2 16) value
  else if name = "hostaddr" then
    if Host.isAddress value.toList then none else some .notAnAddress
  else none

/-- A host that starts with an escaped slash is the path of a socket. -/
def hostFault? (host : Host) : Option DatabaseUrlFault :=
  match host with
  | .name text =>
    if (Text.percentDecode text.toList).head? = some '/'.toNat then textFault? text else none
  | _ => none

/-- What is wrong with the URL of a database: the first fault, from left to right. -/
def fault? (text : String) : Option DatabaseUrlFault :=
  match Url.parse text with
  | .error error => some (.malformed error)
  | .ok url =>
    let user := url.user.elim none fun user =>
      (textFault? user.name).or (user.password.elim none textFault?)
    let path := String.ofList ((Url.renderPath url.path).toList.dropWhile (· = '/'))
    ((url.host.elim none hostFault?).or user).or ((textFault? path).or
      ((Url.parameters (url.query.getD "")).findSome? fun (name, value) =>
        parameterFault? name value))

end DatabaseUrl

end TraceWatch
