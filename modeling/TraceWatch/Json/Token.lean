import TraceWatch.Json.Value
import TraceWatch.Text.Hexadecimal

/-!
# The words of a document

A document's text is a row of tokens. `Lexer.step` takes one character; `Json.tokens?` runs it
over a whole text and answers `none` for a text that holds anything but tokens and white space.
-/

namespace TraceWatch

/-- A word of a document's text. -/
inductive JsonToken where
  | openArray
  | closeArray
  | openObject
  | closeObject
  | comma
  | colon
  | scalar (value : Json)
  | string (value : String)
deriving Repr

namespace JsonNumber

/-- The greatest whole number that is kept exactly. -/
def maxWhole : Nat := Nat.pow 2 64 - 1

/-- `± significand · 10 ^ exponent`, computed in steps that each round: the significand is
rounded, then scaled by a rounded power of ten. No answer if it is too large. -/
def scaled? (negative : Bool) (significand : Nat) (exponent : Int) : Option Binary64 :=
  let start := Binary64.ofRatio negative significand 1
  let power (n : Nat) : Binary64 := .ofNat (Nat.pow 10 n)
  if start.isZero then some start
  else if 0 ≤ exponent then
    if 308 < exponent then none else
      let product := start.mul (power exponent.toNat)
      if product.isFinite then some product else none
  else if -308 ≤ exponent then some (start.div (power (-exponent).toNat))
  else if -616 ≤ exponent then
    some ((start.div (power 308)).div (power (-exponent - 308).toNat))
  else some (Binary64.zero negative)

/-- The digits that a significand keeps: as many as stay within `maxWhole`. The second component
counts the digits left over. -/
def takeDigits : Nat → List Char → Nat × Nat
  | value, [] => (value, 0)
  | value, c :: rest =>
    let next := value * 10 + (c.toNat - '0'.toNat)
    if next ≤ maxWhole then takeDigits next rest else (value, rest.length + 1)

/-- The exponent written after its mark. -/
def exponent? : List Char → Option (Bool × Nat)
  | '-' :: digits => if digits.isEmpty then none else all true digits
  | '+' :: digits => if digits.isEmpty then none else all false digits
  | digits => if digits.isEmpty then none else all false digits
where
  /-- The value of a text that holds digits only. -/
  all (negative : Bool) (digits : List Char) : Option (Bool × Nat) :=
    if digits.all Char.isDigit then
      some (negative, digits.foldl (fun n c => n * 10 + (c.toNat - '0'.toNat)) 0)
    else none

/-- A number with a fraction or an exponent, from its whole digits, its fraction digits and what
follows them. -/
def withExponent? (negative : Bool) (wholeDigits fraction tail : List Char) :
    Option Binary64 :=
  let (head, spare) := takeDigits 0 wholeDigits
  let (significand, unread) :=
    if spare = 0 then takeDigits head fraction else (head, fraction.length)
  let shift : Int := spare - ((fraction.length : Int) - unread)
  match tail with
  | [] => scaled? negative significand shift
  | _ :: rest =>
    match exponent? rest with
    | none => none
    | some (down, size) =>
      if Nat.pow 2 31 ≤ size then
        if significand ≠ 0 ∧ !down then none else some (Binary64.zero negative)
      else scaled? negative significand (if down then shift - size else shift + size)

/-- A number without its sign. Leading zeros are not allowed, and a point or an exponent mark is
followed by digits. -/
def magnitude? (negative : Bool) (text : List Char) : Option JsonNumber :=
  let digits := text.takeWhile Char.isDigit
  let rest := text.dropWhile Char.isDigit
  if digits.isEmpty ∨ (digits.head? = some '0' ∧ digits.length ≠ 1) then none else
    match rest with
    | [] =>
      let (value, spare) := takeDigits 0 digits
      if spare ≠ 0 then (scaled? negative value spare).map .binary
      else if !negative then some (.whole value)
      else if value = 0 ∨ Nat.pow 2 63 < value then some (.binary (.ofRatio true value 1))
      else some (.whole (-value))
    | '.' :: more =>
      let fraction := more.takeWhile Char.isDigit
      let tail := more.dropWhile Char.isDigit
      if fraction.isEmpty then none
      else if tail.isEmpty ∨ tail.head? = some 'e' ∨ tail.head? = some 'E' then
        (withExponent? negative digits fraction tail).map .binary
      else none
    | c :: _ =>
      if c = 'e' ∨ c = 'E' then (withExponent? negative digits [] rest).map .binary else none

/-- Reads the text of a number. -/
def parse? : List Char → Option JsonNumber
  | '-' :: rest => magnitude? true rest
  | rest => magnitude? false rest

end JsonNumber

namespace Json

/-- What the lexer is in the middle of. Texts are gathered back to front. -/
inductive Lexing where
  /-- Between two tokens. -/
  | between
  /-- In a word made of letters. -/
  | word (seen : List Char)
  /-- In a number. -/
  | number (seen : List Char)
  /-- In a string. -/
  | text (seen : List Char)
  /-- After the backslash of an escape. -/
  | escape (seen : List Char)
  /-- In the four digits of a code unit, after a first half if there is one. -/
  | unit (seen : List Char) (first : Option Nat) (value count : Nat)
  /-- After a first half, where the backslash of the second is due. -/
  | secondBackslash (seen : List Char) (first : Nat)
  /-- After that backslash, where the letter of the second half is due. -/
  | secondMark (seen : List Char) (first : Nat)

/-- The lexer's state: the tokens found, back to front, and what it is in the middle of. -/
structure Lexer where
  found : List JsonToken
  lexing : Lexing

/-- The character of a one-letter escape. -/
def escaped? : Char → Option Char
  | '"' => some '"'
  | '\\' => some '\\'
  | '/' => some '/'
  | 'b' => some '\x08'
  | 'f' => some '\x0c'
  | 'n' => some '\n'
  | 'r' => some '\r'
  | 't' => some '\t'
  | _ => none

/-- The token of a word made of letters. -/
def word? (seen : List Char) : Option JsonToken :=
  let word := String.ofList seen.reverse
  if word = "true" then some (.scalar (.bool true))
  else if word = "false" then some (.scalar (.bool false))
  else if word = "null" then some (.scalar .null)
  else none

/-- The token of a number's text. -/
def number? (seen : List Char) : Option JsonToken :=
  (JsonNumber.parse? seen.reverse).map fun n => .scalar (.number n)

/-- Whether a character can stand in a number. -/
def isNumberChar (c : Char) : Bool :=
  c.isDigit || c = '-' || c = '+' || c = '.' || c = 'e' || c = 'E'

/-- A character between two tokens. -/
def Lexer.start (found : List JsonToken) (c : Char) : Option Lexer :=
  match c with
  | '[' => some ⟨.openArray :: found, .between⟩
  | ']' => some ⟨.closeArray :: found, .between⟩
  | '\x7b' => some ⟨.openObject :: found, .between⟩
  | '\x7d' => some ⟨.closeObject :: found, .between⟩
  | ',' => some ⟨.comma :: found, .between⟩
  | ':' => some ⟨.colon :: found, .between⟩
  | '"' => some ⟨found, .text []⟩
  | c =>
    if c = ' ' ∨ c = '\t' ∨ c = '\n' ∨ c = '\r' then some ⟨found, .between⟩
    else if c = '-' ∨ c.isDigit then some ⟨found, .number [c]⟩
    else if c.isLower then some ⟨found, .word [c]⟩
    else none

/-- The state after a whole code unit of an escape. -/
def Lexer.afterUnit (found : List JsonToken) (seen : List Char) (first : Option Nat)
    (value : Nat) : Option Lexer :=
  match first with
  | some high =>
    if 0xDC00 ≤ value ∧ value < 0xE000 then
      some ⟨found,
        .text (Char.ofNat (0x10000 + (high - 0xD800) * 0x400 + (value - 0xDC00)) :: seen)⟩
    else none
  | none =>
    if 0xD800 ≤ value ∧ value < 0xDC00 then some ⟨found, .secondBackslash seen value⟩
    else if 0xDC00 ≤ value ∧ value < 0xE000 then none
    else some ⟨found, .text (Char.ofNat value :: seen)⟩

/-- Takes one character. -/
def Lexer.step (lexer : Lexer) (c : Char) : Option Lexer :=
  let found := lexer.found
  match lexer.lexing with
  | .between => Lexer.start found c
  | .word seen =>
    if c.isLower then some ⟨found, .word (c :: seen)⟩
    else (word? seen).bind fun token => Lexer.start (token :: found) c
  | .number seen =>
    if isNumberChar c then some ⟨found, .number (c :: seen)⟩
    else (number? seen).bind fun token => Lexer.start (token :: found) c
  | .text seen =>
    if c = '"' then some ⟨.string (String.ofList seen.reverse) :: found, .between⟩
    else if c = '\\' then some ⟨found, .escape seen⟩
    else if c.toNat < 0x20 then none
    else some ⟨found, .text (c :: seen)⟩
  | .escape seen =>
    if c = 'u' then some ⟨found, .unit seen none 0 0⟩
    else (escaped? c).map fun e => ⟨found, .text (e :: seen)⟩
  | .unit seen first value count =>
    (Text.hexValue? c).bind fun digit =>
      if count = 3 then Lexer.afterUnit found seen first (value * 16 + digit)
      else some ⟨found, .unit seen first (value * 16 + digit) (count + 1)⟩
  | .secondBackslash seen first => if c = '\\' then some ⟨found, .secondMark seen first⟩ else none
  | .secondMark seen first => if c = 'u' then some ⟨found, .unit seen (some first) 0 0⟩ else none

/-- The tokens found, once the text has ended. -/
def Lexer.finish (lexer : Lexer) : Option (List JsonToken) :=
  match lexer.lexing with
  | .between => some lexer.found.reverse
  | .word seen => (word? seen).map fun token => (token :: lexer.found).reverse
  | .number seen => (number? seen).map fun token => (token :: lexer.found).reverse
  | _ => none

/-- The tokens of a text. -/
def tokens? (text : List Char) : Option (List JsonToken) :=
  (text.foldlM Lexer.step ⟨[], .between⟩).bind Lexer.finish

end Json

end TraceWatch
