import TraceWatch.Json.Value
import TraceWatch.Number.Layout
import TraceWatch.Text.Hexadecimal

/-!
# Writing a document

`Json.render` writes a document without any white space. Strings are escaped only where they have
to be: quotes, backslashes and control characters.
-/

namespace TraceWatch.Json

/-- One character inside a string. -/
def escapeChar (c : Char) : List Char :=
  if c = '"' then ['\\', '"']
  else if c = '\\' then ['\\', '\\']
  else if c = '\x08' then ['\\', 'b']
  else if c = '\x0c' then ['\\', 'f']
  else if c = '\n' then ['\\', 'n']
  else if c = '\r' then ['\\', 'r']
  else if c = '\t' then ['\\', 't']
  else if c.toNat < 0x20 then
    ['\\', 'u', '0', '0', Text.hexDigit (c.toNat / 16), Text.hexDigit (c.toNat % 16)]
  else [c]

/-- A string with its quotes. -/
def renderString (s : String) : List Char := '"' :: s.toList.flatMap escapeChar ++ ['"']

/-- A number. One that is not finite has no number to stand for it. -/
def renderNumber : JsonNumber → List Char
  | .whole i => (toString i).toList
  | .binary x => if x.isFinite then (Layout.document.render x).toList else "null".toList

mutual

/-- The characters of a document. -/
def chars : Json → List Char
  | .null => "null".toList
  | .bool true => "true".toList
  | .bool false => "false".toList
  | .number n => renderNumber n
  | .string s => renderString s
  | .array items => '[' :: itemChars true items
  | .object fields => '\x7b' :: fieldChars true fields

/-- The items of an array and its closing bracket. -/
def itemChars (first : Bool) : List Json → List Char
  | [] => [']']
  | v :: rest => (if first then [] else [',']) ++ chars v ++ itemChars false rest

/-- The fields of an object and its closing brace. -/
def fieldChars (first : Bool) : List (String × Json) → List Char
  | [] => ['\x7d']
  | (k, v) :: rest =>
    (if first then [] else [',']) ++ renderString k ++ ':' :: chars v ++ fieldChars false rest

end

/-- The text of a document. -/
def render (document : Json) : String := String.ofList document.chars

end TraceWatch.Json
