import TraceWatch.Text.Hexadecimal

/-!
# Texts in quotes

A text in double quotes as messages show it: double quotes and backslashes have a backslash before
them, and a character that cannot be seen is shown by its number. The path of a file has a backslash
before single quotes, too.
-/

namespace TraceWatch.Text

/-- Whether a character cannot be seen on its own: control and format characters, blanks other
than the space, marks that change the character before them, and characters without a meaning of
their own. -/
def isUnseen (c : Char) : Bool :=
  let n := c.toNat
  n < 0x20 || (0x7F ≤ n && n ≤ 0xA0) || n = 0xAD || (0x300 ≤ n && n ≤ 0x36F)
    || (0x483 ≤ n && n ≤ 0x489) || (0x591 ≤ n && n ≤ 0x5BD) || n = 0x61C || n = 0x1680
    || n = 0x180E || (0x2000 ≤ n && n ≤ 0x200F) || (0x2028 ≤ n && n ≤ 0x202F)
    || (0x205F ≤ n && n ≤ 0x206F) || (0x20D0 ≤ n && n ≤ 0x20F0) || n = 0x3000
    || (0xE000 ≤ n && n ≤ 0xF8FF) || (0xFE00 ≤ n && n ≤ 0xFE0F) || (0xFE20 ≤ n && n ≤ 0xFE2F)
    || n = 0xFEFF || (0xFFF0 ≤ n && n ≤ 0xFFFB) || (0xFFFE ≤ n && n ≤ 0xFFFF) || 0xE0000 ≤ n

/-- One character between the quotes. -/
def quotedChar (c : Char) : List Char :=
  match c with
  | '\x00' => ['\\', '0']
  | '\t' => ['\\', 't']
  | '\r' => ['\\', 'r']
  | '\n' => ['\\', 'n']
  | '"' => ['\\', '"']
  | '\\' => ['\\', '\\']
  | c =>
    if isUnseen c then
      ['\\', 'u', '\x7b'] ++ Nat.toDigits 16 c.toNat ++ ['\x7d']
    else [c]

/-- A text in quotes. -/
def quoted (text : String) : String :=
  String.ofList ('"' :: text.toList.flatMap quotedChar ++ ['"'])

/-- A path in quotes. -/
def quotedPath (path : String) : String :=
  String.ofList ('"' :: (path.toList.flatMap fun c =>
    if c = '\'' then ['\\', c] else quotedChar c) ++ ['"'])

end TraceWatch.Text
