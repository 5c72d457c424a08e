import TraceWatch.Text.Octets
import TraceWatch.Text.Parts
import TraceWatch.Url.Punycode

/-!
# Domain names

A domain name is written in lower case and with ASCII characters only: a label with others is
written in Punycode, after the mark `xn--`. Letters that differ only in case or width are the
same, invisible characters do not count, and characters that would break the text of a URL are
refused.
-/

namespace TraceWatch.Url.Domain

/-- Ranges of letters that are written as others: the first and the last of a range, the step
between its letters, and the distance to what they are written as. Capital letters become small
ones, wide characters narrow ones. -/
def folded : List (Nat × Nat × Nat × Int) :=
  [(0xC0, 0xD6, 1, 32), (0xD8, 0xDE, 1, 32), (0x100, 0x12E, 2, 1), (0x132, 0x136, 2, 1),
   (0x139, 0x147, 2, 1), (0x14A, 0x176, 2, 1), (0x178, 0x178, 1, -121), (0x179, 0x17D, 2, 1),
   (0x1CD, 0x1DB, 2, 1), (0x1DE, 0x1EE, 2, 1), (0x1F8, 0x21E, 2, 1), (0x222, 0x232, 2, 1),
   (0x246, 0x24E, 2, 1), (0x386, 0x386, 1, 38), (0x388, 0x38A, 1, 37), (0x38C, 0x38C, 1, 64),
   (0x38E, 0x38F, 1, 63), (0x391, 0x3A1, 1, 32), (0x3A3, 0x3AB, 1, 32), (0x3D8, 0x3EE, 2, 1),
   (0x400, 0x40F, 1, 80), (0x410, 0x42F, 1, 32), (0x460, 0x480, 2, 1), (0x48A, 0x4BE, 2, 1),
   (0x4C1, 0x4CD, 2, 1), (0x4D0, 0x52E, 2, 1), (0x531, 0x556, 1, 48), (0x1E00, 0x1E94, 2, 1),
   (0x1EA0, 0x1EFE, 2, 1), (0x2460, 0x2468, 1, -9263), (0x24B6, 0x24CF, 1, -9301),
   (0x24D0, 0x24E9, 1, -9327), (0xFF01, 0xFF20, 1, -65248), (0xFF21, 0xFF3A, 1, -65216),
   (0xFF3B, 0xFF5E, 1, -65248)]

/-- The characters that end a label, besides the full stop itself. -/
def isWideStop (c : Char) : Bool := c = '\u3002' || c = '\uff0e' || c = '\uff61'

/-- The characters that do not count. -/
def isInvisible (c : Char) : Bool :=
  let n := c.toNat
  n = 0xAD || n = 0x34F || n = 0x200B || n = 0x2060 || n = 0x2064 || n = 0xFEFF
    || (0x180B ≤ n && n ≤ 0x180D) || (0xFE00 ≤ n && n ≤ 0xFE0F) || (0xE0100 ≤ n && n ≤ 0xE01EF)

/-- The character that another one is written as. -/
def fold (c : Char) : Char :=
  if c.toNat < 0x80 then c.toLower
  else if isWideStop c then '.'
  else
    match folded.find? fun (first, last, step, _) =>
      first ≤ c.toNat && c.toNat ≤ last && (c.toNat - first) % step = 0 with
    | some (_, _, _, distance) => Char.ofNat ((c.toNat : Int) + distance).toNat
    | none => c

/-- The ASCII characters that no domain name holds: control characters, the space and those that
separate the parts of a URL. -/
def isForbidden (c : Char) : Bool :=
  c.toNat ≤ 0x20 || c.toNat = 0x7F || "%#/:<>?@[\\]^|".toList.contains c

/-- The other characters that no domain name holds: control and format characters, spaces and
those without a meaning of their own. -/
def isExcluded (c : Char) : Bool :=
  let n := c.toNat
  (0x80 ≤ n && n ≤ 0xA0) || n = 0x61C || n = 0x1680 || (0x2000 ≤ n && n ≤ 0x200F)
    || (0x2028 ≤ n && n ≤ 0x202F) || (0x205F ≤ n && n ≤ 0x206F) || n = 0x3000
    || (0xE000 ≤ n && n ≤ 0xF8FF) || (0xFDD0 ≤ n && n ≤ 0xFDEF) || (0xFFF0 ≤ n && n ≤ 0xFFFF)
    || 0xE0000 ≤ n || n % 0x10000 = 0xFFFE || n % 0x10000 = 0xFFFF

/-- The marks that change the character before them. -/
def isMark (c : Char) : Bool :=
  let n := c.toNat
  (0x300 ≤ n && n ≤ 0x36F) || (0x483 ≤ n && n ≤ 0x489) || (0x591 ≤ n && n ≤ 0x5BD)
    || (0x64B ≤ n && n ≤ 0x65F) || (0x1AB0 ≤ n && n ≤ 0x1ACE) || (0x1DC0 ≤ n && n ≤ 0x1DFF)
    || (0x20D0 ≤ n && n ≤ 0x20F0) || (0xFE20 ≤ n && n ≤ 0xFE2F)

/-- Whether a label may be written in Punycode: it has characters outside ASCII, none of them
excluded or written as another one, and does not start with a mark. -/
def isInternational (label : List Char) : Bool :=
  label.any (0x80 ≤ ·.toNat) && !(label.head?).any isMark
    && label.all fun c => !isForbidden c && !isExcluded c && !isInvisible c && fold c = c

/-- The mark of a label in Punycode. -/
def mark : List Char := "xn--".toList

/-- The text of a label whose characters are folded. -/
def label? (label : List Char) : Option (List Char) :=
  if label.take 4 = mark then
    match Punycode.decode? (label.drop 4) with
    | some decoded =>
      if label.all (·.toNat < 0x80) && isInternational decoded then some label else none
    | none => none
  else if label.all (·.toNat < 0x80) then
    if label.any isForbidden then none else some label
  else if isInternational label then some (mark ++ Punycode.encode label)
  else none

/-- The labels of a name. -/
def labels (name : List Char) : List (List Char) := Text.parts (· = '.') name

/-- The domain name whose text the octets store. -/
def ofOctets? (octets : List Nat) : Option (List Char) := do
  let text ← Text.decode? octets
  let text := (text.filter fun c => !isInvisible c).map fold
  let labels ← (labels text).mapM label?
  return Text.joined '.' labels

end TraceWatch.Url.Domain
