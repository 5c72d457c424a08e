/-!
# Base 64

Octets written with 64 letters, three octets to four letters, the last group filled up with `=`.
-/

namespace TraceWatch.Text

/-- The letter of a value below 64. -/
def base64Letter (n : Nat) : Char :=
  if n < 26 then Char.ofNat ('A'.toNat + n)
  else if n < 52 then Char.ofNat ('a'.toNat + (n - 26))
  else if n < 62 then Char.ofNat ('0'.toNat + (n - 52))
  else if n = 62 then '+' else '/'

/-- The letters of a row of octets. -/
def base64 : List Nat → List Char
  | [] => []
  | [a] => [base64Letter (a / 4), base64Letter (a % 4 * 16), '=', '=']
  | [a, b] => [base64Letter (a / 4), base64Letter (a % 4 * 16 + b / 16),
      base64Letter (b % 16 * 4), '=']
  | a :: b :: c :: rest => base64Letter (a / 4) :: base64Letter (a % 4 * 16 + b / 16)
      :: base64Letter (b % 16 * 4 + c / 64) :: base64Letter (c % 64) :: base64 rest

end TraceWatch.Text
