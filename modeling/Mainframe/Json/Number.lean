import Mainframe.Json.Basic

/-
  JSON numbers.

  A literal of digits alone that is at most 2^64 - 1 is a natural number. Every
  other literal is kept as written if a double can hold it. Its size is judged
  as follows: digits are taken into a whole number as long as it stays below
  2^64, the remaining digits in front of the point and the exponent count as a
  power of ten, and the literal is too large if the product of the two, each of
  them rounded to 53 binary digits, rounds to 2^1024.
-/

namespace Mainframe.Json

/-- The largest natural number that a literal of digits may denote: 2^64 - 1. -/
def maxNatural : Nat := 18446744073709551615

/-- The value of a digit. -/
def digitValue (c : Char) : Nat := c.toNat - '0'.toNat

/-- The value of a run of digits behind digits that are worth `n`. -/
def decimalValue (n : Nat) (digits : List Char) : Nat :=
  digits.foldl (fun value c => 10 * value + digitValue c) n

/-- The parts of a number literal. -/
structure Literal where
  isNegative : Bool
  whole : List Char
  fraction : List Char
  exponentIsNegative : Bool
  exponent : List Char
  hasOnlyDigits : Bool

/-- The literal without the sign at its front, and whether that is a minus. -/
def splitSign : List Char → Bool × List Char
  | [] => (false, [])
  | c :: s => if c = '-' then (true, s) else if c = '+' then (false, s) else (false, c :: s)

/-- The digits behind a point. -/
def fractionOf : List Char → List Char
  | [] => []
  | c :: s => if c = '.' then s.takeWhile Char.isDigit else []

/-- The parts of a literal that is written by the rules. -/
def Literal.ofChars (s : List Char) : Literal :=
  let signed := splitSign s
  let tail := signed.2.dropWhile Char.isDigit
  let power := splitSign ((tail.dropWhile (fun c => c != 'e' && c != 'E')).drop 1)
  { isNegative := signed.1
    whole := signed.2.takeWhile Char.isDigit
    fraction := fractionOf tail
    exponentIsNegative := power.1
    exponent := power.2
    hasOnlyDigits := s.all Char.isDigit }

/-- The digits are taken into the number while it stays below 2^64; the second
result is how many are left. -/
def takeDigits (n : Nat) : List Char → Nat × Nat
  | [] => (n, 0)
  | c :: digits =>
    if 10 * n + digitValue c ≤ maxNatural then takeDigits (10 * n + digitValue c) digits
    else (n, digits.length + 1)

/-- The nearest number of at most 53 binary digits and a power of two, the even
one of two that are equally near. -/
def roundToDouble (n : Nat) : Nat :=
  if n < Nat.pow 2 53 then n
  else
    let unit := Nat.pow 2 (n.log2 - 52)
    let low := n / unit
    let doubled := 2 * (n % unit)
    let up := decide (unit < doubled) || (doubled == unit && low % 2 == 1)
    (if up then low + 1 else low) * unit

/-- Whether the literal is beyond the range of a double. -/
def Literal.isTooLarge (l : Literal) : Bool :=
  let whole := takeDigits 0 l.whole
  let all := takeDigits whole.1 l.fraction
  let exponent := (decimalValue 0 l.exponent : Int)
  let power : Int := (whole.2 : Int) - ((l.fraction.length - all.2 : Nat) : Int)
    + (if l.exponentIsNegative then -exponent else exponent)
  if all.1 = 0 ∨ power < 0 then false
  else if 308 < power then true
  else decide (Nat.pow 2 1024 - Nat.pow 2 970
    ≤ roundToDouble all.1 * roundToDouble (Nat.pow 10 power.toNat))

/-- The number that the literal denotes, if there is one. -/
def numberOf (literal : List Char) : Option Json :=
  if literal.all Char.isDigit && decide (decimalValue 0 literal ≤ maxNatural) then
    some (.natural (decimalValue 0 literal))
  else if (Literal.ofChars literal).isTooLarge then none
  else some (.decimal (String.ofList literal))

end Mainframe.Json
