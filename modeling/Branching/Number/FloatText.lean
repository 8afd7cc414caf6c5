import Branching.Number.Decimal
import Branching.Text.Space
import Branching.Text.Digit

/-!
# Floating-point numbers written as text

A float text is, between white space, an optional sign and then either one of
the words `inf`, `infinity` and `nan` in any case, or a decimal number: digits
with an optional point (at least one digit on either side of it) and an
optional exponent `e` with an optional sign and digits. An underscore may
stand between two digits. Digits may be those of any script.

The number read is the binary64 word nearest to the decimal (`ofDecimal`);
exponents far outside the range of binary64 give zero or infinity at once,
so reading never builds a power of ten larger than the text warrants.
-/

namespace Branching.Number

open Text

/-- Whether every underscore of a text stands between two digits. -/
def underscoresBetweenDigits : List Char → Bool
  | a :: '_' :: b :: rest => isDigit a && isDigit b && underscoresBetweenDigits (b :: rest)
  | '_' :: _ => false
  | [_, '_'] => false
  | _ :: rest => underscoresBetweenDigits rest
  | [] => true
termination_by cs => cs.length

/-- The value of a run of decimal digits. -/
def digitsNumber (cs : List Char) : Nat :=
  cs.foldl (fun acc c => acc * 10 + (digitValue? c).getD 0) 0

/-- The word nearest to `± digits * 10 ^ exp10`, with exponents beyond the
range of binary64 cut short. -/
def nearestWord (negative : Bool) (digits : Nat) (exp10 : Int) : Binary64 :=
  if digits = 0 then Binary64.zero negative else
  let magnitude := exp10 + (Nat.toDigits 10 digits).length
  if 311 < magnitude then Binary64.infinity negative
  else if magnitude < -330 then Binary64.zero negative
  else Binary64.ofDecimal negative digits exp10

/-- Reads the decimal part of a float text (after its sign), without
underscores. -/
def readDecimal? (negative : Bool) (cs : List Char) : Option Binary64 :=
  let whole := cs.takeWhile isDigit
  let afterWhole := cs.drop whole.length
  let (frac, afterFrac) := match afterWhole with
    | '.' :: rest => (rest.takeWhile isDigit, rest.drop (rest.takeWhile isDigit).length)
    | rest => ([], rest)
  if whole.isEmpty && frac.isEmpty then none else
  let exponent : Option Int := match afterFrac with
    | [] => some 0
    | e :: rest =>
      if e = 'e' || e = 'E' then
        let (expNegative, ds) := match rest with
          | '-' :: more => (true, more)
          | '+' :: more => (false, more)
          | more => (false, more)
        if !ds.isEmpty && ds.all isDigit then
          some (if expNegative then -(digitsNumber ds : Int) else digitsNumber ds)
        else none
      else none
  exponent.map fun e =>
    nearestWord negative (digitsNumber (whole ++ frac)) (e - frac.length)

/-- Reads a float text; a NaN it names carries `nanTag`, so that every NaN
read is a word of its own. -/
def readFloat? (nanTag : Nat) (cs : List Char) : Option Binary64 :=
  let body := stripNumber cs
  let (negative, unsignedBody) := match body with
    | '-' :: rest => (true, rest)
    | '+' :: rest => (false, rest)
    | rest => (false, rest)
  let word := String.ofList (unsignedBody.map Char.toLower)
  if word = "inf" || word = "infinity" then some (Binary64.infinity negative)
  else if word = "nan" then some (Binary64.taggedNaN negative nanTag)
  else if underscoresBetweenDigits unsignedBody then
    readDecimal? negative (unsignedBody.filter (· != '_'))
  else none

end Branching.Number
