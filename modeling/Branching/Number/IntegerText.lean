import Branching.Text.Space
import Branching.Text.Digit
import Branching.Error

/-!
# Integers written as text

An integer text is an optional sign followed by decimal digits of any script,
where a single underscore may separate two digits; white space around it is
ignored. `readInteger?` reads such a text and refuses everything else,
including texts with more than `integerDigitLimit` digits.
-/

namespace Branching.Number

open Text

/-- Reads digits, each pair possibly separated by one underscore; `acc` is the
value so far and `afterDigit` tells whether the previous character was a digit. -/
def readDigits : List Char → Nat → Bool → Option Nat
  | [], acc, afterDigit => if afterDigit then some acc else none
  | '_' :: rest, acc, afterDigit =>
    if afterDigit then
      match rest with
      | c :: _ => if isDigit c then readDigits rest acc false else none
      | [] => none
    else none
  | c :: rest, acc, _ =>
    match digitValue? c with
    | some d => readDigits rest (acc * 10 + d) true
    | none => none

/-- Reads an integer text: white space, an optional sign, digits with single
underscores between them, white space (as `stripNumber` counts it). -/
def readInteger? (cs : List Char) : Option Int :=
  if integerDigitLimit < (cs.filter isDigit).length then none else
  match stripNumber cs with
  | '-' :: rest => (readDigits rest 0 false).map fun n => -(n : Int)
  | '+' :: rest => (readDigits rest 0 false).map fun n => (n : Int)
  | rest => (readDigits rest 0 false).map fun n => (n : Int)

/-- The value of a digit in a base above ten: a decimal digit of any script,
or an ASCII letter counting from ten. -/
def radixDigit? (c : Char) : Option Nat :=
  match digitValue? c with
  | some d => some d
  | none =>
    if 'a' ≤ c && c ≤ 'z' then some (c.toNat - 'a'.toNat + 10)
    else if 'A' ≤ c && c ≤ 'Z' then some (c.toNat - 'A'.toNat + 10)
    else none

/-- Reads digits of a base, each pair possibly separated by one underscore,
like `readDigits`. -/
def readRadixDigits (base : Nat) : List Char → Nat → Bool → Option Nat
  | [], acc, afterDigit => if afterDigit then some acc else none
  | '_' :: rest, acc, afterDigit =>
    if afterDigit then
      match rest with
      | c :: _ => if ((radixDigit? c).filter (· < base)).isSome then readRadixDigits base rest acc false else none
      | [] => none
    else none
  | c :: rest, acc, _ =>
    match (radixDigit? c).filter (· < base) with
    | some d => readRadixDigits base rest (acc * base + d) true
    | none => none

/-- The letter that marks a base in an integer text: `b`, `o` or `x`. -/
def baseMark? (base : Nat) : Option Char :=
  if base = 2 then some 'b' else if base = 8 then some 'o' else if base = 16 then some 'x' else none

/-- Reads an integer text in a base from 2 to 36: white space, an optional
sign, for bases 2, 8 and 16 optionally `0` and the base's letter (in either
case) followed by at most one underscore, digits of the base with single
underscores between them, white space. -/
def readIntegerIn? (base : Nat) (cs : List Char) : Option Int :=
  let (negative, body) := match stripNumber cs with
    | '-' :: rest => (true, rest)
    | '+' :: rest => (false, rest)
    | rest => (false, rest)
  let digits := match baseMark? base, body with
    | some m, '0' :: c :: rest =>
      if c.toLower = m then (match rest with | '_' :: more => more | _ => rest) else body
    | _, _ => body
  (readRadixDigits base digits 0 false).map fun n => if negative then -(n : Int) else n

/-- The number of decimal digits that start a decimal integer text, after its
white space and sign: the count that the limit on integer texts is checked
against. -/
def leadingDigitCount (cs : List Char) : Nat :=
  let body := match cs.dropWhile (isNumberSpace cs) with
    | '-' :: rest | '+' :: rest => rest
    | rest => rest
  (body.takeWhile fun c => isDigit c || c = '_').countP isDigit

end Branching.Number
