/-!
# Binary64 numbers

A `Binary64` is an IEEE 754 double-precision word. The library never computes
with hardware floating point: a word is decoded into its sign, significand and
binary exponent, and everything else (ordering, equality with integers,
truncation) is exact integer arithmetic on that decoding.

A finite word stands for `± significand * 2 ^ exponent`. Words with the
all-ones exponent are the two infinities and NaN. Every NaN word means the same
(`meaning` is `.nan`), but the word keeps its payload, so two NaN words can
still be told apart as words.
-/

namespace Branching

/-- An IEEE 754 binary64 word. -/
structure Binary64 where
  /-- The 64 bits of the word. -/
  bits : UInt64
  deriving DecidableEq

/-- What a binary64 word stands for. -/
inductive Binary64.Meaning where
  | nan
  | infinity (negative : Bool)
  | finite (negative : Bool) (significand : Nat) (exponent : Int)
  deriving DecidableEq

namespace Binary64

/-- The sign bit. -/
def negative (x : Binary64) : Bool := decide (Nat.pow 2 63 ≤ x.bits.toNat)

/-- The eleven exponent bits, as a number. -/
def biasedExponent (x : Binary64) : Nat := x.bits.toNat / Nat.pow 2 52 % Nat.pow 2 11

/-- The fifty-two fraction bits, as a number. -/
def fraction (x : Binary64) : Nat := x.bits.toNat % Nat.pow 2 52

/-- The value a word stands for. Subnormal words have exponent `-1074` and no
hidden bit; normal words have the hidden bit `2 ^ 52`. -/
def meaning (x : Binary64) : Meaning :=
  if x.biasedExponent = 2047 then
    if x.fraction = 0 then .infinity x.negative else .nan
  else if x.biasedExponent = 0 then
    .finite x.negative x.fraction (-1074)
  else
    .finite x.negative (Nat.pow 2 52 + x.fraction) ((x.biasedExponent : Int) - 1075)

/-- The word with the given fields; fields out of range wrap. -/
def ofFields (negative : Bool) (biasedExponent fraction : Nat) : Binary64 :=
  ⟨UInt64.ofNat ((if negative then Nat.pow 2 63 else 0) + biasedExponent * Nat.pow 2 52 + fraction)⟩

/-- Not a number, the quiet NaN whose payload is `tag`. -/
def taggedNaN (negative : Bool) (tag : Nat) : Binary64 := ofFields negative 2047 (Nat.pow 2 51 + tag % Nat.pow 2 51)

/-- Not a number, with the empty payload. -/
def nan : Binary64 := taggedNaN false 0

/-- An infinity. -/
def infinity (negative : Bool) : Binary64 := ofFields negative 2047 0

/-- A zero. -/
def zero (negative : Bool) : Binary64 := ofFields negative 0 0

/-- Whether the word is NaN. -/
def isNaN (x : Binary64) : Bool := x.meaning = .nan

/-- The integer part of a finite word, rounding toward zero. -/
def truncate? (x : Binary64) : Option Int :=
  match x.meaning with
  | .finite negative m e =>
    let magnitude : Nat := if 0 ≤ e then m * Nat.pow 2 e.toNat else m / Nat.pow 2 (-e).toNat
    some (if negative then -(magnitude : Int) else magnitude)
  | _ => none

end Binary64

/-- A number on the extended line that can be ordered exactly: minus infinity,
`mantissa * 2 ^ exponent`, or plus infinity. -/
inductive Dyadic where
  | negInfinity
  | scaled (mantissa : Int) (exponent : Int)
  | posInfinity

namespace Dyadic

/-- The rank of the infinities against the finite numbers. -/
def rank : Dyadic → Nat
  | negInfinity => 0
  | scaled _ _ => 1
  | posInfinity => 2

/-- The exact order of two numbers. -/
def compare : Dyadic → Dyadic → Ordering
  | scaled m e, scaled n f =>
    let low := min e f
    Ord.compare (m * Nat.pow 2 (e - low).toNat) (n * Nat.pow 2 (f - low).toNat)
  | a, b => Ord.compare a.rank b.rank

/-- An integer as a number. -/
def ofInt (n : Int) : Dyadic := scaled n 0

end Dyadic

/-- A binary64 word as a number, unless it is NaN. -/
def Binary64.toDyadic? (x : Binary64) : Option Dyadic :=
  match x.meaning with
  | .nan => none
  | .infinity negative => some (if negative then .negInfinity else .posInfinity)
  | .finite negative m e => some (.scaled (if negative then -(m : Int) else m) e)

end Branching
