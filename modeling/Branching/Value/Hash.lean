import Branching.Value.Basic

/-!
# Hash codes of values

The 64-bit hash code of a value that can be a set item. Numbers hash by their
exact value modulo the Mersenne prime `2 ^ 61 - 1`, so that equal numbers of
different kinds (`1`, `1.0`, `true`) share a code: a number `± m * 2 ^ e` has
the code `± (m * 2 ^ (e mod 61) mod (2 ^ 61 - 1))`, because `2 ^ 61` is one
modulo the prime. A negative code is kept as its two's complement, and `-1` is
never a code (it becomes `-2`). The infinities have the codes `± 314159`.

A tuple mixes its items' codes with a multiply-rotate round per item and adds
its length, and a range of two or more integers hashes as the tuple of its
length, first integer and step. Texts, nil, NaN, method literals and short
ranges have no fixed code.
-/

namespace Branching

namespace Hash

/-- The modulus of number codes, the Mersenne prime `2 ^ 61 - 1`. -/
def modulus : Nat := Nat.pow 2 61 - 1

/-- The code of a signed residue: its two's complement when negative, with
`-1` moved to `-2`. -/
def signed (negative : Bool) (residue : Nat) : UInt64 :=
  if negative then
    if residue = 1 then UInt64.ofNat (Nat.pow 2 64 - 2) else UInt64.ofNat (Nat.pow 2 64 - residue)
  else UInt64.ofNat residue

/-- The code of the number `± m * 2 ^ e`. -/
def scaled (negative : Bool) (m : Nat) (e : Int) : UInt64 :=
  signed negative (m % modulus * Nat.pow 2 (e % 61).toNat % modulus)

/-- The code of an integer. -/
def int (n : Int) : UInt64 := scaled (decide (n < 0)) n.natAbs 0

/-- The code of a binary64 number; NaN has none. -/
def binary64 (x : Binary64) : Option UInt64 :=
  match x.meaning with
  | .nan => none
  | .infinity negative => some (signed negative 314159)
  | .finite negative m e => some (scaled negative m e)

/-- The three primes of the tuple mixing rounds. -/
def prime1 : UInt64 := 11400714785074694791
/-- The multiplier of an item's code. -/
def prime2 : UInt64 := 14029467366897019727
/-- The starting value, also folded into the length. -/
def prime5 : UInt64 := 2870177450012600261

/-- One mixing round: add the item's code times `prime2`, rotate left by 31,
multiply by `prime1`. -/
def mix (acc lane : UInt64) : UInt64 :=
  let a := acc + lane * prime2
  ((a <<< 31) ||| (a >>> 33)) * prime1

/-- The code of a tuple from the codes of its items. -/
def tuple (lanes : List UInt64) : UInt64 :=
  let acc := lanes.foldl mix prime5 + (UInt64.ofNat lanes.length ^^^ (prime5 ^^^ 3527539))
  if acc = UInt64.ofNat (Nat.pow 2 64 - 1) then 1546275796 else acc

end Hash

namespace Value

mutual

/-- The hash code of a value, where it is fixed. -/
def hashCode? : Value → Option UInt64
  | bool b => some (if b then 1 else 0)
  | int n => some (Hash.int n)
  | float x => Hash.binary64 x
  | tuple xs => (hashCodes? xs).map Hash.tuple
  | range first last =>
    if 2 ≤ rangeSize first last then
      some (Hash.tuple [Hash.int (rangeSize first last), Hash.int first, Hash.int 1])
    else none
  | _ => none

/-- The hash codes of all items, when each has one. -/
def hashCodes? : List Value → Option (List UInt64)
  | [] => some []
  | x :: xs =>
    match hashCode? x, hashCodes? xs with
    | some c, some cs => some (c :: cs)
    | _, _ => none

end

end Value

end Branching
