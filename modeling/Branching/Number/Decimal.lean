import Branching.Number.Binary64

/-!
# Decimal reading and writing of binary64 numbers

Reading: `Binary64.ofDecimal` gives the word nearest to a decimal number, a tie
going to the even significand, and infinity beyond the largest finite word.

Writing: `Binary64.shortest` gives the decimal with the fewest significant
digits that reads back as the same word, and of those the one nearest to the
word's value. A decimal reads back as the word exactly when it lies in the
word's rounding interval: half a unit in the last place on either side, ends
included when the significand is even. `FloatStyle` then decides how such a
decimal is spelled.

All arithmetic is on natural numbers.
-/

namespace Branching

/-- A decimal number `digits * 10 ^ exponent`. -/
structure Decimal where
  digits : Nat
  exponent : Int
  deriving DecidableEq

namespace Decimal

/-- The quotient `n / d` rounded to the nearest natural number, a tie going to
the even one. -/
def roundHalfEven (n d : Nat) : Nat :=
  let q := n / d
  let r := n % d
  if d < 2 * r ∨ (2 * r = d ∧ q % 2 = 1) then q + 1 else q

/-- The number of decimal digits of `n`; zero has one. -/
def digitCount (n : Nat) : Nat := (Nat.toDigits 10 n).length

/-- The decimal digits of `n`, most significant first. -/
def digitsOf (n : Nat) : List Nat := (Nat.toDigits 10 n).map fun c => c.toNat - '0'.toNat

/-- Removes trailing zero digits, raising the exponent. -/
def normalize (d : Decimal) : Decimal :=
  go d.digits.log2.succ d.digits d.exponent
where
  go : Nat → Nat → Int → Decimal
  | 0, n, e => ⟨n, e⟩
  | fuel + 1, n, e => if n ≠ 0 ∧ n % 10 = 0 then go fuel (n / 10) (e + 1) else ⟨n, e⟩

end Decimal

namespace Binary64

/-- The word nearest to `± digits * 10 ^ exp10`. -/
def ofDecimal (negative : Bool) (digits : Nat) (exp10 : Int) : Binary64 :=
  if digits = 0 then zero negative else
  let num := digits * Nat.pow 10 exp10.toNat
  let den := Nat.pow 10 (-exp10).toNat
  -- `l` is the binary logarithm of `num / den`, rounded down
  let l₀ : Int := (num.log2 : Int) - den.log2
  let below := if 0 ≤ l₀ then num < den * Nat.pow 2 l₀.toNat else num * Nat.pow 2 (-l₀).toNat < den
  let l := if below then l₀ - 1 else l₀
  let e₀ : Int := max (l - 52) (-1074)
  let m₀ := Decimal.roundHalfEven (num * Nat.pow 2 (-e₀).toNat) (den * Nat.pow 2 e₀.toNat)
  let m := if m₀ = Nat.pow 2 53 then Nat.pow 2 52 else m₀
  let e := if m₀ = Nat.pow 2 53 then e₀ + 1 else e₀
  if 971 < e then infinity negative
  else if m < Nat.pow 2 52 then ofFields negative 0 m
  else ofFields negative (e + 1075).toNat (m - Nat.pow 2 52)

/-- The fewest-digit decimal inside the rounding interval of the positive value
`m * 2 ^ q`; `halfBelow` says that the gap to the next smaller word is half the
gap above (the significand is the smallest of its binade). -/
def shortestOf (m : Nat) (q : Int) (halfBelow : Bool) : Decimal :=
  -- the value is `a / b`
  let a := m * Nat.pow 2 q.toNat
  let b := Nat.pow 2 (-q).toNat
  -- interval ends in units of `2 ^ (q - 2)`
  let lowUnits := if halfBelow then 4 * m - 1 else 4 * m - 2
  let highUnits := 4 * m + 2
  let closed := m % 2 = 0
  -- decimal exponent of the leading digit
  let e₀ : Int := (Decimal.digitCount a : Int) - Decimal.digitCount b
  let small := if 0 ≤ e₀ then a < b * Nat.pow 10 e₀.toNat else a * Nat.pow 10 (-e₀).toNat < b
  let lead := if small then e₀ - 1 else e₀
  let inside (c : Nat) (k : Int) : Bool :=
    let lhs := c * Nat.pow 10 k.toNat * Nat.pow 2 (2 - q).toNat
    let unit := Nat.pow 2 (q - 2).toNat * Nat.pow 10 (-k).toNat
    if closed then lowUnits * unit ≤ lhs && lhs ≤ highUnits * unit
    else lowUnits * unit < lhs && lhs < highUnits * unit
  let attempt (n : Nat) : Option Decimal :=
    let k : Int := lead - n + 1
    let c := a * Nat.pow 10 (-k).toNat / (b * Nat.pow 10 k.toNat)
    let twice := 2 * a * Nat.pow 10 (-k).toNat
    let middle := (2 * c + 1) * b * Nat.pow 10 k.toNat
    match inside c k, inside (c + 1) k with
    | true, true =>
      if twice < middle then some ⟨c, k⟩
      else if middle < twice then some ⟨c + 1, k⟩
      else if c % 2 = 0 then some ⟨c, k⟩ else some ⟨c + 1, k⟩
    | true, false => some ⟨c, k⟩
    | false, true => some ⟨c + 1, k⟩
    | false, false => none
  let found := ((List.range 17).map (· + 1)).findSome? attempt
  Decimal.normalize (found.getD ⟨a * Nat.pow 10 (16 - lead).toNat / (b * Nat.pow 10 (lead - 16).toNat), lead - 16⟩)

/-- The shortest decimal of the magnitude of a finite word, nearest to it among
the shortest; zero for the zeros. -/
def shortest (x : Binary64) : Decimal :=
  match x.meaning with
  | .finite _ m q =>
    if m = 0 then ⟨0, 0⟩ else shortestOf m q (m = Nat.pow 2 52 && decide (1 < x.biasedExponent))
  | _ => ⟨0, 0⟩

end Binary64

/-- How a finite number is spelled: positional notation for decimal exponents
(of the leading digit) from `positionalFrom` up to below `positionalUpTo`,
scientific notation otherwise, with `exponentMark`, a sign on the exponent
and at least `exponentDigits` exponent digits; `pointZero` keeps ".0" on
whole numbers in positional notation. -/
structure FloatStyle where
  positionalFrom : Int
  positionalUpTo : Int
  exponentMark : String
  exponentDigits : Nat
  pointZero : Bool
  nanText : String
  infinityText : String

namespace FloatStyle

/-- Spells the decimal `d` (of magnitude, digits without trailing zeros). -/
def spellDecimal (style : FloatStyle) (negative : Bool) (d : Decimal) : String :=
  let ds := Nat.toDigits 10 d.digits
  let n := ds.length
  -- position of the decimal point counted from the first digit
  let point : Int := d.exponent + n
  let sign := if negative then "-" else ""
  if d.digits = 0 then sign ++ "0" ++ (if style.pointZero then ".0" else "")
  else if style.positionalFrom < point ∧ point ≤ style.positionalUpTo then
    if point ≤ 0 then
      sign ++ "0." ++ String.ofList (List.replicate (-point).toNat '0' ++ ds)
    else if n ≤ point.toNat then
      sign ++ String.ofList (ds ++ List.replicate (point.toNat - n) '0') ++
        (if style.pointZero then ".0" else "")
    else
      sign ++ String.ofList (ds.take point.toNat) ++ "." ++ String.ofList (ds.drop point.toNat)
  else
    let exp := point - 1
    let mantissa := match ds with
      | [] => "0"
      | [c] => String.singleton c
      | c :: rest => String.singleton c ++ "." ++ String.ofList rest
    let expDigits := Nat.toDigits 10 exp.natAbs
    let padded := List.replicate (style.exponentDigits - expDigits.length) '0' ++ expDigits
    sign ++ mantissa ++ style.exponentMark ++ (if exp < 0 then "-" else "+") ++ String.ofList padded

/-- Spells a word: NaN, the infinities, or its shortest decimal. -/
def spell (style : FloatStyle) (x : Binary64) : String :=
  match x.meaning with
  | .nan => style.nanText
  | .infinity negative => (if negative then "-" else "") ++ style.infinityText
  | .finite negative _ _ => style.spellDecimal negative x.shortest

end FloatStyle

end Branching
