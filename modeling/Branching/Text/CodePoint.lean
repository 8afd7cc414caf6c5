/-!
# Characters by code point

A text of the engine may hold a lone UTF-16 surrogate (a code point from
U+D800 to U+DFFF), which an escape such as `\uD800` in a double-quoted YAML
scalar gives. A `Char` cannot be a surrogate, so the library keeps each one as
the character at the same offset from U+10F800, the top block of the last
private-use plane, and a writer of texts gives the surrogate back. The top
block keeps every surrogate above every character below U+E000, as code
point order wants.
-/

namespace Branching.Text

/-- The code point that stands for U+D800. -/
def surrogateBase : Nat := 0x10F800

/-- The character of a code point below U+110000, a surrogate by its stand-in. -/
def charOfCode (n : Nat) : Char :=
  if 0xD800 ≤ n && n < 0xE000 then Char.ofNat (surrogateBase + (n - 0xD800)) else Char.ofNat n

/-- The surrogate a character stands for, if it stands for one. -/
def surrogateOf? (c : Char) : Option Nat :=
  if surrogateBase ≤ c.toNat then some (c.toNat - surrogateBase + 0xD800) else none

/-- The code point a character stands for: a surrogate for its stand-in,
otherwise its own. -/
def codeOf (c : Char) : Nat := (surrogateOf? c).getD c.toNat

theorem toNat_charOfNat (m : Nat) (h : m.isValidChar) : (Char.ofNat m).toNat = m := by
  unfold Char.ofNat
  rw [dif_pos h]
  unfold Char.ofNatAux Char.toNat
  simp

theorem surrogateOf?_charOfCode (n : Nat) (h₁ : 0xD800 ≤ n) (h₂ : n < 0xE000) :
    surrogateOf? (charOfCode n) = some n := by
  have hv : (surrogateBase + (n - 0xD800)).isValidChar := by
    unfold surrogateBase Nat.isValidChar
    omega
  have hc : (charOfCode n).toNat = surrogateBase + (n - 0xD800) := by
    simp only [charOfCode, show (0xD800 ≤ n && n < 0xE000) = true by simp; omega, if_true]
    exact toNat_charOfNat _ hv
  simp only [surrogateOf?, hc, surrogateBase]
  split <;> first | omega | (congr 1; omega)

end Branching.Text
