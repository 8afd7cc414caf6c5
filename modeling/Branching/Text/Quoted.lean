import Branching.Text.Printable
import Branching.Text.CodePoint

/-!
# Quoted texts

The written form of a text: the text between single quotes, or between double
quotes when it holds a single quote and no double quote. Inside, the chosen
quote and the backslash are escaped with a backslash, tab, line feed and
carriage return are written `\t`, `\n`, `\r`, and every other character that is
not printable is written as a hexadecimal escape of two, four or eight digits
of the code point it stands for (`Text.codeOf`).

Bytes are written the same way after a `b`, with every byte outside the
printable ASCII range as a two-digit hexadecimal escape.
-/

namespace Branching.Text

/-- The hexadecimal digits of `n`, lower case, padded with zeros to `width`. -/
def hexDigits (width n : Nat) : List Char :=
  let ds := Nat.toDigits 16 n
  List.replicate (width - ds.length) '0' ++ ds

/-- The quote character a text is written between. -/
def quoteFor (cs : List Char) : Char :=
  if cs.contains '\'' && !cs.contains '"' then '"' else '\''

/-- One character inside a text written between `q`. -/
def escapeChar (q c : Char) : List Char :=
  if c = q ∨ c = '\\' then ['\\', c]
  else if c = '\t' then ['\\', 't']
  else if c = '\n' then ['\\', 'n']
  else if c = '\r' then ['\\', 'r']
  else if isPrintable c then [c]
  else if codeOf c < 0x100 then '\\' :: 'x' :: hexDigits 2 (codeOf c)
  else if codeOf c < 0x10000 then '\\' :: 'u' :: hexDigits 4 (codeOf c)
  else '\\' :: 'U' :: hexDigits 8 (codeOf c)

/-- The written form of a text, quotes included. -/
def quote (cs : List Char) : List Char :=
  let q := quoteFor cs
  q :: cs.flatMap (escapeChar q) ++ [q]

/-- `quote` on strings. -/
def quoteString (s : String) : String := String.ofList (quote s.toList)

/-- One byte inside bytes written between `q`. -/
def escapeByte (q : Char) (b : UInt8) : List Char :=
  let c := Char.ofNat b.toNat
  if c = q ∨ c = '\\' then ['\\', c]
  else if c = '\t' then ['\\', 't']
  else if c = '\n' then ['\\', 'n']
  else if c = '\r' then ['\\', 'r']
  else if b.toNat < 0x20 ∨ 0x7f ≤ b.toNat then '\\' :: 'x' :: hexDigits 2 b.toNat
  else [c]

/-- The written form of bytes: `b` and the bytes between quotes. -/
def quoteBytes (bs : List UInt8) : String :=
  let q := if bs.contains 39 && !bs.contains 34 then '"' else '\''
  String.ofList ('b' :: q :: bs.flatMap (escapeByte q) ++ [q])

end Branching.Text
