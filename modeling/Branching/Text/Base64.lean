/-!
# Base64

Decoding of base64 text (the alphabet `A`–`Z`, `a`–`z`, `0`–`9`, `+`, `/`
and the pad `=`) in its lenient form: characters outside the alphabet are
skipped, and a pad that completes a group of four ends the data, whatever
follows. Pads that cannot complete a group are skipped too, and a data
character clears the pads counted so far.

The decoder keeps the place within the current group of four and the bits
left over from the previous character; a group of four characters gives three
bytes. At the end the last group must be complete, or be cut short by pads
after two or three characters: a single leftover character is refused (no
byte string encodes to it), and two or three without enough pads are an
incorrect padding.
-/

namespace Branching.Text

/-- The value of a base64 character. -/
def base64Value? (c : Char) : Option Nat :=
  if 'A' ≤ c && c ≤ 'Z' then some (c.toNat - 'A'.toNat)
  else if 'a' ≤ c && c ≤ 'z' then some (c.toNat - 'a'.toNat + 26)
  else if '0' ≤ c && c ≤ '9' then some (c.toNat - '0'.toNat + 52)
  else if c = '+' then some 62
  else if c = '/' then some 63
  else none

/-- Why base64 text could not be decoded. -/
inductive Base64Fault where
  /-- One character beyond a whole number of groups; the number of data
  characters. -/
  | strayCharacter (count : Nat)
  /-- A group cut short without the pads that close it. -/
  | incorrectPadding

/-- The decoder's state: the bytes so far (last first), the place in the
group, the leftover bits and the pads seen in this group. -/
structure Base64State where
  bytes : List UInt8
  place : Nat
  leftover : Nat
  pads : Nat

/-- Decodes the rest of a text from a state. -/
def base64Step (s : Base64State) : List Char → Except Base64Fault (List UInt8)
  | [] =>
    if s.place = 0 then .ok s.bytes.reverse
    else if s.place = 1 then .error (.strayCharacter (s.bytes.length / 3 * 4 + 1))
    else .error .incorrectPadding
  | c :: rest =>
    if c = '=' then
      if 2 ≤ s.place then
        let pads := s.pads + 1
        if 4 ≤ s.place + pads then .ok s.bytes.reverse
        else base64Step { s with pads } rest
      else base64Step s rest
    else
      match base64Value? c with
      | none => base64Step s rest
      | some v =>
        match s.place with
        | 0 => base64Step { s with place := 1, leftover := v, pads := 0 } rest
        | 1 =>
          base64Step ⟨(s.leftover * 4 + v / 16).toUInt8 :: s.bytes, 2, v % 16, 0⟩ rest
        | 2 =>
          base64Step ⟨(s.leftover * 16 + v / 4).toUInt8 :: s.bytes, 3, v % 4, 0⟩ rest
        | _ =>
          base64Step ⟨(s.leftover * 64 + v).toUInt8 :: s.bytes, 0, 0, 0⟩ rest

/-- Decodes base64 text leniently. -/
def decodeBase64 (cs : List Char) : Except Base64Fault (List UInt8) :=
  base64Step ⟨[], 0, 0, 0⟩ cs

end Branching.Text
