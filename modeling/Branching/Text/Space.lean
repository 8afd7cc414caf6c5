import Branching.Text.Class

/-!
# White space

White space is what trimming removes and what separates words of a header: the
Unicode white-space characters together with the ASCII information separators
U+001C to U+001F. `strip` removes it from both ends of a text.

Main statements: every character that core calls white space is white space
here (`isSpace_of_isWhitespace`), and `strip` never lengthens a text.
-/

namespace Branching.Text

/-- Code point ranges of white space. -/
def spaceRanges : List (Nat × Nat) :=
  [(0x09, 0x0d), (0x1c, 0x20), (0x85, 0x85), (0xa0, 0xa0), (0x1680, 0x1680),
   (0x2000, 0x200a), (0x2028, 0x2029), (0x202f, 0x202f), (0x205f, 0x205f),
   (0x3000, 0x3000)]

/-- Whether a character is white space. -/
def isSpace (c : Char) : Bool := inRanges spaceRanges c.toNat

/-- Space, tab, line feed and carriage return are white space. -/
theorem isSpace_of_isWhitespace {c : Char} (h : c.isWhitespace = true) : isSpace c = true := by
  simp only [Char.isWhitespace, Bool.or_eq_true, decide_eq_true_eq] at h
  rcases h with ((h | h) | h) | h <;> subst h <;> decide

/-- The text without its leading white space. -/
def dropSpace (cs : List Char) : List Char := cs.dropWhile isSpace

/-- The text without white space at either end. -/
def strip (cs : List Char) : List Char := (dropSpace (dropSpace cs).reverse).reverse

/-- `strip` on strings. -/
def stripString (s : String) : String := String.ofList (strip s.toList)

/-- A string without the white space at its end. -/
def stripEnd (s : String) : String := String.ofList (dropSpace s.toList.reverse).reverse

/-- Whether a character is ASCII white space: tab to carriage return, or the
space. -/
def isAsciiSpace (c : Char) : Bool := (9 ≤ c.toNat && c.toNat ≤ 13) || c = ' '

/-- Whether every character of a text is ASCII. -/
def isAscii (cs : List Char) : Bool := cs.all fun c => c.toNat < 128

/-- Whether a character is white space around a number text `cs`: in a text
of ASCII characters only ASCII white space counts (not the information
separators); in any other text every white space character does. -/
def isNumberSpace (cs : List Char) (c : Char) : Bool :=
  if isAscii cs then isAsciiSpace c else isSpace c

/-- A number text without the white space at either end. -/
def stripNumber (cs : List Char) : List Char :=
  ((cs.dropWhile (isNumberSpace cs)).reverse.dropWhile (isNumberSpace cs)).reverse

/-- Whether a text is empty once stripped, that is, made of white space only. -/
def isAllSpace (cs : List Char) : Bool := cs.all isSpace

theorem length_dropSpace_le (cs : List Char) : (dropSpace cs).length ≤ cs.length := by
  induction cs with
  | nil => simp [dropSpace]
  | cons c r ih =>
    simp only [dropSpace, List.dropWhile_cons] at *
    split
    · exact Nat.le_succ_of_le ih
    · exact Nat.le_refl _

theorem length_strip_le (cs : List Char) : (strip cs).length ≤ cs.length := by
  simp only [strip, List.length_reverse]
  exact Nat.le_trans (length_dropSpace_le _) (by
    simpa using length_dropSpace_le cs)

end Branching.Text
