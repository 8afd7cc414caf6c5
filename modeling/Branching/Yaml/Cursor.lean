import Branching.Yaml.Mark

/-!
# Reading position in a YAML text

A cursor walks the characters of a document and keeps the index, line and
column of the next one. Past the end it reads NUL, which a document cannot
hold, so every scanning loop that stops at the end of a line also stops at the
end of the text.

Line breaks are the line feed and the carriage return (alone, or before a line
feed, where the pair counts once); the next-line character and the line and
paragraph separators are ordinary characters. A byte order mark takes no
column.
-/

namespace Branching.Yaml

/-- Whether a character breaks a line. -/
def isBreak (c : Char) : Bool := c = '\r' || c = '\n'

/-- Whether a character ends a line: a break, or the end of the text. -/
def isLineEnd (c : Char) : Bool := c = '\x00' || isBreak c

/-- Whether a character ends a word: a line end, a space or a tab. -/
def isBlankEnd (c : Char) : Bool := isLineEnd c || c = ' ' || c = '\t'

/-- Whether a character ends a directive or tag word: a line end or a space
(a tab does not). -/
def isSpaceEnd (c : Char) : Bool := isLineEnd c || c = ' '

/-- Whether a character is an ASCII letter or digit, `-` or `_`: the
characters of tag handles. -/
def isWordChar (c : Char) : Bool :=
  ('0' ≤ c && c ≤ '9') || ('A' ≤ c && c ≤ 'Z') || ('a' ≤ c && c ≤ 'z') || c = '-' || c = '_'

/-- Whether a character may stand in a directive name: those of tag handles,
`:` and `.`. -/
def isDirectiveChar (c : Char) : Bool := isWordChar c || c = ':' || c = '.'

/-- Whether a character may stand in a document: tab, line feed, carriage
return, printable ASCII, next line, and the printable ranges above. -/
def isAllowed (c : Char) : Bool :=
  let n := c.toNat
  n = 9 || n = 10 || n = 13 || (0x20 ≤ n && n ≤ 0x7e) || n = 0x85 ||
    (0xa0 ≤ n && n ≤ 0xd7ff) || (0xe000 ≤ n && n ≤ 0xfffd) || 0x10000 ≤ n

/-- A position in a text. -/
structure Cursor where
  chars : Array Char
  index : Nat
  line : Nat
  column : Nat

namespace Cursor

/-- A cursor at the start of a text. -/
def start (source : String) : Cursor := ⟨source.toList.toArray, 0, 0, 0⟩

/-- The character `k` places ahead, NUL past the end. -/
def peekAt (c : Cursor) (k : Nat) : Char := c.chars.getD (c.index + k) '\x00'

/-- The next character. -/
def peek (c : Cursor) : Char := c.peekAt 0

/-- The next `n` characters (fewer at the end). -/
def ahead (c : Cursor) (n : Nat) : String :=
  String.ofList (c.chars.extract c.index (c.index + n)).toList

/-- The mark of the next character. -/
def mark (c : Cursor) : Mark := ⟨c.index, c.line, c.column⟩

/-- The number of characters left. -/
def remaining (c : Cursor) : Nat := c.chars.size - c.index

/-- Moves past one character, counting lines and columns. -/
def step (c : Cursor) : Cursor :=
  let ch := c.peek
  if ch = '\n' || (ch = '\r' && c.peekAt 1 != '\n') then
    { c with index := c.index + 1, line := c.line + 1, column := 0 }
  else if ch = '\uFEFF' then { c with index := c.index + 1 }
  else { c with index := c.index + 1, column := c.column + 1 }

/-- Moves past `n` characters. -/
def forward : Cursor → Nat → Cursor
  | c, 0 => c
  | c, n + 1 => forward c.step n

/-- The number of characters from `k` places ahead on that satisfy `p`. -/
def runFrom (c : Cursor) (p : Char → Bool) (k : Nat) : Nat :=
  go (c.remaining + 1) k
where
  go : Nat → Nat → Nat
    | 0, n => n - k
    | fuel + 1, n => if p (c.peekAt n) then go fuel (n + 1) else n - k

/-- The number of characters from here on that satisfy `p`. -/
def run (c : Cursor) (p : Char → Bool) : Nat := c.runFrom p 0

end Cursor

end Branching.Yaml
