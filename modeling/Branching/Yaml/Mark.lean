import Branching.Error

/-!
# Places in a YAML text, and complaints about it

A mark is the place of a character: its index among the characters of the
text, and its line and column, counted from zero. Only the line feed and a
carriage return not followed by a line feed start a new line; a byte order
mark takes no column.

A complaint says why a text is not a well-formed YAML stream, or why a node
cannot be built: what was being read and where that started (the context),
what went wrong and where (the problem), and sometimes a note. It is worded
with a snippet of the text at each mark: the line of the mark, cut to at most
thirty-two characters either side (with ` ... ` where it was cut), and a caret
under the marked character. Lines end, for the snippet, also at NUL, the
next-line character and the line and paragraph separators.
-/

namespace Branching.Yaml

/-- A place in a text. -/
structure Mark where
  index : Nat
  line : Nat
  column : Nat
  deriving DecidableEq, Inhabited

/-- A value read from a text, with the marks of where it starts and where it
stops. -/
structure Positioned (α : Type) where
  value : α
  start : Mark
  stop : Mark

/-- Whether a character ends a line of a snippet. -/
def isSnippetEnd (c : Char) : Bool :=
  c = '\x00' || c = '\r' || c = '\n' || c = '\x85' || c = '\u2028' || c = '\u2029'

/-- The number of characters before `k` that do not end a line, up to `bound`. -/
def runBefore (text : Array Char) (k bound : Nat) : Nat :=
  go bound 0
where
  go : Nat → Nat → Nat
    | 0, n => n
    | fuel + 1, n =>
      if n < k && !isSnippetEnd (text.getD (k - n - 1) '\x00') then go fuel (n + 1) else n

/-- The number of characters from `k` on that do not end a line, up to `bound`. -/
def runAfter (text : Array Char) (k bound : Nat) : Nat :=
  go bound 0
where
  go : Nat → Nat → Nat
    | 0, n => n
    | fuel + 1, n =>
      if !isSnippetEnd (text.getD (k + n) '\x00') then go fuel (n + 1) else n

/-- `n` spaces. -/
def blanks (n : Nat) : String := String.ofList (List.replicate n ' ')

namespace Mark

/-- The snippet of the text at a mark: the line around it, indented by four,
and a caret line under the marked character. -/
def snippet (text : Array Char) (m : Mark) : String :=
  let back := runBefore text m.index 37
  let (head, start) := if back = 37 then (" ... ", m.index - 32) else ("", m.index - back)
  let ahead := runAfter text m.index 37
  let (tail, stop) := if ahead = 37 then (" ... ", m.index + 32) else ("", m.index + ahead)
  let shown := String.ofList (text.extract start stop).toList
  "    " ++ head ++ shown ++ tail ++ "\n" ++ blanks (4 + (m.index - start) + head.length) ++
    "^ (line: " ++ toString (m.line + 1) ++ ")"

/-- Where a mark is, with its snippet. -/
def describe (text : Array Char) (m : Mark) : String :=
  "  in \"<unicode string>\", line " ++ toString (m.line + 1) ++ ", column " ++ toString (m.column + 1) ++
    ":\n" ++ m.snippet text

end Mark

/-- Why a text is not a well-formed YAML stream or cannot be built into a
value. -/
structure Complaint where
  context : Option String := none
  contextMark : Option Mark := none
  problem : String
  problemMark : Option Mark := none
  note : Option String := none

/-- A complaint about a problem at `place`, found while reading what started
at `start`. -/
def Complaint.within (context : String) (start : Mark) (problem : String) (place : Mark) : Complaint :=
  { context := some context, contextMark := some start, problem := problem, problemMark := some place }

/-- A complaint about a problem at `place`. -/
def Complaint.at (problem : String) (place : Mark) : Complaint :=
  { problem := problem, problemMark := some place }

/-- The wording of a complaint: the context, its mark unless the problem has
the same place, the problem, its mark, and the note. -/
def Complaint.text (text : Array Char) (c : Complaint) : String :=
  let contextMark := match c.contextMark, c.problemMark with
    | some m, some p => if m.line = p.line && m.column = p.column then [] else [m.describe text]
    | some m, none => [m.describe text]
    | none, _ => []
  let lines := c.context.toList ++ contextMark ++ [c.problem] ++
    (c.problemMark.map (Mark.describe text)).toList ++ c.note.toList
  "\n".intercalate lines

/-- Why reading a YAML text stops. -/
inductive Fault where
  /-- The text is not well-formed, or holds a node that cannot be built. -/
  | complaint (c : Complaint)
  /-- The text holds a character no YAML text may hold, with its code point,
  at the given index. -/
  | unacceptable (code : Nat) (index : Nat)
  /-- Reading failed the way the engine's own operations fail. -/
  | failed (e : Error)

/-- The hexadecimal digits of a number, at least four of them. -/
def hexCode (n : Nat) : String :=
  let digits := Nat.toDigits 16 n
  String.ofList (List.replicate (4 - digits.length) '0' ++ digits)

/-- The wording of a fault that is no engine error. -/
def Fault.text (text : Array Char) : Fault → String
  | .complaint c => c.text text
  | .unacceptable code index =>
    "unacceptable character #x" ++ hexCode code ++ ": special characters are not allowed\n" ++
      "  in \"<unicode string>\", position " ++ toString index
  | .failed e => e.message

end Branching.Yaml
