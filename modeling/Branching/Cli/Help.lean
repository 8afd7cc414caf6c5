import Branching.Text.Space

/-!
# Laying out help texts

Help and usage texts are laid out for a terminal of a given width: the
synopsis is wrapped at word-like parts, the description is filled, and each
argument's help starts in a common column and is wrapped at words.

## Wrapping

A text is first cut into chunks, alternately runs of blanks and words (runs
of other characters). Lines are filled greedily with whole chunks; a blank
chunk never starts a line after the first and never ends one. A word longer
than a whole line is cut: as much as fits goes on the current line, cut after
its last hyphen in that part when something other than hyphens stands before
that hyphen.

## The synopsis

`usage: ` and the program name are followed by the option parts and then the
operand parts, on one line if they fit. Otherwise, when the prefix and the
program name take at most three quarters of the width, the option parts
follow the name and wrap under the column after it, and the operand parts
start a line of their own in that column; when the name is longer, it stands
alone and the parts wrap under the column after `usage: `, options and
operands on separate lines when they need more than one.

## Arguments

Every argument (and every command listed under the command operand, two
columns further in) is written by its invocation. The help column is two past
the longest invocation plus its indentation, but at most 24 and at most the
width less 20 (and at least 4). An invocation that fits before the help
column leaves two blanks before the help; a longer one stands on its own line
and the help starts on the next one in the help column. Help is wrapped to
the width left of the help column, and to at least 11 columns.
-/

namespace Branching.Cli

/-- Whether a character separates words: a space, tab, line feed, carriage
return, form feed or vertical tab. -/
def isBlank (c : Char) : Bool :=
  c = ' ' || c = '\t' || c = '\n' || c = '\r' || c = '\x0c' || c = '\x0b'

/-- A text with each run of blanks replaced by one space and without blanks
at either end. -/
def squeezeBlanks (cs : List Char) : List Char :=
  let words := (cs.splitOn ' ').flatMap fun w =>
    (w.splitOn '\t').flatMap fun w => (w.splitOn '\n').flatMap fun w =>
      (w.splitOn '\r').flatMap fun w => (w.splitOn '\x0c').flatMap fun w => w.splitOn '\x0b'
  List.intercalate [' '] (words.filter fun w => !w.isEmpty)

/-- The chunks of a text: runs of blanks and runs of other characters, in
order. -/
def chunks (cs : List Char) : List (List Char) :=
  go cs.length cs
where
  go : Nat → List Char → List (List Char)
    | 0, _ => []
    | _, [] => []
    | fuel + 1, c :: rest =>
      let same := rest.takeWhile fun d => isBlank d == isBlank c
      (c :: same) :: go fuel (rest.drop same.length)

/-- Whether a chunk is made of blanks only. -/
def isBlankChunk (chunk : List Char) : Bool := chunk.all isBlank

/-- Where a word too long for any line is cut, when `room` characters are
left on the line: after its last hyphen within that room if something other
than hyphens stands before that hyphen, otherwise at the room. -/
def cutPlace (chunk : List Char) (room : Nat) : Nat :=
  if room < chunk.length then
    match ((chunk.take room).zipIdx.filter fun p => p.1 = '-').getLast? with
    | some (_, k) => if 0 < k && (chunk.take k).any (· != '-') then k + 1 else room
    | none => room
  else room

/-- Fills lines of `width` columns with chunks. `started` tells that a line
has been written already. -/
def fillLines (width : Nat) : Nat → Bool → List (List Char) → List String
  | 0, _, _ => []
  | _, _, [] => []
  | fuel + 1, started, cs =>
    let cs := match cs with
      | c :: rest => if started && isBlankChunk c then rest else cs
      | [] => []
    let rec take : Nat → Nat → List (List Char) → List (List Char) → List (List Char) × List (List Char)
      | 0, _, line, rest => (line, rest)
      | _, _, line, [] => (line, [])
      | n + 1, used, line, c :: rest =>
        if used + c.length ≤ width then take n (used + c.length) (line ++ [c]) rest
        else (line, c :: rest)
    let (line, rest) := take cs.length 0 [] cs
    let (line, rest) := match rest with
      | c :: more =>
        if width < c.length then
          let room := width - line.foldl (fun n (c : List Char) => n + c.length) 0
          let k := cutPlace c (if width < 1 then 1 else room)
          (line ++ [c.take k], c.drop k :: more)
        else (line, rest)
      | [] => (line, rest)
    let line := match line.getLast? with
      | some c => if isBlankChunk c then line.dropLast else line
      | none => line
    if line.isEmpty then fillLines width fuel started rest
    else String.ofList line.flatten :: fillLines width fuel true rest

/-- The lines of a text wrapped to `width` columns, after its blanks are
squeezed. -/
def wrapLines (width : Nat) (text : String) : List String :=
  let cs := chunks (squeezeBlanks text.toList)
  fillLines width (2 * cs.foldl (fun n (c : List Char) => n + c.length) 0 + cs.length + 2) false cs

/-- `n` spaces. -/
def spaces (n : Int) : String := String.ofList (List.replicate n.toNat ' ')

/-- A synopsis: the program's name and the parts for its options and its
operands. -/
structure Synopsis where
  program : String
  optionParts : List String
  operandParts : List String

/-- The lines of parts wrapped to `width` under `indent` columns; the first
line starts after the prefix of `lead` columns when there is one. -/
def partLines (width : Int) (indent : Nat) (lead : Option Nat) (parts : List String) : List String :=
  let start : Int := (lead.getD indent : Int) - 1
  let step (acc : List String × List String × Int) (part : String) : List String × List String × Int :=
    let (lines, line, used) := acc
    if used + 1 + part.length > width && !line.isEmpty then
      (lines ++ [spaces indent ++ " ".intercalate line], [part], (indent : Int) - 1 + part.length + 1)
    else (lines, line ++ [part], used + part.length + 1)
  let (lines, line, _) := parts.foldl step ([], [], start)
  let lines := if line.isEmpty then lines else lines ++ [spaces indent ++ " ".intercalate line]
  match lead, lines with
  | some _, first :: more => String.ofList (first.toList.drop indent) :: more
  | _, _ => lines

/-- The synopsis text after `usage: `, wrapped to `width` columns. -/
def Synopsis.text (s : Synopsis) (width : Int) : String :=
  let pfx := "usage: "
  let whole := " ".intercalate (s.program :: s.optionParts ++ s.operandParts)
  if (pfx.length + whole.length : Int) ≤ width then whole else
  let lines :=
    if 4 * (pfx.length + s.program.length : Int) ≤ 3 * width then
      let indent := pfx.length + s.program.length + 1
      if !s.optionParts.isEmpty then
        partLines width indent (some pfx.length) (s.program :: s.optionParts) ++
          partLines width indent none s.operandParts
      else if !s.operandParts.isEmpty then
        partLines width indent (some pfx.length) (s.program :: s.operandParts)
      else [s.program]
    else
      let indent := pfx.length
      let all := partLines width indent none (s.optionParts ++ s.operandParts)
      let all := if all.length > 1 then
          partLines width indent none s.optionParts ++ partLines width indent none s.operandParts
        else all
      s.program :: all
  "\n".intercalate lines

/-- The synopsis as a whole text: `usage: ` and its lines. -/
def Synopsis.usage (s : Synopsis) (width : Int) : String :=
  "usage: " ++ s.text width ++ "\n"

/-- An argument as help lists it: its invocation, its help if it has any,
and the commands listed under it with their help. -/
structure Entry where
  invocation : String
  help : Option String
  commands : List (String × String)

/-- A group of arguments under a heading. -/
structure Section where
  heading : String
  entries : List Entry

/-- A help page: the synopsis, a description and the argument groups. -/
structure Page where
  synopsis : Synopsis
  description : Option String
  sections : List Section

/-- The lines of one argument at `indent` columns, with the help column at
`column`. -/
def entryText (width column indent : Int) (invocation : String) (help : Option String) : String :=
  let helpWidth := max (width - column) 11
  let room := column - indent - 2
  match help with
  | none => spaces indent ++ invocation ++ "\n"
  | some h =>
    let (header, first) :=
      if (invocation.length : Int) ≤ room then
        (spaces indent ++ invocation ++ spaces (room - invocation.length) ++ "  ", (0 : Int))
      else (spaces indent ++ invocation ++ "\n", column)
    if (squeezeBlanks h.toList).isEmpty then
      if header.endsWith "\n" then header else header ++ "\n"
    else
      match wrapLines helpWidth.toNat h with
      | l :: more => header ++ spaces first ++ l ++ "\n" ++ String.join (more.map fun m => spaces column ++ m ++ "\n")
      | [] => header

/-- Replaces every run of three or more line feeds by two. -/
def squeezeBreaks (cs : List Char) : List Char :=
  go cs.length cs
where
  go : Nat → List Char → List Char
    | 0, cs => cs
    | _, [] => []
    | fuel + 1, '\n' :: '\n' :: rest =>
      let more := rest.takeWhile (· = '\n')
      '\n' :: '\n' :: go fuel (rest.drop more.length)
    | fuel + 1, c :: rest => c :: go fuel rest

/-- A text without line feeds at either end. -/
def trimBreaks (cs : List Char) : List Char :=
  ((cs.dropWhile (· = '\n')).reverse.dropWhile (· = '\n')).reverse

/-- The help page laid out for `width` columns. -/
def Page.text (p : Page) (width : Int) : String :=
  let longest : Int := p.sections.foldl (fun acc s => s.entries.foldl (fun acc e =>
    let names := e.invocation.length :: e.commands.map (·.1.length)
    max acc (names.foldl max 0 + 2)) acc) 0
  let column := min (longest + 2) (min 24 (max (width - 20) 4))
  let usage := "usage: " ++ p.synopsis.text width ++ "\n\n"
  let description := match p.description with
    | some d => "\n".intercalate (wrapLines (max width 11).toNat d) ++ "\n\n"
    | none => ""
  let sections := p.sections.map fun s =>
    let items := String.join (s.entries.map fun e =>
      entryText width column 2 e.invocation e.help ++
        String.join (e.commands.map fun c => entryText width column 4 c.1 (some c.2)))
    if items.isEmpty then "" else "\n" ++ s.heading ++ ":\n" ++ items ++ "\n"
  let whole := usage ++ description ++ String.join sections
  String.ofList (trimBreaks (squeezeBreaks whole.toList)) ++ "\n"

end Branching.Cli
