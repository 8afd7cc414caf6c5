import Branching.Yaml.Token.State

/-!
# Scanning scalars

The three ways of writing a scalar, each read to its token.

- Quoted scalars run to their closing quote. In single quotes a doubled quote
  is a quote; in double quotes a backslash starts an escape (a character
  code of two, four or eight hexadecimal digits, a surrogate code giving its
  stand-in (`Text.charOfCode`), one of the named escapes, or a line break
  that joins the lines). Line breaks inside fold: one break with
  no empty line after it becomes a space, otherwise each empty line gives a
  line feed, and white space around the breaks is dropped.
- Plain scalars are words separated by white space, folded across lines the
  same way; a word ends before white space, before `: ` (in flow context also
  before `,` `[` `]` `{` `}`), and the scalar ends at a comment, at a line less
  indented than the block it belongs to, or at a document marker.
- Block scalars (`|` literal, `>` folded) take the lines indented at least as
  deep as their first line, or as an explicit indentation indicator says.
  Folding joins two lines that both start without white space with a space;
  the final line break is kept once (clip), dropped (`-`) or kept with every
  trailing empty line (`+`).
-/

namespace Branching.Yaml

namespace Scan

/-- A bound on the steps of a loop that consumes a character per step. -/
def fuelLeft : Scan Nat := return (← get).cur.remaining + 1

/-- Whether a document marker `---` or `...` starts here. -/
def atDocumentMarker : Scan Bool := do
  let pre ← ahead 3
  return (pre = "---" || pre = "...") && isBlankEnd (← peekAt 3)

/-- The character a named escape in double quotes stands for. -/
def escapeReplacement? : Char → Option Char
  | '0' => some '\x00'
  | 'a' => some '\x07'
  | 'b' => some '\x08'
  | 't' => some '\t'
  | '\t' => some '\t'
  | 'n' => some '\n'
  | 'v' => some '\x0b'
  | 'f' => some '\x0c'
  | 'r' => some '\r'
  | 'e' => some '\x1b'
  | ' ' => some ' '
  | '"' => some '"'
  | '\\' => some '\\'
  | '/' => some '/'
  | 'N' => some '\x85'
  | '_' => some '\xa0'
  | 'L' => some '\u2028'
  | 'P' => some '\u2029'
  | _ => none

/-- The number of hexadecimal digits of a character code escape. -/
def escapeLength? : Char → Option Nat
  | 'x' => some 2
  | 'u' => some 4
  | 'U' => some 8
  | _ => none

/-- The value of a hexadecimal digit. -/
def hexValue? (c : Char) : Option Nat :=
  if '0' ≤ c && c ≤ '9' then some (c.toNat - 48)
  else if 'a' ≤ c && c ≤ 'f' then some (c.toNat - 87)
  else if 'A' ≤ c && c ≤ 'F' then some (c.toNat - 55)
  else none

/-- The value of hexadecimal digits, if all are digits. -/
def hexNumber? (s : String) : Option Nat :=
  s.toList.foldlM (fun acc c => (hexValue? c).map (acc * 16 + ·)) 0

/-- The line breaks after a break inside a quoted scalar that started at
`start`, each empty line giving its break; a document marker there is an
error. -/
def quotedBreaks (start : Mark) : Nat → List String → Scan (List String)
  | 0, acc => return acc.reverse
  | fuel + 1, acc => do
    if ← atDocumentMarker then
      complainWhile "while scanning a quoted scalar" start "found unexpected document separator"
    forward (← run fun c => c = ' ' || c = '\t')
    if isBreak (← peek) then
      let b ← lineBreak
      quotedBreaks start fuel (b :: acc)
    else return acc.reverse

/-- White space inside a quoted scalar: kept as it is within a line, folded
across lines. -/
def quotedSpaces (start : Mark) : Scan (List String) := do
  let white ← take (← run fun c => c = ' ' || c = '\t')
  let ch ← peek
  if ch = '\x00' then complainWhile "while scanning a quoted scalar" start "found unexpected end of stream"
  else if isBreak ch then
    let first ← lineBreak
    let breaks ← quotedBreaks start (← fuelLeft) []
    let lead := if first != "\n" then [first] else if breaks.isEmpty then [" "] else []
    return lead ++ breaks
  else return [white]

/-- The text of a quoted scalar up to the next white space or closing quote,
escapes read; `acc` holds the pieces read so far, last first. -/
def quotedWords (double : Bool) (start : Mark) : Nat → List String → Scan (List String)
  | 0, acc => return acc.reverse
  | fuel + 1, acc => do
    let n ← run fun c => !(c = '\'' || c = '"' || c = '\\' || isBlankEnd c)
    let piece ← take n
    let acc := if n = 0 then acc else piece :: acc
    let ch ← peek
    if !double && ch = '\'' && (← peekAt 1) = '\'' then
      forward 2
      quotedWords double start fuel ("'" :: acc)
    else if (double && ch = '\'') || (!double && (ch = '"' || ch = '\\')) then
      forward 1
      quotedWords double start fuel (String.singleton ch :: acc)
    else if double && ch = '\\' then
      forward 1
      let e ← peek
      match escapeReplacement? e, escapeLength? e with
      | some r, _ =>
        forward 1
        quotedWords double start fuel (String.singleton r :: acc)
      | none, some len =>
        forward 1
        let digits ← ahead len
        let good := (digits.toList.takeWhile fun c => (hexValue? c).isSome).length
        if good < len then
          complainWhile "while scanning a double-quoted scalar" start
            ("expected escape sequence of " ++ toString len ++ " hexdecimal numbers, but found " ++
              found (← peekAt good))
        let code := (hexNumber? digits).getD 0
        if 0x10ffff < code then raise .codeOutOfRange
        forward len
        quotedWords double start fuel (String.singleton (Text.charOfCode code) :: acc)
      | none, none =>
        if isBreak e then
          let _ ← lineBreak
          let breaks ← quotedBreaks start (← fuelLeft) []
          quotedWords double start fuel (breaks.reverse ++ acc)
        else
          complainWhile "while scanning a double-quoted scalar" start
            ("found unknown escape character " ++ found e)
    else return acc.reverse

/-- The pieces of a quoted scalar after its first word, up to the closing
quote. -/
def quotedRest (double : Bool) (quote : Char) (start : Mark) : Nat → List String → Scan (List String)
  | 0, _ => complainWhile "while scanning a quoted scalar" start "found unexpected end of stream"
  | fuel + 1, acc => do
    if (← peek) = quote then return acc
    let spaces ← quotedSpaces start
    let words ← quotedWords double start (← fuelLeft) []
    quotedRest double quote start fuel (acc ++ spaces ++ words)

/-- Reads a quoted scalar; `double` tells the quote. -/
def quotedScalar (double : Bool) : Scan Token := do
  let start ← mark
  let quote ← peek
  forward 1
  let first ← quotedWords double start (← fuelLeft) []
  let pieces ← quotedRest double quote start (← fuelLeft) first
  forward 1
  return .scalar (String.join pieces) (if double then .doubleQuoted else .singleQuoted)

/-- The length of the next word of a plain scalar. -/
def plainWordLength (flow version11 : Bool) (c : Cursor) : Nat :=
  go (c.remaining + 1) 0
where
  go : Nat → Nat → Nat
    | 0, n => n
    | fuel + 1, n =>
      let ch := c.peekAt n
      let next := c.peekAt (n + 1)
      if ch = ':' && !isBlankEnd next then go fuel (n + 1)
      else if ch = '?' && !version11 then go fuel (n + 1)
      else if isBlankEnd ch || (!flow && ch = ':' && isBlankEnd next) ||
          (flow && ",:?[]\x7b\x7d".contains ch) then n
      else go fuel (n + 1)

/-- The line breaks after a break inside a plain scalar; `none` when a
document marker ends the scalar. -/
def plainBreaks : Nat → List String → Scan (Option (List String))
  | 0, acc => return some acc.reverse
  | fuel + 1, acc => do
    let ch ← peek
    if ch = ' ' then
      forward 1
      plainBreaks fuel acc
    else if isBreak ch then
      let b ← lineBreak
      if ← atDocumentMarker then return none
      plainBreaks fuel (b :: acc)
    else return some acc.reverse

/-- White space after a word of a plain scalar: spaces within a line, folded
breaks across lines; nothing when the scalar ends here. A line break allows a
simple key again. -/
def plainSpaces : Scan (List String) := do
  let n ← run (· = ' ')
  let white ← take n
  if isBreak (← peek) then
    let first ← lineBreak
    allowKey true
    if ← atDocumentMarker then return []
    match ← plainBreaks (← fuelLeft) [] with
    | none => return []
    | some breaks =>
      let lead := if first != "\n" then [first] else if breaks.isEmpty then [" "] else []
      return lead ++ breaks
  else if n = 0 then return []
  else return [white]

/-- The pieces of a plain scalar; `spaces` is the white space read after the
last word. -/
def plainPieces (indent : Int) (flow version11 : Bool) :
    Nat → List String → List String → Scan (List String)
  | 0, pieces, _ => return pieces
  | fuel + 1, pieces, spaces => do
    if (← peek) = '#' then return pieces
    let n := plainWordLength flow version11 (← get).cur
    if n = 0 then return pieces
    allowKey false
    let word ← take n
    let pieces := pieces ++ spaces ++ [word]
    let spaces ← plainSpaces
    if spaces.isEmpty || (← peek) = '#' || (!flow && ((← column) : Int) < indent) then
      return pieces
    plainPieces indent flow version11 fuel pieces spaces

/-- Reads a plain scalar. -/
def plainScalar : Scan Token := do
  let s ← get
  let pieces ← plainPieces (s.indent + 1) (!s.flows.isEmpty) (s.version == some (1, 1))
    (← fuelLeft) [] []
  if pieces.isEmpty then complain "found an empty plain scalar"
  return .scalar (String.join pieces) .plain

/-- What happens to the final line break of a block scalar. -/
inductive Chomping where
  | strip
  | clip
  | keep
  deriving DecidableEq

/-- The digit of an indentation indicator, 1 to 9, of a block scalar that
started at `start`. -/
def indicatorDigit? (start : Mark) (c : Char) : Scan (Option Nat) :=
  if '1' ≤ c && c ≤ '9' then return some (c.toNat - 48)
  else if c = '0' then
    complainWhile "while scanning a block scalar" start "expected indentation indicator in the range 1-9, but found 0"
  else return none

/-- Reads the chomping and indentation indicators of a block scalar that
started at `start`, in either order. -/
def blockIndicators (start : Mark) : Scan (Chomping × Option Nat) := do
  let ch ← peek
  let result ←
    if ch = '+' || ch = '-' then do
      forward 1
      let chomping := if ch = '+' then Chomping.keep else Chomping.strip
      match ← indicatorDigit? start (← peek) with
      | some d => forward 1; pure (chomping, some d)
      | none => pure (chomping, none)
    else do
      match ← indicatorDigit? start ch with
      | some d =>
        forward 1
        let c ← peek
        if c = '+' || c = '-' then
          forward 1
          pure (if c = '+' then Chomping.keep else Chomping.strip, some d)
        else pure (Chomping.clip, some d)
      | none => pure (Chomping.clip, none)
  let c ← peek
  if !isSpaceEnd c then
    complainWhile "while scanning a block scalar" start
      ("expected chomping or indentation indicators, but found " ++ found c)
  return result

/-- Reads the rest of a block scalar's header line: spaces and a comment. -/
def blockHeaderEnd (start : Mark) : Scan Unit := do
  skipSpaces
  if (← peek) = '#' then skipToLineEnd
  let c ← peek
  if !isLineEnd c then
    complainWhile "while scanning a block scalar" start ("expected a comment or a line break, but found " ++ found c)
  let _ ← lineBreak

/-- The empty lines before a block scalar's first line, and the deepest
indentation among them. -/
def leadingLines : Nat → List String → Nat → Scan (List String × Nat)
  | 0, breaks, deepest => return (breaks.reverse, deepest)
  | fuel + 1, breaks, deepest => do
    let ch ← peek
    if ch = ' ' then
      forward 1
      leadingLines fuel breaks (max deepest (← column))
    else if isBreak ch then
      let b ← lineBreak
      leadingLines fuel (b :: breaks) deepest
    else return (breaks.reverse, deepest)

/-- Moves past the spaces of a line's indentation, up to `indent`. -/
def skipIndent (indent : Int) : Nat → Scan Unit
  | 0 => pure ()
  | fuel + 1 => do
    if ((← column) : Int) < indent && (← peek) = ' ' then
      forward 1
      skipIndent indent fuel

/-- The line breaks of the empty lines that follow, indentation skipped. -/
def emptyLines (indent : Int) : Nat → List String → Scan (List String)
  | 0, acc => return acc.reverse
  | fuel + 1, acc => do
    skipIndent indent (← fuelLeft)
    if isBreak (← peek) then
      let b ← lineBreak
      emptyLines indent fuel (b :: acc)
    else return acc.reverse

/-- Whether a `---` or `...` marker starts the line here. -/
def atLineMarker : Scan Bool := do
  return (← column) = 0 && (← atDocumentMarker)

/-- The lines of a block scalar: the pieces, the last line break, and the
breaks of the empty lines after the last line. -/
def blockLines (folded : Bool) (minIndent indent : Int) :
    Nat → List String → String → List String → Scan (List String × String × List String)
  | 0, pieces, last, breaks => return (pieces, last, breaks)
  | fuel + 1, pieces, last, breaks => do
    if !(((← column) : Int) = indent && (← peek) != '\x00') then return (pieces, last, breaks)
    let first ← peek
    let leadingNonSpace := !(first = ' ' || first = '\t')
    let text ← take (← run fun c => !isLineEnd c)
    let pieces := pieces ++ breaks ++ [text]
    let last ← lineBreak
    let breaks ← emptyLines indent (← fuelLeft) []
    if minIndent = 0 && (← atLineMarker) then return (pieces, last, breaks)
    let next ← peek
    if ((← column) : Int) = indent && next != '\x00' then
      let join :=
        if folded && last = "\n" && leadingNonSpace && !(next = ' ' || next = '\t') then
          (if breaks.isEmpty then [" "] else [])
        else [last]
      blockLines folded minIndent indent fuel (pieces ++ join) last breaks
    else return (pieces, last, breaks)

/-- Reads a block scalar; `folded` tells `>` from `|`. -/
def blockScalar (folded : Bool) : Scan Token := do
  let start ← mark
  forward 1
  let (chomping, increment) ← blockIndicators start
  blockHeaderEnd start
  let base : Int := (← get).indent + 1
  let (minIndent, indent, breaks) ← match increment with
    | none => do
      let (breaks, deepest) ← leadingLines (← fuelLeft) [] 0
      pure (base, max base deepest, breaks)
    | some d => do
      let minIndent := if base < 1 then 1 else base
      let indent := minIndent + d - 1
      let breaks ← emptyLines indent (← fuelLeft) []
      pure (minIndent, indent, breaks)
  let (pieces, last, trailing) ← blockLines folded minIndent indent (← fuelLeft) [] "" breaks
  let tail := (if chomping = .strip then [] else [last]) ++ (if chomping = .keep then trailing else [])
  return .scalar (String.join (pieces ++ tail)) (if folded then .folded else .literal)

end Scan

end Branching.Yaml
