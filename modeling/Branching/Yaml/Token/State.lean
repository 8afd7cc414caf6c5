import Branching.Yaml.Cursor
import Branching.Yaml.Token

/-!
# The lexer's state

Scanning keeps, besides the cursor and the tokens produced so far:
- the open flow collections (a `[` or `{` each, innermost first), whose number
  is the flow level; block structure only counts outside them;
- the indentation of the open block collections;
- whether a simple key (a key without `?`) may start here, and for each flow
  level the place where one may have started: when a `:` follows on the same
  line within 1024 characters, a key token (and, in block context, the start
  of a mapping) is put in front of the key's first token;
- the version the text is read by, since version 1.1 reads a few characters
  differently: the version set before the text, until a document start sets
  the version its directives name (none without a `%YAML` directive), and
  the version named by the directives read since the last token that was not
  a directive;
- whether tokens are still waiting to be taken by the reader of the tokens,
  which is so exactly when a simple key is pending: the reader takes tokens
  only up to the first one that may still become a key.

Every token keeps the marks of where it starts and stops, and a failure is a
complaint worded with the marks of what was being read and of the problem.
-/

namespace Branching.Yaml

/-- A place where a key without `?` may have started. -/
structure SimpleKey where
  tokenNumber : Nat
  required : Bool
  mark : Mark

/-- The state of a scan. -/
structure Lexer where
  cur : Cursor
  tokens : Array (Positioned Token)
  done : Bool
  flows : List Char
  indent : Int
  indents : List Int
  allowSimpleKey : Bool
  keys : List (Nat × SimpleKey)
  version : Option (Nat × Nat)
  named : Option (Option (Nat × Nat))
  queued : Bool

/-- The lexer at the start of a text read by the given version: the stream
has started, no indentation is open and a simple key may start. -/
def Lexer.start (version : Option (Nat × Nat)) (source : String) : Lexer :=
  ⟨Cursor.start source, #[⟨.streamStart, ⟨0, 0, 0⟩, ⟨0, 0, 0⟩⟩], false, [], -1, [], true, [], version, none,
    false⟩

/-- A scanning step: it changes the lexer, or fails; the tokens read before a
failure stay in the lexer. -/
abbrev Scan := ExceptT Fault (StateM Lexer)

namespace Scan

/-- The mark of the next character. -/
def mark : Scan Mark := return (← get).cur.mark

/-- Fails with a problem found at the next character. -/
def complain {α : Type} (problem : String) : Scan α := do
  throw (.complaint (.at problem (← mark)))

/-- Fails with a problem found at the next character, while reading what
started at `start`. -/
def complainWhile {α : Type} (context : String) (start : Mark) (problem : String) : Scan α := do
  throw (.complaint (.within context start problem (← mark)))

/-- Fails with an engine error. -/
def raise {α : Type} (e : Error) : Scan α := throw (.failed e)

/-- A character as a message quotes what was found. -/
def found (c : Char) : String := Text.quoteString (String.singleton c)

/-- The next character. -/
def peek : Scan Char := return (← get).cur.peek

/-- The character `k` places ahead. -/
def peekAt (k : Nat) : Scan Char := return (← get).cur.peekAt k

/-- The next `n` characters. -/
def ahead (n : Nat) : Scan String := return (← get).cur.ahead n

/-- The number of characters from here on that satisfy `p`. -/
def run (p : Char → Bool) : Scan Nat := return (← get).cur.run p

/-- Moves past `n` characters. -/
def forward (n : Nat) : Scan Unit := modify fun s => { s with cur := s.cur.forward n }

/-- Reads `n` characters. -/
def take (n : Nat) : Scan String := do
  let t ← ahead n
  forward n
  return t

/-- The column of the next character. -/
def column : Scan Nat := return (← get).cur.column

/-- The number of open flow collections. -/
def flowLevel : Scan Nat := return (← get).flows.length

/-- Whether the text is read by the rules of version 1.1. -/
def isVersion11 : Scan Bool := return (← get).version == some (1, 1)

/-- Appends a token that started at `start` and stops here. -/
def emit (t : Token) (start : Mark) : Scan Unit := do
  let stop ← mark
  modify fun s => { s with tokens := s.tokens.push ⟨t, start, stop⟩ }

/-- Appends a token that takes no characters, here. -/
def emitHere (t : Token) : Scan Unit := do
  let m ← mark
  modify fun s => { s with tokens := s.tokens.push ⟨t, m, m⟩ }

/-- Sets whether a simple key may start. -/
def allowKey (b : Bool) : Scan Unit := modify fun s => { s with allowSimpleKey := b }

/-- Moves past spaces. -/
def skipSpaces : Scan Unit := do forward (← run (· = ' '))

/-- Moves to the end of the line. -/
def skipToLineEnd : Scan Unit := do forward (← run fun c => !isLineEnd c)

/-- Reads a line break, if one is next: a carriage return with or without a
line feed, or a line feed, read as a line feed; nothing otherwise. -/
def lineBreak : Scan String := do
  let ch ← peek
  if ch = '\r' || ch = '\n' then
    if ch = '\r' && (← peekAt 1) = '\n' then forward 2 else forward 1
    return "\n"
  else return ""

/-- Puts a token at a place among the tokens produced so far. -/
def insertAt (i : Nat) (t : Positioned Token) : Scan Unit :=
  modify fun s => { s with tokens := (s.tokens.toList.take i ++ t :: s.tokens.toList.drop i).toArray }

/-- Drops pending keys that can no longer be keys: those on an earlier line
or more than 1024 characters back. A dropped key that had to be a key is an
error. -/
def dropStaleKeys : Scan Unit := do
  let s ← get
  let isStale (k : SimpleKey) : Bool :=
    k.mark.line != s.cur.line || 1024 < s.cur.index - k.mark.index
  match s.keys.reverse.find? fun e => isStale e.2 && e.2.required with
  | some (_, k) => complainWhile "while scanning a simple key" k.mark "could not find expected ':'"
  | none => set { s with keys := s.keys.filter fun e => !isStale e.2 }

/-- Forgets the pending key of the current flow level; one that had to be a
key is an error. -/
def removeKey : Scan Unit := do
  let s ← get
  let level := s.flows.length
  match s.keys.find? (·.1 = level) with
  | some (_, k) =>
    if k.required then complainWhile "while scanning a simple key" k.mark "could not find expected ':'"
    else set { s with keys := s.keys.filter (·.1 != level) }
  | none => pure ()

/-- Records that the next token may start a simple key, if one may start here.
In block context a key at the current indentation has to be one. -/
def saveKey : Scan Unit := do
  let s ← get
  if s.allowSimpleKey then
    removeKey
    let s ← get
    let level := s.flows.length
    let key : SimpleKey :=
      { tokenNumber := s.tokens.size,
        required := level = 0 && s.indent == (s.cur.column : Int),
        mark := s.cur.mark }
    set { s with keys := (level, key) :: s.keys.filter (·.1 != level) }

/-- The indentation after closing the block collections deeper than `column`,
and the block ends that closes. -/
def unwound (column : Int) : Int → List Int → Nat → Int × List Int × Nat
  | indent, i :: rest, ends =>
    if column < indent then unwound column i rest (ends + 1) else (indent, i :: rest, ends)
  | indent, [], ends => (indent, [], ends)

/-- Closes the block collections deeper than `column`, outside flow context. -/
def unwindIndent (column : Int) : Scan Unit := do
  let s ← get
  if s.flows.isEmpty then
    let (indent, indents, ends) := unwound column s.indent s.indents 0
    let m := s.cur.mark
    set { s with indent, indents, tokens := s.tokens ++ Array.replicate ends (Positioned.mk Token.blockEnd m m) }

/-- Opens a block collection at `column` if that is deeper than the current
indentation; tells whether it did. -/
def addIndent (column : Int) : Scan Bool := do
  let s ← get
  if s.indent < column then
    set { s with indents := s.indent :: s.indents, indent := column }
    return true
  else return false

end Scan

end Branching.Yaml
