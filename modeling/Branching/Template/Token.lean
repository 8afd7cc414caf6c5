import Branching.Text.Space
import Branching.Error

/-!
# Template tokens

A template is text with two kinds of markup: `{{ … }}` prints an operand and
`{% … %}` is a tag. Reading left to right, an opener `{{` or `{%` runs to the
first matching closer after it, and the token's value is the text between them
without white space at either end; an opener without a closer is an error
naming the opener's line and the forty characters from it. Text runs up to
the next opener. The last token is the end token.

Every token knows its position (in characters), line and column; only a line
feed starts a new line.
-/

namespace Branching

/-- The kinds of template tokens. -/
inductive PieceKind where
  | text
  | output
  | tag
  | eof
  deriving DecidableEq

/-- The name of a template token kind. -/
def PieceKind.name : PieceKind → String
  | .text => "TEXT"
  | .output => "OUTPUT"
  | .tag => "TAG"
  | .eof => "EOF"

/-- A template token. -/
structure Piece where
  kind : PieceKind
  value : String
  position : Nat
  line : Nat
  column : Nat

/-- A place in a template: character position, line and column. -/
structure Place where
  position : Nat := 0
  line : Nat := 1
  column : Nat := 1

/-- The place after reading some characters. -/
def Place.advance (p : Place) : List Char → Place
  | [] => p
  | c :: rest =>
    let next : Place := if c = '\n' then ⟨p.position + 1, p.line + 1, 1⟩
      else ⟨p.position + 1, p.line, p.column + 1⟩
    next.advance rest

namespace Piece

/-- The index of the first occurrence of the pair `a b` in a text. -/
def findPair (a b : Char) : List Char → Option Nat
  | x :: y :: rest =>
    if x = a ∧ y = b then some 0 else (findPair a b (y :: rest)).map (· + 1)
  | _ => none

/-- The length of the text run at the start: up to the next opener. -/
def textLength (cs : List Char) : Nat :=
  match findPair '{' '{' cs, findPair '{' '%' cs with
  | some i, some j => min i j
  | some i, none => i
  | none, some j => j
  | none, none => cs.length

/-- Reads markup opened at `at_` by `opener` and closed by the characters `a b`:
its token and its length, or the unterminated error. -/
def markupAt (cs : List Char) (at_ : Place) (kind : PieceKind) (opener : String) (a b : Char) :
    Except SyntaxError (Piece × Nat) :=
  let rest := cs.drop 2
  match findPair a b rest with
  | some i =>
    let inner := rest.take i
    .ok (⟨kind, String.ofList (Text.strip inner), at_.position, at_.line, at_.column⟩, i + 4)
  | none =>
    .error { fault := .unterminatedDelimiter opener (String.ofList [a, b]),
             markup := some (String.ofList (cs.take 40)), line := some at_.line }

/-- The token at the start of a non-empty text and its length. -/
def next (cs : List Char) (at_ : Place) : Except SyntaxError (Piece × Nat) :=
  match cs with
  | '{' :: '{' :: _ => markupAt cs at_ .output (String.ofList ['{', '{']) '}' '}'
  | '{' :: '%' :: _ => markupAt cs at_ .tag (String.ofList ['{', '%']) '%' '}'
  | _ =>
    let n := textLength cs
    .ok (⟨.text, String.ofList (cs.take n), at_.position, at_.line, at_.column⟩, n)

/-- Reads the tokens of `cs`, which starts at `at_`; `done` holds the tokens so
far, last first. -/
def scanFrom (cs : List Char) (at_ : Place) (done : List Piece) : Except SyntaxError (List Piece) :=
  if h : cs = [] then .ok (done.reverse ++ [⟨.eof, "", at_.position, at_.line, at_.column⟩])
  else
    match next cs at_ with
    | .error e => .error e
    | .ok (piece, n) =>
      let k := max n 1
      have : (cs.drop k).length < cs.length := by
        rw [List.length_drop]
        exact Nat.sub_lt (List.length_pos_iff.mpr h) (Nat.lt_of_lt_of_le Nat.zero_lt_one (Nat.le_max_right n 1))
      scanFrom (cs.drop k) (at_.advance (cs.take k)) (piece :: done)
termination_by cs.length

/-- The tokens of a template, ending with the end token. -/
def scan (source : String) : Except SyntaxError (List Piece) := scanFrom source.toList {} []

end Piece

end Branching
