import Branching.Operand.Scan
import Branching.Text.Digit
import Branching.Error

/-!
# Header tokens

The strict header grammar reads a header as tokens. At each position the first
of these that matches is taken (white space is skipped):
- a comparison: `==`, `!=`, `<=`, `>=`, `<`, `>`, or the word `contains` when no
  word character, `?` or `-` follows;
- a string between two equal quotes;
- a number: an optional `-`, digits, and a fraction `.digits`; a number may not
  be followed by a word character, but when only its fraction is, the number
  ends before the point;
- an identifier: a name start, name characters, an optional `?`;
- `..`, `.`, `[`, `]`, `(`, `)`.
Any other character is an error naming it and its position. The token list
ends with an end token at the length of the header.

`tokenAt` gives the kind and length of the token at the start of a text; the
scan cuts the text at those lengths, so the tokens and skipped white space tile
the header.
-/

namespace Branching

/-- The kinds of header tokens. -/
inductive TokenKind where
  | comparison
  | string
  | number
  | identifier
  | dotdot
  | dot
  | lbracket
  | rbracket
  | lparen
  | rparen
  | eof
  deriving DecidableEq

/-- The name of a token kind, as messages spell it. -/
def TokenKind.name : TokenKind → String
  | comparison => "COMPARISON"
  | string => "STRING"
  | number => "NUMBER"
  | identifier => "IDENTIFIER"
  | dotdot => "DOTDOT"
  | dot => "DOT"
  | lbracket => "LBRACKET"
  | rbracket => "RBRACKET"
  | lparen => "LPAREN"
  | rparen => "RPAREN"
  | eof => "EOF"

/-- A header token: its kind, its text and its position in the header. -/
structure Token where
  kind : TokenKind
  value : String
  position : Nat

namespace Token

open Text

/-- Whether the text does not start with a word character. -/
def noWordAhead : List Char → Bool
  | c :: _ => !isWordChar c
  | [] => true

/-- The length of a comparison at the start of a text. -/
def comparisonLength : List Char → Option Nat
  | '=' :: '=' :: _ => some 2
  | '!' :: '=' :: _ => some 2
  | '<' :: '=' :: _ => some 2
  | '>' :: '=' :: _ => some 2
  | '<' :: _ => some 1
  | '>' :: _ => some 1
  | 'c' :: 'o' :: 'n' :: 't' :: 'a' :: 'i' :: 'n' :: 's' :: rest =>
    match rest with
    | c :: _ => if isWordChar c || c == '?' || c == '-' then none else some 8
    | [] => some 8
  | _ => none

/-- The length of a quoted string at the start of a text. -/
def stringLength : List Char → Option Nat
  | q :: rest =>
    if (q = '"' ∨ q = '\'') ∧ (rest.takeWhile (· != q)).length < rest.length then
      some ((rest.takeWhile (· != q)).length + 2)
    else none
  | [] => none

/-- The length of an unsigned number at the start of a text: digits and a
fraction, not followed by a word character; when only the fraction is
followed by one, the number ends before the point. -/
def unsignedLength : List Char → Option Nat
  | c :: rest =>
    if isDigit c then
      match rest.dropWhile isDigit with
      | '.' :: tail =>
        if !(tail.takeWhile isDigit).isEmpty && noWordAhead (tail.dropWhile isDigit) then
          some ((rest.takeWhile isDigit).length + (tail.takeWhile isDigit).length + 2)
        else some ((rest.takeWhile isDigit).length + 1)
      | after => if noWordAhead after then some ((rest.takeWhile isDigit).length + 1) else none
    else none
  | [] => none

/-- The length of a number at the start of a text: an optional `-` and an
unsigned number. -/
def numberLength : List Char → Option Nat
  | '-' :: rest => (unsignedLength rest).map (· + 1)
  | cs => unsignedLength cs

/-- The length of an identifier at the start of a text. -/
def identifierLength (cs : List Char) : Option Nat :=
  (Operand.spanName cs).map fun p => p.1.length

/-- The token at the start of a non-empty text: its kind (`none` for white
space) and length; `none` when no token starts there. -/
def tokenAt (cs : List Char) : Option (Option TokenKind × Nat) :=
  let spaces := (cs.takeWhile isSpace).length
  if 0 < spaces then some (none, spaces) else
  match comparisonLength cs with
  | some n => some (some .comparison, n)
  | none =>
  match stringLength cs with
  | some n => some (some .string, n)
  | none =>
  match numberLength cs with
  | some n => some (some .number, n)
  | none =>
  match identifierLength cs with
  | some n => some (some .identifier, n)
  | none =>
  match cs with
  | '.' :: '.' :: _ => some (some .dotdot, 2)
  | '.' :: _ => some (some .dot, 1)
  | '[' :: _ => some (some .lbracket, 1)
  | ']' :: _ => some (some .rbracket, 1)
  | '(' :: _ => some (some .lparen, 1)
  | ')' :: _ => some (some .rparen, 1)
  | _ => none

theorem comparisonLength_pos {cs : List Char} {n : Nat} (h : comparisonLength cs = some n) :
    0 < n := by
  unfold comparisonLength at h
  split at h <;> (try split at h) <;> (try split at h) <;> simp at h <;> omega

theorem stringLength_pos {cs : List Char} {n : Nat} (h : stringLength cs = some n) : 0 < n := by
  unfold stringLength at h
  split at h
  · split at h
    · simp only [Option.some.injEq] at h
      omega
    · simp at h
  · simp at h

theorem unsignedLength_pos {cs : List Char} {n : Nat} (h : unsignedLength cs = some n) : 0 < n := by
  unfold unsignedLength at h
  split at h
  · split at h
    · split at h
      · split at h <;> (simp only [Option.some.injEq] at h; omega)
      · split at h
        · simp only [Option.some.injEq] at h
          omega
        · simp at h
    · simp at h
  · simp at h

theorem numberLength_pos {cs : List Char} {n : Nat} (h : numberLength cs = some n) : 0 < n := by
  unfold numberLength at h
  split at h
  · obtain ⟨m, -, rfl⟩ := Option.map_eq_some_iff.1 h
    omega
  · exact unsignedLength_pos h

theorem identifierLength_pos {cs : List Char} {n : Nat} (h : identifierLength cs = some n) :
    0 < n := by
  unfold identifierLength at h
  obtain ⟨⟨name, rest⟩, hp, rfl⟩ := Option.map_eq_some_iff.1 h
  unfold Operand.spanName at hp
  split at hp
  · simp at hp
  · split at hp
    · split at hp <;> (simp only [Option.some.injEq, Prod.mk.injEq] at hp; obtain ⟨rfl, -⟩ := hp; simp)
    · simp at hp

theorem tokenAt_pos {cs : List Char} {k : Option TokenKind} {n : Nat}
    (h : tokenAt cs = some (k, n)) : 0 < n := by
  unfold tokenAt at h
  simp only at h
  split at h
  · simp only [Option.some.injEq, Prod.mk.injEq] at h
    omega
  · split at h
    · simp only [Option.some.injEq, Prod.mk.injEq] at h
      obtain ⟨-, rfl⟩ := h
      exact comparisonLength_pos (by assumption)
    · split at h
      · simp only [Option.some.injEq, Prod.mk.injEq] at h
        obtain ⟨-, rfl⟩ := h
        exact stringLength_pos (by assumption)
      · split at h
        · simp only [Option.some.injEq, Prod.mk.injEq] at h
          obtain ⟨-, rfl⟩ := h
          exact numberLength_pos (by assumption)
        · split at h
          · simp only [Option.some.injEq, Prod.mk.injEq] at h
            obtain ⟨-, rfl⟩ := h
            exact identifierLength_pos (by assumption)
          · split at h <;> simp only [Option.some.injEq, Prod.mk.injEq, reduceCtorEq] at h <;> omega

/-- Scans `cs`, which starts at position `pos` of the header `markup`; `done`
holds the tokens so far, last first. -/
def scanFrom (markup : String) (pos : Nat) (cs : List Char) (done : List Token) :
    Except SyntaxError (List Token) :=
  match cs with
  | [] => .ok (done.reverse ++ [⟨.eof, "", pos⟩])
  | c :: rest =>
    match h : tokenAt (c :: rest) with
    | none => .error { fault := .unexpectedCharacter c pos, markup := some markup }
    | some (kind, n) =>
      have : 0 < n := tokenAt_pos h
      let done' := match kind with
        | none => done
        | some k => ⟨k, String.ofList ((c :: rest).take n), pos⟩ :: done
      scanFrom markup (pos + n) ((c :: rest).drop n) done'
termination_by cs.length

/-- The tokens of a header, ending with the end token. -/
def scan (markup : String) : Except SyntaxError (List Token) := scanFrom markup 0 markup.toList []

end Token

end Branching
