import Branching.Condition.Basic
import Branching.Operand.Parser

/-!
# The lenient header grammar

A header is cut into words. A word is a run of units, where a unit is a quoted
text (`"…"` or `'…'`), a bracketed part (`[…]`, up to the first `]`), a
parenthesized part (`(…)`, up to the first `)`), or one character that is not
white space, a quote, `[` or `(`; when no unit starts at a non-space character,
that character alone is a word.

The words `and` and `or` divide the header into chunks (the other words of a
run, joined by single spaces); a keyword may not begin or end the header or
follow another one. Each chunk is read as `operand [operator [operand]]`, where
an operand is a run of fragment units (as above, but a single character may
also not be `,`, `|`, `=`, `!`, `<` or `>`) and the operator is a run of
`=!<>` characters or of lower-case letters and underscores. Text after a
complete comparison is ignored; text after a lone operand is an error.

The number of chunks is checked against the limit before any chunk is read,
and the chunks are read from the last to the first, so an error in a later
chunk is reported first.
-/

namespace Branching

namespace Lenient

open Text

/-- The length of the first `close` in `cs` plus one, if there is one. -/
def throughChar (close : Char) (cs : List Char) : Option Nat :=
  let before := cs.takeWhile (· != close)
  if before.length < cs.length then some (before.length + 1) else none

/-- The length of a quoted, bracketed or parenthesized unit at the start. -/
def groupLength : List Char → Option Nat
  | '"' :: rest => (throughChar '"' rest).map (· + 1)
  | '\'' :: rest => (throughChar '\'' rest).map (· + 1)
  | '[' :: rest => (throughChar ']' rest).map (· + 1)
  | '(' :: rest => (throughChar ')' rest).map (· + 1)
  | _ => none

/-- The length of a unit at the start, where `single` says which characters
are units on their own. -/
def unitLength (single : Char → Bool) : List Char → Option Nat
  | [] => none
  | c :: rest =>
    match groupLength (c :: rest) with
    | some n => some n
    | none => if single c then some 1 else none

/-- A character that is a word unit on its own. -/
def wordSingle (c : Char) : Bool :=
  !isSpace c && c != '"' && c != '\'' && c != '[' && c != '('

/-- A character that is a fragment unit on its own. -/
def fragmentSingle (c : Char) : Bool :=
  wordSingle c && !(",|=!<>".toList.contains c)

theorem throughChar_pos {c : Char} {cs : List Char} {n : Nat} (h : throughChar c cs = some n) :
    0 < n := by
  unfold throughChar at h
  simp only at h
  split at h
  · simp only [Option.some.injEq] at h
    omega
  · simp at h

theorem groupLength_pos {cs : List Char} {n : Nat} (h : groupLength cs = some n) : 0 < n := by
  unfold groupLength at h
  split at h <;> first
    | (obtain ⟨m, -, rfl⟩ := Option.map_eq_some_iff.1 h; omega)
    | simp at h

theorem unitLength_pos {single : Char → Bool} {cs : List Char} {n : Nat}
    (h : unitLength single cs = some n) : 0 < n := by
  unfold unitLength at h
  split at h
  · simp at h
  · split at h
    · simp only [Option.some.injEq] at h
      subst h
      exact groupLength_pos (by assumption)
    · split at h
      · simp only [Option.some.injEq] at h
        omega
      · simp at h

/-- The total length of the longest run of units at the start. -/
def runLength (single : Char → Bool) (cs : List Char) : Nat :=
  match h : unitLength single cs with
  | some n =>
    have hn : 0 < n := unitLength_pos h
    have : (cs.drop n).length < cs.length := by
      cases cs with
      | nil => simp [unitLength] at h
      | cons _ _ => simp only [List.length_drop, List.length_cons]; omega
    n + runLength single (cs.drop n)
  | none => 0
termination_by cs.length

/-- The length of the word at the start of a text that starts with a
non-space character: its run of word units, or that character alone. -/
def wordLength (cs : List Char) : Nat := max (runLength wordSingle cs) 1

/-- The words of a header, in order. -/
def words (cs : List Char) : List (List Char) :=
  match h : dropSpace cs with
  | [] => []
  | c :: rest =>
    have : (c :: rest).length ≤ cs.length := by rw [← h]; exact length_dropSpace_le cs
    have : 1 ≤ wordLength (c :: rest) := Nat.le_max_right _ _
    (c :: rest).take (wordLength (c :: rest)) :: words ((c :: rest).drop (wordLength (c :: rest)))
termination_by cs.length
decreasing_by simp only [List.length_drop, List.length_cons] at *; omega

/-- What splitting a header gives: its first chunk and each later chunk with
the keyword before it. -/
structure Pieces where
  first : List Char
  rest : List (Combinator × List Char)

/-- The flat list of chunks and keywords. -/
def Pieces.toList (p : Pieces) : List String :=
  String.ofList p.first :: p.rest.flatMap fun (c, chunk) => [c.keyword, String.ofList chunk]

/-- The number of chunks. -/
def Pieces.count (p : Pieces) : Nat := p.rest.length + 1

/-- The combinator a word is, if it is `and` or `or`. -/
def keyword? (w : List Char) : Option Combinator :=
  if w = ['a', 'n', 'd'] then some .and else if w = ['o', 'r'] then some .or else none

/-- Joins words with single spaces. -/
def joinWords (ws : List (List Char)) : List Char := List.intercalate [' '] ws

/-- Pieces from the closed chunks, each with the keyword after it, and the
last chunk. -/
def assemble : List (List Char × Combinator) → List Char → Pieces
  | [], last => ⟨last, []⟩
  | (chunk, k) :: more, last =>
    let p := assemble more last
    ⟨chunk, (k, p.first) :: p.rest⟩

/-- Groups words into chunks; `pending` holds the words of the chunk being
built (last first), `closed` the chunks so far with the keyword after each
(last first). -/
def group (markup : String) : List (List Char) → List (List Char) →
    List (List Char × Combinator) → Except SyntaxError Pieces
  | [], pending, closed =>
    if pending.isEmpty then
      match closed with
      | (_, k) :: _ => .error { fault := .missingOperandAfter k.keyword, markup := some markup }
      | [] => .error { fault := .emptyCondition, markup := some markup }
    else .ok (assemble closed.reverse (joinWords pending.reverse))
  | w :: ws, pending, closed =>
    match keyword? w with
    | some k =>
      if pending.isEmpty then
        .error { fault := .missingOperandBefore (String.ofList w), markup := some markup }
      else group markup ws [] ((joinWords pending.reverse, k) :: closed)
    | none => group markup ws (w :: pending) closed

/-- Splits a header into chunks and keywords. -/
def split (markup : String) : Except SyntaxError Pieces :=
  group markup (words markup.toList) [] []

/-- An operator at the start: a run of `=!<>`, or of lower-case letters and `_`. -/
def operatorLength (cs : List Char) : Nat :=
  let symbols := (cs.takeWhile fun c => "=!<>".toList.contains c).length
  if 0 < symbols then symbols
  else (cs.takeWhile fun c => ('a' ≤ c && c ≤ 'z') || c == '_').length

/-- How a chunk matches `operand [operator [operand]]` from its start: the
left operand, the operator and right operand when present, and the text after
the match. -/
structure Shape where
  left : List Char
  op : Option (List Char)
  right : Option (List Char)
  after : List Char

/-- Matches a chunk from its start. -/
def shape? (chunk : List Char) : Option Shape :=
  let s := dropSpace chunk
  let leftLen := runLength fragmentSingle s
  if leftLen = 0 then none
  else
    let left := s.take leftLen
    let afterLeft := s.drop leftLen
    let t := dropSpace afterLeft
    let opLen := operatorLength t
    if opLen = 0 then some ⟨left, none, none, afterLeft⟩
    else
      let op := t.take opLen
      let afterOp := t.drop opLen
      let u := dropSpace afterOp
      let rightLen := runLength fragmentSingle u
      if rightLen = 0 then some ⟨left, some op, none, afterOp⟩
      else some ⟨left, some op, some (u.take rightLen), u.drop rightLen⟩

/-- Reads one chunk as a link. -/
def link (markup : String) (chunk : List Char) : Except SyntaxError Link :=
  let fail (f : SyntaxFault) : Except SyntaxError Link := .error { fault := f, markup := some markup }
  match shape? chunk with
  | none => fail (.invalidExpression (String.ofList chunk))
  | some sh =>
    match sh.op, sh.right with
    | none, _ =>
      if (strip sh.after).isEmpty then
        match Operand.parseChars sh.left with
        | .error f => fail f
        | .ok left => .ok ⟨left, none⟩
      else fail (.invalidExpression (String.ofList chunk))
    | some op, none => fail (.missingOperandAfter (String.ofList op))
    | some op, some right =>
      match Operand.parseChars sh.left with
      | .error f => fail f
      | .ok left =>
        match Operand.parseChars right with
        | .error f => fail f
        | .ok r => .ok ⟨left, some (String.ofList op, r)⟩

/-- Reads a header in the lenient grammar with at most `limit` comparisons. -/
def parse (limit : Int) (markup : String) : Except SyntaxError Chain :=
  match split markup with
  | .error e => .error e
  | .ok pieces =>
    if limit < pieces.count then
      .error { fault := .chainTooLong limit, markup := some markup }
    else
      -- the chunks are read last first
      match (pieces.rest.reverse.mapM fun (k, chunk) => (link markup chunk).map (k, ·)) with
      | .error e => .error e
      | .ok restRev =>
        match link markup pieces.first with
        | .error e => .error e
        | .ok head => .ok ⟨head, restRev.reverse⟩

end Lenient

end Branching
