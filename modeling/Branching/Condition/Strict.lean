import Branching.Condition.Basic
import Branching.Condition.Token
import Branching.Operand.Parser

/-!
# The strict header grammar

```
chain      := comparison (("and" | "or") comparison)* end
comparison := operand (COMPARISON operand)?
operand    := IDENTIFIER lookups | "[" operand "]" lookups | STRING | NUMBER
            | "(" operand ".." operand ")"
lookups    := ("." IDENTIFIER | "[" operand "]")*
```

An operand may not start with the identifier `and` or `or`. The tokens of an
operand only fix where it starts and ends: its tree is read from the header
text between those two points by `Operand.parseChars`, so the strict and
lenient grammars build operands the same way. A chain may have at most the
given number of comparisons; the count is checked at each keyword.

Every function here consumes tokens and returns the rest with a proof that it
is no longer (shorter, when something was consumed).
-/

namespace Branching

namespace Strict

/-- The end token of a token list that has run out. -/
def endToken (ts : List Token) : Token :=
  ⟨.eof, "", (ts.getLast?.map Token.position).getD 0⟩

/-- The token at the front. -/
def current (ts : List Token) : Token := ts.headD (endToken ts)

/-- The token list left after a step, fewer than `ts`. -/
abbrev Fewer (ts : List Token) := { r : List Token // r.length < ts.length }

/-- The token list left after a step, no more than `ts`. -/
abbrev NoMore (ts : List Token) := { r : List Token // r.length ≤ ts.length }

/-- A syntax error in the header `markup`. -/
def fail {α : Type} (markup : String) (f : SyntaxFault) : Except SyntaxError α :=
  .error { fault := f, markup := some markup }

/-- Takes a token of the given kind from the front. -/
def expect (markup : String) (kind : TokenKind) (ts : List Token) :
    Except SyntaxError (Token × Fewer ts) :=
  match ts with
  | t :: rest =>
    if t.kind = kind then .ok (t, ⟨rest, by simp⟩)
    else fail markup (.expectedToken kind.name (if t.value.isEmpty then "end of expression" else t.value))
  | [] => fail markup (.expectedToken kind.name "end of expression")

/-- Whether a token is the keyword `and` or `or`. -/
def isKeyword (t : Token) : Bool := t.kind == .identifier && (t.value == "and" || t.value == "or")

mutual

/-- Skips one operand; gives its last token and the tokens after it. -/
def skipOperand (markup : String) (ts : List Token) : Except SyntaxError (Token × Fewer ts) :=
  match ts with
  | [] => fail markup .endOfExpression
  | t :: rest =>
    if isKeyword t then fail markup (.keywordAsOperand t.value)
    else
    match t.kind with
    | .identifier =>
      match skipLookups markup t rest with
      | .error e => .error e
      | .ok (last, r) => .ok (last, ⟨r.1, by have := r.2; simp; omega⟩)
    | .lbracket =>
      match skipOperand markup rest with
      | .error e => .error e
      | .ok (_, r1) =>
        match expect markup .rbracket r1.1 with
        | .error e => .error e
        | .ok (close, r2) =>
          match skipLookups markup close r2.1 with
          | .error e => .error e
          | .ok (last, r3) =>
            .ok (last, ⟨r3.1, by have := r1.2; have := r2.2; have := r3.2; simp; omega⟩)
    | .string | .number => .ok (t, ⟨rest, by simp⟩)
    | .lparen =>
      match skipOperand markup rest with
      | .error e => .error e
      | .ok (_, r1) =>
        match expect markup .dotdot r1.1 with
        | .error e => .error e
        | .ok (_, r2) =>
          match skipOperand markup r2.1 with
          | .error e => .error e
          | .ok (_, r3) =>
            match expect markup .rparen r3.1 with
            | .error e => .error e
            | .ok (close, r4) =>
              .ok (close, ⟨r4.1, by
                have := r1.2; have := r2.2; have := r3.2; have := r4.2; simp; omega⟩)
    | .eof => fail markup .endOfExpression
    | _ => fail markup (.notAnExpression t.value)
termination_by ts.length

/-- Skips lookups after the token `last`; gives the last token skipped. -/
def skipLookups (markup : String) (last : Token) (ts : List Token) :
    Except SyntaxError (Token × NoMore ts) :=
  match ts with
  | [] => .ok (last, ⟨[], by simp⟩)
  | t :: rest =>
    match t.kind with
    | .lbracket =>
      match skipOperand markup rest with
      | .error e => .error e
      | .ok (_, r1) =>
        match expect markup .rbracket r1.1 with
        | .error e => .error e
        | .ok (close, r2) =>
          match skipLookups markup close r2.1 with
          | .error e => .error e
          | .ok (last', r3) =>
            .ok (last', ⟨r3.1, by have := r1.2; have := r2.2; have := r3.2; simp; omega⟩)
    | .dot =>
      match expect markup .identifier rest with
      | .error e => .error e
      | .ok (name, r1) =>
        match skipLookups markup name r1.1 with
        | .error e => .error e
        | .ok (last', r2) => .ok (last', ⟨r2.1, by have := r1.2; have := r2.2; simp; omega⟩)
    | _ => .ok (last, ⟨t :: rest, Nat.le_refl _⟩)
termination_by ts.length

end

/-- Reads one operand: skips its tokens and reads the header text they span. -/
def operand (markup : String) (ts : List Token) : Except SyntaxError (Operand × Fewer ts) :=
  let start := current ts
  match skipOperand markup ts with
  | .error e => .error e
  | .ok (last, r) =>
    let source := (markup.toList.drop start.position).take
      (last.position + last.value.length - start.position)
    match Operand.parseChars source with
    | .error f => fail markup f
    | .ok o => .ok (o, r)

/-- Reads one comparison or single operand. -/
def comparison (markup : String) (ts : List Token) : Except SyntaxError (Link × Fewer ts) :=
  match operand markup ts with
  | .error e => .error e
  | .ok (left, r1) =>
    match h : r1.1 with
    | t :: rest =>
      if t.kind = .comparison then
        match operand markup rest with
        | .error e => .error e
        | .ok (right, r2) =>
          .ok (⟨left, some (t.value, right)⟩, ⟨r2.1, by
            have := r1.2; have := r2.2; rw [h] at *; simp at *; omega⟩)
      else .ok (⟨left, none⟩, r1)
    | [] => .ok (⟨left, none⟩, r1)

/-- Reads `(keyword comparison)*` after `count` comparisons, up to `limit`
comparisons; gives the links read, in order, and the tokens left. -/
def links (markup : String) (limit : Int) (count : Nat) (ts : List Token) :
    Except SyntaxError (List (Combinator × Link) × List Token) :=
  match ts with
  | t :: rest =>
    match (if t.kind = .identifier then Combinator.ofKeyword? t.value else none) with
    | some c =>
      if limit < count + 1 then fail markup (.chainTooLong limit)
      else
        match comparison markup rest with
        | .error e => .error e
        | .ok (link, r) =>
          have := r.2
          match links markup limit (count + 1) r.1 with
          | .error e => .error e
          | .ok (more, left) => .ok ((c, link) :: more, left)
    | none => .ok ([], t :: rest)
  | [] => .ok ([], [])
termination_by ts.length

/-- Reads a header in the strict grammar with at most `limit` comparisons. -/
def parse (limit : Int) (markup : String) : Except SyntaxError Chain :=
  match Token.scan markup with
  | .error e => .error e
  | .ok ts =>
    if (current ts).kind = .eof then fail markup .emptyCondition
    else
      match comparison markup ts with
      | .error e => .error e
      | .ok (head, r) =>
        match links markup limit 1 r.1 with
        | .error e => .error e
        | .ok (rest, left) =>
          let t := current left
          if t.kind = .eof then .ok ⟨head, rest⟩
          else fail markup (.trailingInput t.value t.position)

end Strict

end Branching
