import Branching.Proofs.Lexing
import Branching.Condition.Strict

/-!
# The strict grammar as a relation on tokens

`Strict.parse` checks its grammar on tokens but builds each operand from the header text that
the operand's tokens span. Here the grammar is a relation on token lists that carries the tree
each derivation stands for; the text side is `Token.span`, the text from an operand's first token
to the end of its last.

## Main definitions

- `OperandToks ts o`, `LookupToks ts ks`: the tokens `ts` derive from `operand` (from `lookups`),
  and `o` is the tree of the derivation (`ks` its keys).
- `LinkToks`, `LinksToks`, `ChainToks`: comparisons and whole chains. A parameter `reads` holds of
  the tokens of every operand; the parser needs each operand's text to be readable.
- `Token.span`: the header text an operand's tokens span.

## Design notes

A derivation fixes the kinds of its tokens and the texts of names, strings, numbers and
operators; positions are free, so a derivation survives moving its tokens.
-/

namespace Branching

namespace Operand

/-- The tree of a path with root `k` and lookups `ks`: a lone name that is a reserved word stands
for that word's literal or method literal. -/
def pathOf : Key → List Key → Operand
  | .name v, [] => (reservedWord? v).getD (.path (.name v) [])
  | k, ks => .path k ks

/-- The literal a string token stands for: its text between the quotes. -/
def ofString (v : String) : Operand := .literal (.str (String.ofList v.toList.tail.dropLast)) v

/-- The literal a number token stands for: an integer when it has no fraction, else the nearest
binary64 number. -/
def ofNumber (v : String) : Operand :=
  match integer? v.toList with
  | some n => .literal (.int n) v
  | none => .literal (((decimal? v.toList).map Literal.float).getD .nil) v

end Operand

mutual

/-- `OperandToks ts o`: the tokens `ts` derive from `operand`, and `o` is the tree of the
derivation. An operand does not start with the keyword `and` or `or`. -/
inductive OperandToks : List Token → Operand → Prop
  | name {t : Token} {ts : List Token} {ks : List Key} :
      t.kind = .identifier → Strict.isKeyword t = false → LookupToks ts ks →
      OperandToks (t :: ts) (Operand.pathOf (.name t.value) ks)
  | index {l r : Token} {inner ts : List Token} {o : Operand} {ks : List Key} :
      l.kind = .lbracket → OperandToks inner o → r.kind = .rbracket → LookupToks ts ks →
      OperandToks (l :: inner ++ r :: ts) (.path (.index o) ks)
  | string {t : Token} : t.kind = .string → OperandToks [t] (Operand.ofString t.value)
  | number {t : Token} : t.kind = .number → OperandToks [t] (Operand.ofNumber t.value)
  | range {l d r : Token} {a b : List Token} {oa ob : Operand} :
      l.kind = .lparen → OperandToks a oa → d.kind = .dotdot → OperandToks b ob →
      r.kind = .rparen → OperandToks (l :: a ++ d :: b ++ [r]) (.range oa ob)

/-- `LookupToks ts ks`: the tokens `ts` derive from `lookups`, and `ks` are its keys. -/
inductive LookupToks : List Token → List Key → Prop
  | nil : LookupToks [] []
  | name {d t : Token} {ts : List Token} {ks : List Key} :
      d.kind = .dot → t.kind = .identifier → LookupToks ts ks →
      LookupToks (d :: t :: ts) (.name t.value :: ks)
  | index {l r : Token} {inner ts : List Token} {o : Operand} {ks : List Key} :
      l.kind = .lbracket → OperandToks inner o → r.kind = .rbracket → LookupToks ts ks →
      LookupToks (l :: inner ++ r :: ts) (.index o :: ks)

end

/-- `LinkToks reads ts l`: the tokens `ts` derive from `comparison` with link `l`, and `reads`
holds of the tokens of each of its operands. -/
inductive LinkToks (reads : List Token → Prop) : List Token → Link → Prop
  | single {ts : List Token} {o : Operand} :
      OperandToks ts o → reads ts → LinkToks reads ts ⟨o, none⟩
  | compare {ts us : List Token} {t : Token} {o p : Operand} :
      OperandToks ts o → reads ts → t.kind = .comparison → OperandToks us p → reads us →
      LinkToks reads (ts ++ t :: us) ⟨o, some (t.value, p)⟩

/-- `LinksToks reads ts rest`: the tokens `ts` derive from `(("and" | "or") comparison)* end`,
and `rest` are the links with the keyword before each. -/
inductive LinksToks (reads : List Token → Prop) : List Token → List (Combinator × Link) → Prop
  | done {t : Token} : t.kind = .eof → LinksToks reads [t] []
  | more {t : Token} {ls ts : List Token} {k : Combinator} {l : Link}
      {rest : List (Combinator × Link)} :
      t.kind = .identifier → Combinator.ofKeyword? t.value = some k → LinkToks reads ls l →
      LinksToks reads ts rest → LinksToks reads (t :: ls ++ ts) ((k, l) :: rest)

/-- `ChainToks reads ts c`: the tokens `ts` derive from `chain`, and `c` is its chain. -/
def ChainToks (reads : List Token → Prop) (ts : List Token) (c : Chain) : Prop :=
  ∃ hs rs, ts = hs ++ rs ∧ LinkToks reads hs c.head ∧ LinksToks reads rs c.rest

/-- The header text from the start of the first token of `toks` to the end of the last. -/
def Token.span (markup : String) (toks : List Token) : List Char :=
  match toks.head?, toks.getLast? with
  | some first, some last =>
    (markup.toList.drop first.position).take (last.position + last.value.length - first.position)
  | _, _ => []

/-- Whether the text an operand's tokens span reads as an operand. -/
def Reads (markup : String) (toks : List Token) : Prop :=
  ∃ o, Operand.parseChars (Token.span markup toks) = .ok o

end Branching
