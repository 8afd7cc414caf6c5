import Branching.Operand.Resolve
import Branching.Comparison

/-!
# Condition chains

A branch header is a chain of links joined by `and` or `or`. A link is an
operand, tested for truthiness, or a comparison `left op right`; the operator is
kept as written and checked only when the link is evaluated.

A chain is evaluated from the left with no precedence between `and` and `or`,
grouping from the right: `a and b or c` means `a and (b or c)`. The walk stops
at the first link joined by `or` that holds, or joined by `and` that fails;
otherwise the last evaluated link decides. Links after the stop are never
evaluated, so their errors never surface.

The text of a chain joins the links' texts and the keywords with single spaces.
-/

namespace Branching

/-- The keyword joining a link to the next. -/
inductive Combinator where
  | and
  | or
  deriving DecidableEq

/-- The word a combinator is written as. -/
def Combinator.keyword : Combinator → String
  | .and => "and"
  | .or => "or"

/-- The combinator a word spells, if any. -/
def Combinator.ofKeyword? (s : String) : Option Combinator :=
  if s = "and" then some .and else if s = "or" then some .or else none

/-- One comparison of a header, or a single operand. -/
structure Link where
  left : Operand
  /-- The operator as written and the right operand, if the link compares. -/
  comparison : Option (String × Operand) := none

/-- A header: its first link and the links that follow, each with the keyword
joining it to the link before. -/
structure Chain where
  head : Link
  rest : List (Combinator × Link) := []

namespace Link

/-- The text of a link: `left` or `left op right`. -/
def text (l : Link) : String :=
  match l.comparison with
  | none => l.left.markup
  | some (op, right) => l.left.markup ++ " " ++ op ++ " " ++ right.markup

/-- Whether a link holds in a context. -/
def evaluate (ctx : Context) (l : Link) : Except Error Bool :=
  match l.left.resolve ctx with
  | .error e => .error e
  | .ok left =>
    match l.comparison with
    | none => .ok left.truthy
    | some (op, right) =>
      match right.resolve ctx with
      | .error e => .error e
      | .ok r => compare left op r

end Link

namespace Chain

/-- All links in source order. -/
def links (c : Chain) : List Link := c.head :: c.rest.map Prod.snd

/-- The number of links. -/
def length (c : Chain) : Nat := c.rest.length + 1

/-- The text of a chain. -/
def text (c : Chain) : String :=
  c.rest.foldl (fun acc p => acc ++ " " ++ p.1.keyword ++ " " ++ p.2.text) c.head.text

/-- Walks the links from `current`: evaluates it, stops when its combinator
is `or` and it holds or `and` and it fails, and otherwise goes on. -/
def walk (ctx : Context) (current : Link) : List (Combinator × Link) → Except Error Bool
  | [] => current.evaluate ctx
  | (c, next) :: rest =>
    match current.evaluate ctx with
    | .error e => .error e
    | .ok r =>
      match c, r with
      | .or, true => .ok true
      | .and, false => .ok false
      | _, _ => walk ctx next rest

/-- Whether a chain holds in a context. -/
def evaluate (ctx : Context) (c : Chain) : Except Error Bool := walk ctx c.head c.rest

end Chain

end Branching
