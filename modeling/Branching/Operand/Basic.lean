import Branching.Value.Text

/-!
# Operands

An operand is one side of a comparison: a literal, a method literal, an
inclusive integer range `(first..last)` whose ends are operands, or a variable
path. A path starts at a root (a name, or a bracketed operand whose value names
the variable) and goes on with lookups: `.key` or `[operand]`.

Every operand has a markup, the text it is written as; `Operand.markup` builds
it from the parts (a literal keeps the text it was read from).
-/

namespace Branching

/-- A constant an operand can be. -/
inductive Literal where
  | nil
  | bool (b : Bool)
  | int (n : Int)
  | float (x : Binary64)
  | str (s : String)
  deriving DecidableEq

/-- The value of a literal. -/
def Literal.toValue : Literal → Value
  | .nil => .nil
  | .bool b => .bool b
  | .int n => .int n
  | .float x => .float x
  | .str s => .str s

mutual

/-- An operand of a condition. -/
inductive Operand where
  /-- A constant together with the text it was read from. -/
  | literal (value : Literal) (source : String)
  | method (m : Method)
  | range (first last : Operand)
  | path (root : Key) (lookups : List Key)

/-- A root or a lookup of a path: a plain name, or a bracketed operand. -/
inductive Key where
  | name (s : String)
  | index (o : Operand)

end

mutual

/-- The text an operand is written as. -/
def Operand.markup : Operand → String
  | .literal _ source => source
  | .method m => m.name
  | .range a b => "(" ++ a.markup ++ ".." ++ b.markup ++ ")"
  | .path root lookups => root.rootMarkup ++ Key.lookupsMarkup lookups

/-- The text of a path's root: the name, or the operand in brackets. -/
def Key.rootMarkup : Key → String
  | .name s => s
  | .index o => "[" ++ o.markup ++ "]"

/-- The text of lookups: `.name` or `[operand]` each. -/
def Key.lookupsMarkup : List Key → String
  | [] => ""
  | .name s :: ks => "." ++ s ++ Key.lookupsMarkup ks
  | .index o :: ks => "[" ++ o.markup ++ "]" ++ Key.lookupsMarkup ks

end

end Branching
