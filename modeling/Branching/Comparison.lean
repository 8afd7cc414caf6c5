import Branching.Error

/-!
# Comparisons

The seven comparators of a condition and what they ask of two resolved values.

- `==` and `!=` use comparator equality: a method literal on either side tests
  the other side (`empty`, `blank`), two method literals are equal when they are
  the same, a truth value never equals a value that is not one, and otherwise
  values are equal as data.
- `<`, `>`, `<=`, `>=` order two numbers exactly (NaN is in no order) or two
  texts by code points; any other pair, truth values included, is an error.
- `contains` asks whether a text has the display text of the other value as a
  part, or whether a collection holds the other value.

A symbol outside the seven is an error whatever the values.
-/

namespace Branching

/-- A comparator of a condition. -/
inductive Comparator where
  | eq
  | ne
  | lt
  | gt
  | le
  | ge
  | contains
  deriving DecidableEq

namespace Comparator

/-- The symbol a comparator is written with. -/
def symbol : Comparator → String
  | eq => "=="
  | ne => "!="
  | lt => "<"
  | gt => ">"
  | le => "<="
  | ge => ">="
  | contains => "contains"

/-- All comparators. -/
def all : List Comparator := [eq, ne, lt, gt, le, ge, contains]

/-- The comparator written exactly as `s`. -/
def ofSymbol? (s : String) : Option Comparator := all.find? fun c => c.symbol == s

/-- Whether an ordering comparator holds of an order. -/
def accepts : Comparator → Ordering → Bool
  | lt, o => o == .lt
  | gt, o => o == .gt
  | le, o => o != .gt
  | ge, o => o != .lt
  | _, _ => false

end Comparator

/-- Whether a method literal's test holds of a value. -/
def Method.test : Method → Value → Bool
  | .empty, v => v.isEmpty
  | .blank, v => v.isBlank

/-- Whether `needle` occurs as a contiguous part of `hay`. -/
def occursIn (needle : List Char) : List Char → Bool
  | [] => needle.isEmpty
  | c :: rest => needle.isPrefixOf (c :: rest) || occursIn needle rest

/-- The order of two texts by code points. -/
def textOrder : List Char → List Char → Ordering
  | [], [] => .eq
  | [], _ :: _ => .lt
  | _ :: _, [] => .gt
  | a :: as, b :: bs => if a < b then .lt else if b < a then .gt else textOrder as bs

namespace Value

/-- Comparator equality; `none` when comparing collections that hold
themselves does not end. -/
def sameAs : Value → Value → Option Bool
  | method m, method n => some (m == n)
  | method m, v => some (m.test v)
  | v, method m => some (m.test v)
  | bool a, bool b => some (a == b)
  | bool _, _ => some false
  | _, bool _ => some false
  | a, b => a.equalsUpTo (compareFuel a b) b

/-- Whether a value is an integer or a binary64 number. -/
def isNumber : Value → Bool
  | int _ | float _ => true
  | _ => false

/-- The order of two values that have one: `none` when the pair cannot be
ordered, `some none` when one of two numbers is NaN. -/
def order? (l r : Value) : Option (Option Ordering) :=
  match l, r with
  | str s, str t => some (some (textOrder s.toList t.toList))
  | _, _ =>
    if l.isNumber && r.isNumber then
      some (match l.toDyadic? false, r.toDyadic? false with
        | some a, some b => some (a.compare b)
        | _, _ => none)
    else none

/-- Whether the left value contains the right one: a text contains the display
text of any value but nil; lists, tuples, sets, mappings and ranges contain what
they hold. `none` when comparing an item with the right value does not end. -/
def containsValue : Value → Value → Option Bool
  | str s, r => some ((match r with | nil => false | _ => true) && occursIn r.display.toList s.toList)
  | l, r => l.holdsUpTo r

end Value

/-- The answer of a comparison, or the refusal of one that does not end. -/
def ended : Option Bool → Except Error Bool
  | some b => .ok b
  | none => .error (.endless " in comparison")

/-- Applies a comparator to two values. -/
def Comparator.apply : Comparator → Value → Value → Except Error Bool
  | .eq, l, r => ended (l.sameAs r)
  | .ne, l, r => (ended (l.sameAs r)).map (!·)
  | .contains, l, r =>
    match l, r with
    | .str _, .nil => pure false
    | .str _, r => if r.displayFits then ended (l.containsValue r) else .error .intTooLong
    | _, _ => ended (l.containsValue r)
  | c, l, r =>
    match l.order? r with
    | none => .error (Error.writing [l, r] (.incomparable l c.symbol r))
    | some none => pure false
    | some (some o) => pure (c.accepts o)

/-- Compares two values with the comparator written `symbol`. -/
def compare (l : Value) (symbol : String) (r : Value) : Except Error Bool :=
  match Comparator.ofSymbol? symbol with
  | none => .error (.unknownOperator symbol)
  | some c => c.apply l r

end Branching
