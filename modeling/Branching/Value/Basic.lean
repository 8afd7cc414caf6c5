import Branching.Number.Binary64
import Branching.Text.Space
import Branching.Calendar

/-!
# Values

The values that variables hold and operands resolve to: nil, truth values,
integers of any size, binary64 numbers, texts, lists, tuples, inclusive integer
ranges, sets, mappings in insertion order, and the two method literals `empty`
and `blank`, which stand for tests rather than data. Configuration files add
dates, dates with times of day, bytes, and ordered mappings, whose equality
with one another also compares the order of their keys.

This module gives the predicates that templates ask of a value (truthy, empty,
blank), its size, and data equality: numbers are equal by value (a truth value
counts as 0 or 1), sequences item by item, sets and mappings regardless of
order, ranges by the integers they hold.

NaN equals nothing, itself included, but a collection compares its items as
"the same datum or equal": every NaN the library is given is a word with its
own payload, and an item compared with the very same NaN word matches it. So
a list holding a NaN equals itself, and holds its own NaN item.

A collection read from a YAML file may hold itself, at any depth. Such a value
is finite all the same: where the collection recurs stands a reference back to
it (`cycle`), counting the collections between, and carrying the
collection's number. An item taken out of a collection is closed over it
(`item`): the references that pointed to the collection are replaced by the
collection itself, so every value the library hands on stands on its own. A
collection that holds itself is the same datum as another exactly when both
are the collection with the same number; comparing two different ones can go
on forever, and `equalsUpTo` says so by running out of fuel, which
`compareFuel` makes enough for every comparison that ends.
-/

namespace Branching

/-- The two method literals. -/
inductive Method where
  | empty
  | blank
  deriving DecidableEq

/-- The name a method literal is written with. -/
def Method.name : Method → String
  | .empty => "empty"
  | .blank => "blank"

/-- A value of the template language. -/
inductive Value where
  | nil
  | bool (b : Bool)
  | int (n : Int)
  | float (x : Binary64)
  | str (s : String)
  | list (items : List Value)
  | tuple (items : List Value)
  /-- The integers from `first` to `last`, both included; empty when `last < first`. -/
  | range (first last : Int)
  /-- A set, kept without two equal items, in the order its table gives them. -/
  | set (items : List Value)
  /-- A mapping, its entries in insertion order with no two equal keys. -/
  | dict (entries : List (Value × Value))
  | method (m : Method)
  /-- A calendar date. -/
  | date (d : Date)
  /-- A date with a time of day. -/
  | dateTime (t : DateTime)
  /-- A string of bytes. -/
  | bytes (data : List UInt8)
  /-- A mapping in insertion order that, compared with another such mapping,
  also compares the order of the keys. -/
  | ordered (entries : List (Value × Value))
  /-- Inside a collection that holds itself, the place where it recurs: the
  collection `up` levels above (0 for the collection right around it), which
  has the number `id`. -/
  | cycle (up : Nat) (id : Nat)

namespace Value

instance : Inhabited Value := ⟨nil⟩

/-- The name of a value's kind, as messages spell it. -/
def typeName : Value → String
  | nil => "NoneType"
  | bool _ => "bool"
  | int _ => "int"
  | float _ => "float"
  | str _ => "str"
  | list _ => "list"
  | tuple _ => "tuple"
  | range _ _ => "range"
  | set _ => "set"
  | dict _ => "dict"
  | method _ => "MethodLiteral"
  | date _ => "date"
  | dateTime _ => "datetime"
  | bytes _ => "bytes"
  | ordered _ => "ordereddict"
  | cycle _ _ => "cycle"

/-- Every value but nil and false is truthy; `0` and `""` are truthy. -/
def truthy : Value → Bool
  | nil => false
  | bool b => b
  | _ => true

/-- Texts, lists, tuples, sets and mappings without items are empty; ranges
and everything else are never empty. -/
def isEmpty : Value → Bool
  | str s => s.isEmpty
  | list xs => xs.isEmpty
  | tuple xs => xs.isEmpty
  | set xs => xs.isEmpty
  | dict es => es.isEmpty
  | ordered es => es.isEmpty
  | _ => false

/-- Nil, false, a text of white space only, and every empty value are blank. -/
def isBlank : Value → Bool
  | nil => true
  | bool b => !b
  | str s => Text.isAllSpace s.toList
  | v => v.isEmpty

/-- The number of integers in an inclusive range. -/
def rangeSize (first last : Int) : Nat := (last - first + 1).toNat

/-- The size of a value that has one: characters of a text, items of a
collection, entries of a mapping, integers of a range. -/
def size? : Value → Option Nat
  | str s => some s.length
  | list xs => some xs.length
  | tuple xs => some xs.length
  | set xs => some xs.length
  | dict es => some es.length
  | ordered es => some es.length
  | bytes bs => some bs.length
  | range first last => some (rangeSize first last)
  | _ => none

/-- A number as a point of the extended line: integers and binary64 numbers,
and the truth values as 0 and 1 when `withBool` holds. NaN is no point. -/
def toDyadic? (withBool : Bool) : Value → Option Dyadic
  | int n => some (.ofInt n)
  | float x => x.toDyadic?
  | bool b => if withBool then some (.ofInt (if b then 1 else 0)) else none
  | _ => none

/-- Whether a value is a number or a truth value. -/
def isNumeric : Value → Bool
  | int _ | float _ | bool _ => true
  | _ => false

/-- Numeric equality of numbers and truth values; NaN equals nothing. -/
def numEq (a b : Value) : Bool :=
  match a.toDyadic? true, b.toDyadic? true with
  | some x, some y => x.compare y == .eq
  | _, _ => false

/-- Whether a range holds a value: a number (or truth value) equal to one of
its integers. -/
def rangeHolds (first last : Int) : Value → Bool
  | bool b => decide (first ≤ (if b then 1 else 0)) && decide ((if b then 1 else 0) ≤ last)
  | int n => decide (first ≤ n) && decide (n ≤ last)
  | float x =>
    match x.truncate?, x.toDyadic? with
    | some n, some d => Dyadic.compare (.ofInt n) d == .eq && decide (first ≤ n) && decide (n ≤ last)
    | _, _ => false
  | _ => false

mutual

/-- Closes `v`, an item found `depth` collections below `outer`: the
references to `outer` become `outer` itself, and those to collections above
it point one level less far. -/
def close (outer : Value) (depth : Nat) : Value → Value
  | cycle up id =>
    if up = depth then outer else if depth < up then cycle (up - 1) id else cycle up id
  | list xs => list (closeAll outer (depth + 1) xs)
  | tuple xs => tuple (closeAll outer (depth + 1) xs)
  | set xs => set (closeAll outer (depth + 1) xs)
  | dict es => dict (closeEntries outer (depth + 1) es)
  | ordered es => ordered (closeEntries outer (depth + 1) es)
  | v => v

/-- Closes the items of a collection `depth` levels below `outer`. -/
def closeAll (outer : Value) (depth : Nat) : List Value → List Value
  | [] => []
  | x :: xs => close outer depth x :: closeAll outer depth xs

/-- Closes the keys and values of a mapping `depth` levels below `outer`. -/
def closeEntries (outer : Value) (depth : Nat) : List (Value × Value) → List (Value × Value)
  | [] => []
  | (k, v) :: es => (close outer depth k, close outer depth v) :: closeEntries outer depth es

end

/-- An item of a collection, as a value of its own. -/
def item (outer x : Value) : Value := close outer 0 x

mutual

/-- The number of the collection that the references in `v` at `depth` point
back to, if any does: `v` stands `depth` collections below it. -/
def backTo? (depth : Nat) : Value → Option Nat
  | cycle up id => if up = depth then some id else none
  | list xs | tuple xs | set xs => backToAny? (depth + 1) xs
  | dict es | ordered es => backToEntries? (depth + 1) es
  | _ => none

/-- `backTo?` over items. -/
def backToAny? (depth : Nat) : List Value → Option Nat
  | [] => none
  | x :: xs => (backTo? depth x).or (backToAny? depth xs)

/-- `backTo?` over keys and values. -/
def backToEntries? (depth : Nat) : List (Value × Value) → Option Nat
  | [] => none
  | (k, v) :: es => ((backTo? depth k).or (backTo? depth v)).or (backToEntries? depth es)

end

/-- The number of a collection that holds itself. -/
def selfNumber? : Value → Option Nat
  | list xs | tuple xs | set xs => backToAny? 0 xs
  | dict es | ordered es => backToEntries? 0 es
  | _ => none

/-- Whether two values are one and the same NaN word. Any other datum equal
to itself is found equal by `equals` anyway. -/
def sameNaN : Value → Value → Bool
  | float x, float y => x.isNaN && x == y
  | _, _ => false

/-- Whether two values are one and the same datum where that decides their
equality: the same NaN word, or the same collection that holds itself. -/
def identical (a b : Value) : Bool :=
  sameNaN a b ||
    match selfNumber? a, selfNumber? b with
    | some i, some j => i == j
    | _, _ => false

mutual

/-- The number of constructors in a value. -/
def weight : Value → Nat
  | list xs | tuple xs | set xs => 1 + weightAll xs
  | dict es | ordered es => 1 + weightEntries es
  | _ => 1

/-- The weight of items. -/
def weightAll : List Value → Nat
  | [] => 0
  | x :: xs => weight x + weightAll xs

/-- The weight of keys and values. -/
def weightEntries : List (Value × Value) → Nat
  | [] => 0
  | (k, v) :: es => weight k + weight v + weightEntries es

end

/-- Item-by-item agreement of two sequences, by `agree`, up to the first pair
that does not agree. -/
def itemsAgreeWith (agree : Value → Value → Option Bool) : List Value → List Value → Option Bool
  | [], [] => some true
  | x :: xs, y :: ys =>
    match agree x y with
    | some true => itemsAgreeWith agree xs ys
    | r => r
  | _, _ => some false

/-- Whether every entry of the first mapping has a key that agrees with one of
the second's, whose value agrees with its own, by `agree`, entry by entry. -/
def entriesAgreeWith (agree : Value → Value → Option Bool) :
    List (Value × Value) → List (Value × Value) → Option Bool
  | [], _ => some true
  | (k, v) :: es, fs =>
    match fs.find? fun e => agree k e.1 == some true with
    | none => some false
    | some (_, w) =>
      match agree v w with
      | some true => entriesAgreeWith agree es fs
      | r => r

/-- Whether two mappings of one length have agreeing keys at each place. -/
def keysInOrderWith (agree : Value → Value → Option Bool) :
    List (Value × Value) → List (Value × Value) → Option Bool
  | (k, _) :: es, (l, _) :: fs =>
    match agree k l with
    | some true => keysInOrderWith agree es fs
    | r => r
  | _, _ => some true

/-- Whether every item of the first list equals some item of the second, by
`agree`. -/
def itemsWithinWith (agree : Value → Value → Option Bool) : List Value → List Value → Bool
  | [], _ => true
  | x :: xs, ys => ys.any (fun y => agree x y == some true) && itemsWithinWith agree xs ys

/-- Data equality of two values one level down, with `agree` comparing their
items, each closed over its collection. -/
def equalsWith (agree : Value → Value → Option Bool) (a b : Value) : Option Bool :=
  let mappings (xs ys : List (Value × Value)) : Option Bool :=
    if xs.length != ys.length then some false
    else entriesAgreeWith agree (closeEntries a 0 xs) (closeEntries b 0 ys)
  match a, b with
  | nil, nil => some true
  | str s, str t => some (s == t)
  | list xs, list ys =>
    if xs.length != ys.length then some false else itemsAgreeWith agree (closeAll a 0 xs) (closeAll b 0 ys)
  | tuple xs, tuple ys =>
    if xs.length != ys.length then some false else itemsAgreeWith agree (closeAll a 0 xs) (closeAll b 0 ys)
  | range p q, range r t => some (rangeSize p q == rangeSize r t && (rangeSize p q == 0 || p == r))
  | set xs, set ys => some (xs.length == ys.length && itemsWithinWith agree xs ys)
  | dict xs, dict ys => mappings xs ys
  | dict xs, ordered ys => mappings xs ys
  | ordered xs, dict ys => mappings xs ys
  | ordered xs, ordered ys =>
    match mappings xs ys with
    | some true => keysInOrderWith agree xs ys
    | r => r
  | method m, method n => some (m == n)
  | date d, date e => some (d == e)
  | dateTime t, dateTime u => some (t.same u)
  | bytes x, bytes y => some (x == y)
  | cycle i m, cycle j n => some (i == j && m == n)
  | x, y => some (numEq x y)

/-- Data equality of two values, comparing nested collections while the fuel
lasts: `none` when it runs out. Items are compared as "the same datum or
equal". -/
def equalsUpTo : Nat → Value → Value → Option Bool
  | 0, _, _ => none
  | fuel + 1, a, b => equalsWith (fun x y => if identical x y then some true else equalsUpTo fuel x y) a b

/-- Fuel enough for every comparison of `a` and `b` that ends: a comparison
that goes on meets the same pair of parts of them twice on its way down, and
there are no more pairs than the product of their weights. -/
def compareFuel (a b : Value) : Nat := (weight a + 1) * (weight b + 1) + 1

/-- Data equality of two values that do not hold themselves. -/
def equals (a b : Value) : Bool := (equalsUpTo (compareFuel a b) a b).getD false

/-- Equality of collection items: the same datum, or equal data. -/
def agrees (a b : Value) : Bool := identical a b || equals a b

/-- Equality of collection items while the fuel lasts. -/
def agreesUpTo (fuel : Nat) (a b : Value) : Option Bool :=
  if identical a b then some true else equalsUpTo fuel a b

/-- Whether a value can be a set item or a mapping key: lists, sets and
mappings cannot, a tuple only when all its items can. -/
def unhashableKind? : Value → Option String
  | list _ => some "list"
  | set _ => some "set"
  | dict _ => some "dict"
  | ordered _ => some "ordereddict"
  | tuple xs => unhashableInTuple xs
  | _ => none
where
  unhashableInTuple : List Value → Option String
  | [] => none
  | x :: xs => (unhashableKind? x).or (unhashableInTuple xs)

/-- The entry of a mapping whose key equals `key`. -/
def lookup? (entries : List (Value × Value)) (key : Value) : Option Value :=
  (entries.find? fun e => agrees e.1 key).map Prod.snd

/-- Whether some item agrees with `v`, by `agree`, trying the items in order;
`none` when a comparison does not end. -/
def anyAgrees (agree : Value → Value → Option Bool) (v : Value) : List Value → Option Bool
  | [] => some false
  | x :: xs =>
    match agree x v with
    | some false => anyAgrees agree v xs
    | r => r

/-- Whether a collection holds a value by data equality: items of lists,
tuples and sets, keys of mappings, integers of ranges; `none` when comparing
an item with it does not end. Testing a set or a mapping for an item that
cannot be one holds nothing. -/
def holdsUpTo (c v : Value) : Option Bool :=
  let agree := agreesUpTo (compareFuel c v)
  match c with
  | list xs | tuple xs => anyAgrees agree v (closeAll c 0 xs)
  | set xs => if (unhashableKind? v).isSome then some false else anyAgrees agree v xs
  | dict es | ordered es =>
    if (unhashableKind? v).isSome then some false else anyAgrees agree v (es.map Prod.fst)
  | range first last => some (rangeHolds first last v)
  | _ => some false

/-- Adds an item to a set unless an equal one is there. -/
def insertItem (items : List Value) (v : Value) : List Value :=
  if items.any fun x => agrees x v then items else items ++ [v]

/-- Sets `key` to `v` in a mapping: an entry with an equal key keeps its place
and takes the new value; otherwise the entry goes last. -/
def insertEntry (entries : List (Value × Value)) (key v : Value) : List (Value × Value) :=
  if entries.any fun e => agrees e.1 key then
    entries.map fun e => if agrees e.1 key then (e.1, v) else e
  else entries ++ [(key, v)]

end Value

end Branching
