import Branching.Error

/-!
# The data order of values

Sorting mapping keys asks, pair by pair, whether one value is less than
another (`Value.lessThan`):

- truth values, integers and binary64 numbers compare by the numbers they
  stand for (a truth value as 0 or 1); NaN is less than nothing and nothing is
  less than NaN;
- texts compare by code points, byte strings by bytes;
- lists with lists and tuples with tuples compare at the first place where
  their items differ, and by length when one is a prefix of the other;
- dates compare by day; times of day compare by instant when both have a
  zone and by fields when neither has; a time of day with a zone and one
  without, or a date and a time of day, cannot be compared;
- any other pair cannot be compared either, and that is an error naming both
  types.

`remainingKeyOrder` gives the order in which the distinct keys of a mapping
come out of the set built from them and then stripped of some keys: the keys
with hash codes in the slot order of that set's table, then the others as
given.
-/

namespace Branching

namespace Value

/-- The name of a value's type in a refusal to order it. -/
def qualifiedTypeName : Value → String
  | date _ => "datetime.date"
  | dateTime _ => "datetime.datetime"
  | v => v.typeName

/-- The refusal to order two values. -/
def unorderedError (a b : Value) : Error :=
  .unordered ("'<' not supported between instances of '" ++ a.qualifiedTypeName ++ "' and '" ++
    b.qualifiedTypeName ++ "'")

/-- Whether one list of characters comes before another by code points. -/
def textLess : List Char → List Char → Bool
  | [], [] => false
  | [], _ :: _ => true
  | _ :: _, [] => false
  | a :: as, b :: bs => if a = b then textLess as bs else a < b

/-- Whether one byte string comes before another. -/
def bytesLess : List UInt8 → List UInt8 → Bool
  | [], [] => false
  | [], _ :: _ => true
  | _ :: _, [] => false
  | a :: as, b :: bs => if a = b then bytesLess as bs else a < b

/-- Whether one date comes before another. -/
def dateLess (d e : Date) : Bool :=
  d.year < e.year || (d.year = e.year && (d.month < e.month || (d.month = e.month && d.day < e.day)))

mutual

/-- Whether `a` is less than `b` in the data order; an error for a pair that
has none. Nested sequences use up the fuel. -/
def lessThan : Nat → Value → Value → Except Error Bool
  | 0, a, b => .error (unorderedError a b)
  | fuel + 1, a, b =>
    match a, b with
    | str s, str t => .ok (textLess s.toList t.toList)
    | bytes x, bytes y => .ok (bytesLess x y)
    | list xs, list ys => itemsLess fuel xs ys
    | tuple xs, tuple ys => itemsLess fuel xs ys
    | date d, date e => .ok (dateLess d e)
    | dateTime s, dateTime t =>
      match s.zone, t.zone with
      | some z, some w => .ok (decide (s.localMicros - z.offset * 1000000 < t.localMicros - w.offset * 1000000))
      | none, none => .ok (decide (s.localMicros < t.localMicros))
      | _, _ => .error (.unordered "can't compare offset-naive and offset-aware datetimes")
    | date _, dateTime _ | dateTime _, date _ =>
      .error (.unordered "can't compare datetime.datetime to datetime.date")
    | a, b =>
      if a.isNumeric && b.isNumeric then
        match a.toDyadic? true, b.toDyadic? true with
        | some x, some y => .ok (x.compare y == .lt)
        | _, _ => .ok false
      else .error (unorderedError a b)

/-- Whether one sequence comes before another: at the first place where the
items differ, by those items; otherwise by length. -/
def itemsLess : Nat → List Value → List Value → Except Error Bool
  | 0, _, _ => .ok false
  | fuel + 1, x :: xs, y :: ys =>
    if agrees x y then itemsLess fuel xs ys else lessThan fuel x y
  | _ + 1, xs, ys => .ok (decide (xs.length < ys.length))

end

/-- The fuel that ordering two values never runs out of. -/
def orderFuel : Value → Nat
  | list xs | tuple xs => 2 + xs.foldl (fun acc x => max acc (orderFuel x)) 0 + xs.length
  | _ => 2

/-- `lessThan` with enough fuel for both values. -/
def less (a b : Value) : Except Error Bool := lessThan (orderFuel a + orderFuel b) a b

/-- The order of the keys of a mapping that remain after taking out those
`drop` names, as the set of the keys minus those comes out: the keys with hash
codes in slot order, then the others as given. With twenty keys or more the
set is a copy of the first one; otherwise a new set built from the remaining
keys in that order. -/
def remainingKeyOrder (keys : List Value) (drop : Value → Bool) : List Value :=
  let coded := keys.filterMap fun k => k.hashCode?.map (k, ·)
  let first := (Layout.entries (coded.foldl Layout.place (Layout.empty (Layout.presetSize keys.length)))).filter
    fun e => !drop e.1
  let codedOrder :=
    if 20 ≤ keys.length then first.map Prod.fst else Layout.order first
  codedOrder ++ keys.filter fun k => k.hashCode?.isNone && !drop k

end Value

end Branching
