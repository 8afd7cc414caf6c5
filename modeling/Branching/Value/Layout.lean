import Branching.Value.Hash

/-!
# The slot layout of a set

A set is written in the order of the slots its items occupy in an
open-addressing table of their hash codes. The table has a power-of-two number
of slots, eight at first. An item's search starts at the slot given by the low
bits of its code; from a slot at least ten places before the end, the next nine
slots are tried too. Then the search jumps: the remaining high bits of the code
are shifted right by five and the slot becomes `5 * slot + 1 + bits`, modulo
the table size. Once the table is three-fifths full it is rebuilt with the
smallest power of two above four times the item count, inserting the old
items in slot order.

A set built at once from a mapping's keys sizes its table for all of them
first (`presetSize`) and then places them without rebuilding; a set built
from a sequence takes its items one after another (`order`). A set value keeps
its items in the order its table gives them (`Value.setAdding`,
`Value.setOfKeys`).

Every slot is reached: once the shifted bits are zero the jumps run through
all residues, so a search is given the table size plus the 64 shifts as fuel.
-/

namespace Branching

namespace Layout

/-- A table of slots, each empty or holding an item with its code. -/
abbrev Table (α : Type) := Array (Option (α × UInt64))

/-- Whether slot `k` exists and is empty. -/
def isFree (table : Table α) (k : Nat) : Bool :=
  match table[k]? with
  | some none => true
  | _ => false

/-- The first free slot of a search that starts at `slot` with the shifted
bits `bits`. -/
def freeSlot (table : Table α) : Nat → Nat → UInt64 → Option Nat
  | 0, _, _ => none
  | fuel + 1, slot, bits =>
    let mask := table.size - 1
    let run := if slot + 9 ≤ mask then List.range 10 else [0]
    match run.find? fun j => isFree table (slot + j) with
    | some j => some (slot + j)
    | none =>
      let bits := bits >>> 5
      freeSlot table fuel ((slot * 5 + 1 + bits.toNat) % table.size) bits

/-- Puts an item into the first free slot of its search. -/
def place (table : Table α) (entry : α × UInt64) : Table α :=
  match freeSlot table (table.size + 64) (entry.2.toNat % table.size) entry.2 with
  | some k => table.set! k (some entry)
  | none => table

/-- The items of a table in slot order. -/
def entries (table : Table α) : List (α × UInt64) := table.toList.filterMap id

/-- The table size after a rebuild for `count` items: the smallest power of
two above four times the count (twice, past fifty thousand items), at least
eight. -/
def grownSize (count : Nat) : Nat :=
  let least := if count > 50000 then 2 * count else 4 * count
  if least < 8 then 8 else Nat.pow 2 (least.log2 + 1)

/-- An empty table. -/
def empty (size : Nat) : Table α := Array.replicate size none

/-- Inserts an item that is not yet in the table, holding `count` items, and
rebuilds the table when it becomes three-fifths full. -/
def insert (state : Table α × Nat) (entry : α × UInt64) : Table α × Nat :=
  let table := place state.1 entry
  let count := state.2 + 1
  if count * 5 ≥ (table.size - 1) * 3 then
    ((entries table).foldl place (empty (grownSize count)), count)
  else (table, count)

/-- The order of distinct items with their codes after inserting them one
after another into an empty table. -/
def order (items : List (α × UInt64)) : List α :=
  (entries (items.foldl insert (empty 8, 0)).1).map Prod.fst

/-- The table size of a set built at once from `count` distinct items: eight
while they fill less than three-fifths of it, otherwise the smallest power of
two above twice the count. -/
def presetSize (count : Nat) : Nat :=
  if count * 5 ≥ 21 then Nat.pow 2 ((2 * count).log2 + 1) else 8

/-- The order of distinct items with their codes in a table sized for all of
them at once. -/
def presetOrder (items : List (α × UInt64)) : List α :=
  (entries (items.foldl place (empty (presetSize items.length)))).map Prod.fst

end Layout

namespace Value

/-- Distinct items in the order a table laid out by `layout` gives them: those
with a hash code in slot order, then the others as given. -/
def tableOrder (layout : List (Value × UInt64) → List Value) (items : List Value) : List Value :=
  layout (items.filterMap fun v => v.hashCode?.map (v, ·)) ++ items.filter fun v => v.hashCode?.isNone

/-- The set of some values, built by adding them one after another: an item
equal to an earlier one is left out. -/
def setAdding (vs : List Value) : Value :=
  .set (tableOrder Layout.order (vs.foldl insertItem []))

/-- The set of a mapping's distinct keys, built at once from the mapping. -/
def setOfKeys (keys : List Value) : Value :=
  .set (tableOrder Layout.presetOrder keys)

end Value

end Branching
