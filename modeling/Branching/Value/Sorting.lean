import Branching.Value.Order

/-!
# Sorting values by the data order

`Value.sortValues` sorts a list by `Value.less` with the engine's stable
merge sort, asking the same questions in the same order. That matters twice:
when some pair cannot be compared, the pair that fails first (and so the order
of the two types in the message) is the engine's; and values that are not
totally ordered (NaN) end up where the engine leaves them.

The sort works on runs:

- a run is the longest stretch from the current place on that ascends (each
  value not less than the one before) or strictly descends, in which case it
  is reversed; a run shorter than the minimum run length is lengthened by
  binary insertion;
- the minimum run length of `n` values is `n` itself below 64; otherwise the
  six leading bits of `n`, plus one if any bit below them is set;
- each boundary between two neighbouring runs has a power, the first binary
  place where the midpoints of the two runs, as fractions of `n`, differ;
  before a new run is pushed, the pending runs whose boundary has a greater
  power than the new boundary are merged;
- at the end the pending runs are merged from the top, taking the lower pair
  of the top three when its bottom run is shorter than the top one;
- a merge skips the values of either run that are already in place (found by
  galloping), then merges from the end of the shorter run: value by value
  while neither run wins seven times in a row (the threshold, which galloping
  lowers and leaving it raises, is kept from merge to merge), by galloping
  while it pays.
-/

namespace Branching

namespace Value

namespace Runs

/-- The value at a place of an array. -/
def get (xs : Array Value) (i : Nat) : Value := xs.getD i .nil

/-- The run that starts at `lo`, before `hi`: its length, and whether it
strictly descends (otherwise each value is not less than the one before). -/
def runAt (xs : Array Value) (lo hi : Nat) : Except Error (Nat × Bool) := do
  if hi ≤ lo + 1 then return (hi - lo, false)
  let descending ← less (get xs (lo + 1)) (get xs lo)
  let rec extend : Nat → Nat → Except Error Nat
    | 0, k => .ok k
    | fuel + 1, k =>
      if lo + k < hi then do
        let smaller ← less (get xs (lo + k)) (get xs (lo + k - 1))
        if smaller == descending then extend fuel (k + 1) else .ok k
      else .ok k
  return (← extend (hi - lo) 2, descending)

/-- The array with the `n` values from `lo` in reverse order. -/
def reverseRange (xs : Array Value) (lo n : Nat) : Array Value :=
  xs.extract 0 lo ++ (xs.extract lo (lo + n)).reverse ++ xs.extract (lo + n) xs.size

/-- The place in `[lo, hi)` of a sorted array where `pivot` goes: after every
value it is not less than. -/
def insertionPlace (xs : Array Value) (pivot : Value) : Nat → Nat → Nat → Except Error Nat
  | 0, lo, _ => .ok lo
  | fuel + 1, lo, hi =>
    if lo < hi then do
      let mid := lo + (hi - lo) / 2
      if ← less pivot (get xs mid) then insertionPlace xs pivot fuel lo mid
      else insertionPlace xs pivot fuel (mid + 1) hi
    else .ok lo

/-- Inserts the values from place `start` up to `hi`, one after another, into
the sorted values from `lo` before them. -/
def insertFrom (lo hi : Nat) : Nat → Array Value → Nat → Except Error (Array Value)
  | 0, xs, _ => .ok xs
  | fuel + 1, xs, start =>
    if start < hi then do
      let pivot := get xs start
      let place ← insertionPlace xs pivot (start - lo + 1) lo start
      let moved := xs.extract 0 place ++ #[pivot] ++ xs.extract place start ++
        xs.extract (start + 1) xs.size
      insertFrom lo hi fuel moved (start + 1)
    else .ok xs

/-- The offsets 1, 3, 7, … below `limit` taken while `further` holds at them:
the last offset where it held (0 if none), and the first where it did not, or
`limit`. -/
def gallopSpan (further : Nat → Except Error Bool) (limit : Nat) :
    Nat → Nat → Nat → Except Error (Nat × Nat)
  | 0, last, ofs => .ok (last, min ofs limit)
  | fuel + 1, last, ofs =>
    if ofs < limit then do
      if ← further ofs then gallopSpan further limit fuel ofs (2 * ofs + 1) else .ok (last, ofs)
    else .ok (last, limit)

/-- The first place in `[lo, hi)` where `before` fails, or `hi`, for a
`before` that holds up to some place and fails from there on. -/
def narrow (before : Nat → Except Error Bool) : Nat → Nat → Nat → Except Error Nat
  | 0, _, hi => .ok hi
  | fuel + 1, lo, hi =>
    if lo < hi then do
      let m := lo + (hi - lo) / 2
      if ← before m then narrow before fuel (m + 1) hi else narrow before fuel lo m
    else .ok hi

/-- How many of the `n` sorted values from `base` are less than `key`,
searched for by galloping from `hint`. -/
def gallopLeft (key : Value) (xs : Array Value) (base n hint : Nat) : Except Error Nat := do
  let item := fun i => get xs (base + i)
  let below := fun i => less (item i) key
  if ← below hint then
    let (last, ofs) ← gallopSpan (fun o => below (hint + o)) (n - hint) (n + 1) 0 1
    narrow below (n + 1) (hint + last + 1) (hint + ofs)
  else
    let (last, ofs) ← gallopSpan (fun o => (!·) <$> below (hint - o)) (hint + 1) (n + 1) 0 1
    narrow below (n + 1) (hint + 1 - ofs) (hint - last)

/-- How many of the `n` sorted values from `base` are not greater than `key`,
searched for by galloping from `hint`. -/
def gallopRight (key : Value) (xs : Array Value) (base n hint : Nat) : Except Error Nat := do
  let item := fun i => get xs (base + i)
  let notAbove := fun i => (!·) <$> less key (item i)
  if ← less key (item hint) then
    let (last, ofs) ← gallopSpan (fun o => less key (item (hint - o))) (hint + 1) (n + 1) 0 1
    narrow notAbove (n + 1) (hint + 1 - ofs) (hint - last)
  else
    let (last, ofs) ← gallopSpan (fun o => notAbove (hint + o)) (n - hint) (n + 1) 0 1
    narrow notAbove (n + 1) (hint + last + 1) (hint + ofs)

/-- Wins in a row of one run that keep a merge galloping. -/
def gallopWins : Nat := 7

/-- A merge of two sorted runs in progress: the values of the first run still
to place (`na` of them, from `ia` on) and of the second (`nb` from `ib` on),
the values placed so far, and the galloping threshold as the merge uses it and
as it is kept for the merges after this one. -/
structure Merge where
  a : Array Value
  ia : Nat
  na : Nat
  b : Array Value
  ib : Nat
  nb : Nat
  placed : Array Value
  threshold : Nat
  kept : Nat

namespace Merge

/-- Places the next `k` values of the first run, merging from the low end. -/
def takeA (m : Merge) (k : Nat) : Merge :=
  { m with placed := m.placed ++ m.a.extract m.ia (m.ia + k), ia := m.ia + k, na := m.na - k }

/-- Places the next `k` values of the second run, merging from the low end. -/
def takeB (m : Merge) (k : Nat) : Merge :=
  { m with placed := m.placed ++ m.b.extract m.ib (m.ib + k), ib := m.ib + k, nb := m.nb - k }

/-- The end of a merge from the low end: what is placed, then what is left of
either run. -/
def lowRest (m : Merge) : Array Value × Nat :=
  (m.placed ++ m.a.extract m.ia (m.ia + m.na) ++ m.b.extract m.ib (m.ib + m.nb), m.kept)

/-- The end of a merge from the low end when one value of the first run is
left: it goes after the rest of the second run. -/
def lowLast (m : Merge) : Array Value × Nat :=
  (m.placed ++ m.b.extract m.ib (m.ib + m.nb) ++ #[get m.a m.ia], m.kept)

/-- Places the last `k` values of the first run, merging from the high end;
what is placed is kept last first. -/
def dropA (m : Merge) (k : Nat) : Merge :=
  { m with placed := m.placed ++ (m.a.extract (m.na - k) m.na).reverse, na := m.na - k }

/-- Places the last `k` values of the second run, merging from the high end. -/
def dropB (m : Merge) (k : Nat) : Merge :=
  { m with placed := m.placed ++ (m.b.extract (m.nb - k) m.nb).reverse, nb := m.nb - k }

/-- The end of a merge from the high end: what is left of either run, then
what is placed. -/
def highRest (m : Merge) : Array Value × Nat :=
  (m.a.extract 0 m.na ++ m.b.extract 0 m.nb ++ m.placed.reverse, m.kept)

/-- The end of a merge from the high end when one value of the second run is
left: it goes before the rest of the first run. -/
def highFirst (m : Merge) : Array Value × Nat :=
  (#[get m.b 0] ++ m.a.extract 0 m.na ++ m.placed.reverse, m.kept)

/-- The threshold lowered by one, but not below one, on each round of
galloping. -/
def lowered (m : Merge) : Merge :=
  let t := if m.threshold > 1 then m.threshold - 1 else m.threshold
  { m with threshold := t, kept := t }

/-- The threshold raised by one on leaving galloping. -/
def raised (m : Merge) : Merge :=
  { m with threshold := m.threshold + 1, kept := m.threshold + 1 }

mutual

/-- Merging from the low end value by value, with the wins in a row of either
run so far. -/
def lowPlain : Nat → Merge → Nat → Nat → Except Error (Array Value × Nat)
  | 0, m, _, _ => .ok m.lowRest
  | fuel + 1, m, winsA, winsB => do
    if ← less (get m.b m.ib) (get m.a m.ia) then
      let m := m.takeB 1
      if m.nb = 0 then return m.lowRest
      if winsB + 1 ≥ m.threshold then lowGalloping fuel { m with threshold := m.threshold + 1 }
      else lowPlain fuel m 0 (winsB + 1)
    else
      let m := m.takeA 1
      if m.na = 1 then return m.lowLast
      if winsA + 1 ≥ m.threshold then lowGalloping fuel { m with threshold := m.threshold + 1 }
      else lowPlain fuel m (winsA + 1) 0

/-- Merging from the low end by galloping. -/
def lowGalloping : Nat → Merge → Except Error (Array Value × Nat)
  | 0, m => .ok m.lowRest
  | fuel + 1, m => do
    let m := m.lowered
    let winsA ← gallopRight (get m.b m.ib) m.a m.ia m.na 0
    let m := m.takeA winsA
    if winsA > 0 && m.na = 1 then return m.lowLast
    if winsA > 0 && m.na = 0 then return m.lowRest
    let m := m.takeB 1
    if m.nb = 0 then return m.lowRest
    let winsB ← gallopLeft (get m.a m.ia) m.b m.ib m.nb 0
    let m := m.takeB winsB
    if winsB > 0 && m.nb = 0 then return m.lowRest
    let m := m.takeA 1
    if m.na = 1 then return m.lowLast
    if winsA ≥ gallopWins || winsB ≥ gallopWins then lowGalloping fuel m
    else lowPlain fuel m.raised 0 0

end

mutual

/-- Merging from the high end value by value, with the wins in a row of
either run so far. -/
def highPlain : Nat → Merge → Nat → Nat → Except Error (Array Value × Nat)
  | 0, m, _, _ => .ok m.highRest
  | fuel + 1, m, winsA, winsB => do
    if ← less (get m.b (m.nb - 1)) (get m.a (m.na - 1)) then
      let m := m.dropA 1
      if m.na = 0 then return m.highRest
      if winsA + 1 ≥ m.threshold then highGalloping fuel { m with threshold := m.threshold + 1 }
      else highPlain fuel m (winsA + 1) 0
    else
      let m := m.dropB 1
      if m.nb = 1 then return m.highFirst
      if winsB + 1 ≥ m.threshold then highGalloping fuel { m with threshold := m.threshold + 1 }
      else highPlain fuel m 0 (winsB + 1)

/-- Merging from the high end by galloping. -/
def highGalloping : Nat → Merge → Except Error (Array Value × Nat)
  | 0, m => .ok m.highRest
  | fuel + 1, m => do
    let m := m.lowered
    let winsA := m.na - (← gallopRight (get m.b (m.nb - 1)) m.a 0 m.na (m.na - 1))
    let m := m.dropA winsA
    if winsA > 0 && m.na = 0 then return m.highRest
    let m := m.dropB 1
    if m.nb = 1 then return m.highFirst
    let winsB := m.nb - (← gallopLeft (get m.a (m.na - 1)) m.b 0 m.nb (m.nb - 1))
    let m := m.dropB winsB
    if winsB > 0 && m.nb = 1 then return m.highFirst
    if winsB > 0 && m.nb = 0 then return m.highRest
    let m := m.dropA 1
    if m.na = 0 then return m.highRest
    if winsA ≥ gallopWins || winsB ≥ gallopWins then highGalloping fuel m
    else highPlain fuel m.raised 0 0

end

end Merge

/-- Merges two sorted runs, the first no longer than the second, from the low
end; the first value of the second run is known to go first. With the merged
values, the threshold kept. -/
def mergeLow (a b : Array Value) (threshold : Nat) : Except Error (Array Value × Nat) :=
  let m : Merge := { a := a, ia := 0, na := a.size, b := b, ib := 1, nb := b.size - 1,
                     placed := #[get b 0], threshold := threshold, kept := threshold }
  if m.nb = 0 then .ok m.lowRest
  else if m.na = 1 then .ok m.lowLast
  else Merge.lowPlain (2 * (a.size + b.size) + 2) m 0 0

/-- Merges two sorted runs, the second shorter than the first, from the high
end; the last value of the first run is known to go last. With the merged
values, the threshold kept. -/
def mergeHigh (a b : Array Value) (threshold : Nat) : Except Error (Array Value × Nat) :=
  let m : Merge := { a := a, ia := 0, na := a.size - 1, b := b, ib := 0, nb := b.size,
                     placed := #[get a (a.size - 1)], threshold := threshold, kept := threshold }
  if m.na = 0 then .ok m.highRest
  else if m.nb = 1 then .ok m.highFirst
  else Merge.highPlain (2 * (a.size + b.size) + 2) m 0 0

/-- A pending run: where it starts, its length, and the power of its boundary
with the run after it. -/
structure Run where
  base : Nat
  size : Nat
  power : Nat
  deriving Inhabited

/-- Merges two neighbouring runs of an array in place, leaving out the values
of the first run that go before all of the second and those of the second
that go after all of the first. -/
def mergeRuns (xs : Array Value) (r s : Run) (threshold : Nat) :
    Except Error (Array Value × Nat) := do
  let skip ← gallopRight (get xs s.base) xs r.base r.size 0
  if r.size ≤ skip then return (xs, threshold)
  let nb ← gallopLeft (get xs (r.base + r.size - 1)) xs s.base s.size (s.size - 1)
  if nb = 0 then return (xs, threshold)
  let a := xs.extract (r.base + skip) (r.base + r.size)
  let b := xs.extract s.base (s.base + nb)
  let (merged, kept) ← if a.size ≤ nb then mergeLow a b threshold else mergeHigh a b threshold
  return (xs.extract 0 (r.base + skip) ++ merged ++ xs.extract (s.base + nb) xs.size, kept)

/-- Merges the pending runs at places `i` and `i + 1`. -/
def mergeAt (xs : Array Value) (stack : List Run) (i threshold : Nat) :
    Except Error (Array Value × List Run × Nat) := do
  let r := stack.getD i default
  let s := stack.getD (i + 1) default
  let (xs, kept) ← mergeRuns xs r s threshold
  return (xs, (stack.set i { r with size := r.size + s.size }).eraseIdx (i + 1), kept)

/-- The power of the boundary between a run of `n1` values from `s1` and the
run of `n2` values after it, among `n` values: the first binary place where
the midpoints of the two runs, as fractions of `n`, differ. -/
def boundaryPower (s1 n1 n2 n : Nat) : Nat :=
  go (n + 2) (2 * s1 + n1) (2 * s1 + 2 * n1 + n2) 1
where
  /-- Compares the binary places of the doubled midpoints `a` and `b`. -/
  go : Nat → Nat → Nat → Nat → Nat
    | 0, _, _, p => p
    | fuel + 1, a, b, p =>
      if n ≤ a then go fuel (2 * (a - n)) (2 * (b - n)) (p + 1)
      else if n ≤ b then p
      else go fuel (2 * a) (2 * b) (p + 1)

/-- The minimum run length for `n` values. -/
def minRun (n : Nat) : Nat :=
  go n n 0
where
  /-- Halves `n` until it is below 64, noting whether a one bit was dropped. -/
  go : Nat → Nat → Nat → Nat
    | 0, n, r => n + r
    | fuel + 1, n, r => if 64 ≤ n then go fuel (n / 2) (if n % 2 = 1 then 1 else r) else n + r

/-- Merges the top two pending runs while the boundary below the top one has
a greater power than `power`. -/
def mergeAbove (power : Nat) : Nat → Array Value → List Run → Nat →
    Except Error (Array Value × List Run × Nat)
  | 0, xs, stack, t => .ok (xs, stack, t)
  | fuel + 1, xs, stack, t =>
    if 1 < stack.length && power < (stack.getD (stack.length - 2) default).power then do
      let (xs, stack, t) ← mergeAt xs stack (stack.length - 2) t
      mergeAbove power fuel xs stack t
    else .ok (xs, stack, t)

/-- Merges all pending runs into one, from the top. -/
def mergeAll : Nat → Array Value → List Run → Nat → Except Error (Array Value)
  | 0, xs, _, _ => .ok xs
  | fuel + 1, xs, stack, t =>
    if 1 < stack.length then do
      let i := stack.length - 2
      let i := if 0 < i && (stack.getD (i - 1) default).size < (stack.getD (i + 1) default).size
        then i - 1 else i
      let (xs, stack, t) ← mergeAt xs stack i t
      mergeAll fuel xs stack t
    else .ok xs

/-- Finds the runs from `lo` on, lengthening short ones to `least`, and
merges as each is pushed; at the end merges all that are pending. -/
def sortFrom (n least : Nat) : Nat → Array Value → Nat → List Run → Nat → Except Error (Array Value)
  | 0, xs, _, stack, t => mergeAll (stack.length + 1) xs stack t
  | fuel + 1, xs, lo, stack, t =>
    if lo < n then do
      let (len, descending) ← runAt xs lo n
      let xs := if descending then reverseRange xs lo len else xs
      let force := min (n - lo) least
      let xs ← if len < least then insertFrom lo (lo + force) force xs (lo + len) else pure xs
      let len := if len < least then force else len
      let (xs, stack, t) ← match stack.getLast? with
        | none => pure (xs, stack, t)
        | some top => do
          let power := boundaryPower top.base top.size len n
          let (xs, stack, t) ← mergeAbove power (stack.length + 1) xs stack t
          let top := stack.getLastD default
          pure (xs, stack.dropLast ++ [{ top with power := power }], t)
      sortFrom n least fuel xs (lo + len) (stack ++ [{ base := lo, size := len, power := 0 }]) t
    else mergeAll (stack.length + 1) xs stack t

end Runs

/-- Sorts values by the data order, stably, the way the engine sorts a list. -/
def sortValues (vs : List Value) : Except Error (List Value) := do
  let xs := vs.toArray
  if xs.size < 2 then return vs
  return (← Runs.sortFrom xs.size (Runs.minRun xs.size) (xs.size + 1) xs 0 [] Runs.gallopWins).toList

end Value

end Branching
