import Branching.Comparison
import Mathlib.Data.List.Find

/-!
# When data equality ends

`Value.equalsUpTo` compares two values while its fuel lasts, one level of items per unit of fuel.
A value that no request can make recur inside itself has no `cycle` anywhere (`Value.cycleFree`).
Once the fuel is more than the weight of such a value, comparing it with any other value ends, and
more fuel gives the same answer: each level down goes to an item of the cycle-free side, which
weighs less.

So the comparator's `==` and the membership test end whenever one of the two values is cycle-free,
with the fuel `compareFuel` gives them, and the membership test then asks of each element exactly
`Value.agrees`.

## Main statements

- `Value.equalsUpTo_settled`: with fuel past the weight of a cycle-free side, data equality ends
  and does not change with more fuel.
- `Value.sameAs_isSome`: comparator equality ends when one side is cycle-free.
- `Value.agreesUpTo_eq_agrees`, `Value.holdsUpTo_items`, `Value.holdsUpTo_set`,
  `Value.holdsUpTo_keys`: the membership test asks `agrees` of each element.
-/

namespace Branching

namespace Value

mutual

/-- Whether no collection recurs inside a value: no `cycle` stands anywhere in it. -/
def cycleFree : Value → Bool
  | cycle _ _ => false
  | list xs | tuple xs | set xs => cycleFreeAll xs
  | dict es | ordered es => cycleFreeEntries es
  | _ => true

/-- Whether no item recurs inside itself. -/
def cycleFreeAll : List Value → Bool
  | [] => true
  | x :: xs => cycleFree x && cycleFreeAll xs

/-- Whether no key or value recurs inside itself. -/
def cycleFreeEntries : List (Value × Value) → Bool
  | [] => true
  | (k, v) :: es => cycleFree k && cycleFree v && cycleFreeEntries es

end

theorem cycleFreeAll_iff {xs : List Value} : cycleFreeAll xs = true ↔ ∀ x ∈ xs, x.cycleFree = true := by
  induction xs with
  | nil => simp [cycleFreeAll]
  | cons x xs ih => simp [cycleFreeAll, ih]

theorem cycleFreeEntries_iff {es : List (Value × Value)} :
    cycleFreeEntries es = true ↔ ∀ e ∈ es, e.1.cycleFree = true ∧ e.2.cycleFree = true := by
  induction es with
  | nil => simp [cycleFreeEntries]
  | cons e es ih =>
    obtain ⟨k, v⟩ := e
    simp [cycleFreeEntries, ih, and_assoc]

mutual

/-- Closing a cycle-free value over a collection changes nothing: nothing in it points back. -/
theorem close_of_cycleFree (outer : Value) (d : Nat) : ∀ v : Value, v.cycleFree = true → close outer d v = v
  | cycle _ _, h => by simp [cycleFree] at h
  | list xs, h => by rw [close, closeAll_of_cycleFree outer (d + 1) xs h]
  | tuple xs, h => by rw [close, closeAll_of_cycleFree outer (d + 1) xs h]
  | set xs, h => by rw [close, closeAll_of_cycleFree outer (d + 1) xs h]
  | dict es, h => by rw [close, closeEntries_of_cycleFree outer (d + 1) es h]
  | ordered es, h => by rw [close, closeEntries_of_cycleFree outer (d + 1) es h]
  | nil, _ | bool _, _ | int _, _ | float _, _ | str _, _ | range _ _, _ | method _, _ | date _, _
  | dateTime _, _ | bytes _, _ => by simp [close]

theorem closeAll_of_cycleFree (outer : Value) (d : Nat) :
    ∀ xs : List Value, cycleFreeAll xs = true → closeAll outer d xs = xs
  | [], _ => rfl
  | x :: xs, h => by
    simp only [cycleFreeAll, Bool.and_eq_true] at h
    rw [closeAll, close_of_cycleFree outer d x h.1, closeAll_of_cycleFree outer d xs h.2]

theorem closeEntries_of_cycleFree (outer : Value) (d : Nat) :
    ∀ es : List (Value × Value), cycleFreeEntries es = true → closeEntries outer d es = es
  | [], _ => rfl
  | (k, v) :: es, h => by
    simp only [cycleFreeEntries, Bool.and_eq_true] at h
    rw [closeEntries, close_of_cycleFree outer d k h.1.1, close_of_cycleFree outer d v h.1.2,
      closeEntries_of_cycleFree outer d es h.2]

end

mutual

/-- Nothing in a cycle-free value points back to a collection above it. -/
theorem backTo?_of_cycleFree (d : Nat) : ∀ v : Value, v.cycleFree = true → backTo? d v = none
  | cycle _ _, h => by simp [cycleFree] at h
  | list xs, h | tuple xs, h | set xs, h => by rw [backTo?, backToAny?_of_cycleFree (d + 1) xs h]
  | dict es, h | ordered es, h => by rw [backTo?, backToEntries?_of_cycleFree (d + 1) es h]
  | nil, _ | bool _, _ | int _, _ | float _, _ | str _, _ | range _ _, _ | method _, _ | date _, _
  | dateTime _, _ | bytes _, _ => by simp [backTo?]

theorem backToAny?_of_cycleFree (d : Nat) :
    ∀ xs : List Value, cycleFreeAll xs = true → backToAny? d xs = none
  | [], _ => rfl
  | x :: xs, h => by
    simp only [cycleFreeAll, Bool.and_eq_true] at h
    rw [backToAny?, backTo?_of_cycleFree d x h.1, backToAny?_of_cycleFree d xs h.2, Option.or_none]

theorem backToEntries?_of_cycleFree (d : Nat) :
    ∀ es : List (Value × Value), cycleFreeEntries es = true → backToEntries? d es = none
  | [], _ => rfl
  | (k, v) :: es, h => by
    simp only [cycleFreeEntries, Bool.and_eq_true] at h
    rw [backToEntries?, backTo?_of_cycleFree d k h.1.1, backTo?_of_cycleFree d v h.1.2,
      backToEntries?_of_cycleFree d es h.2, Option.or_none, Option.or_none]

end

/-- A cycle-free value is no collection that holds itself. -/
theorem selfNumber?_of_cycleFree {v : Value} (h : v.cycleFree = true) : v.selfNumber? = none := by
  cases v with
  | list xs | tuple xs | set xs => exact backToAny?_of_cycleFree 0 xs h
  | dict es | ordered es => exact backToEntries?_of_cycleFree 0 es h
  | _ => rfl

/-- Beside a cycle-free value, the only datum found identical without being compared is a NaN. -/
theorem identical_of_cycleFree {a b : Value} (h : a.cycleFree = true ∨ b.cycleFree = true) :
    identical a b = sameNaN a b := by
  rcases h with h | h <;> simp [identical, selfNumber?_of_cycleFree h]

theorem weight_le_weightAll {xs : List Value} {x : Value} (h : x ∈ xs) : x.weight ≤ weightAll xs := by
  induction xs with
  | nil => cases h
  | cons y ys ih =>
    rw [weightAll]
    rcases List.mem_cons.1 h with rfl | h
    · omega
    · have := ih h
      omega

theorem weight_le_weightEntries {es : List (Value × Value)} {e : Value × Value} (h : e ∈ es) :
    e.1.weight + e.2.weight ≤ weightEntries es := by
  induction es with
  | nil => cases h
  | cons f fs ih =>
    obtain ⟨k, v⟩ := f
    rw [weightEntries]
    rcases List.mem_cons.1 h with rfl | h
    · dsimp only
      omega
    · have := ih h
      omega

/-! ### What data equality looks at one level down -/

/-- What data equality compares one level down in a value: the items of a collection and the keys
and values of a mapping, both as stored and as values of their own. -/
def parts (v : Value) : List Value :=
  match v with
  | list xs | tuple xs | set xs => xs ++ closeAll v 0 xs
  | dict es | ordered es => (es ++ closeEntries v 0 es).flatMap fun e => [e.1, e.2]
  | _ => []

/-- The parts of a cycle-free value are cycle-free and weigh less. -/
theorem part_of_cycleFree {v x : Value} (hv : v.cycleFree = true) (hx : x ∈ v.parts) :
    x.cycleFree = true ∧ x.weight < v.weight := by
  -- items of a sequence or set, and keys or values of a mapping
  have hitems : ∀ xs : List Value, cycleFreeAll xs = true → x ∈ xs →
      x.cycleFree = true ∧ x.weight < 1 + weightAll xs := fun xs hxs hmem =>
    ⟨cycleFreeAll_iff.1 hxs x hmem, by have := weight_le_weightAll hmem; omega⟩
  have hentries : ∀ es : List (Value × Value), cycleFreeEntries es = true →
      (∃ e ∈ es, x = e.1 ∨ x = e.2) → x.cycleFree = true ∧ x.weight < 1 + weightEntries es := by
    rintro es hes ⟨e, hmem, hx⟩
    have hfree := cycleFreeEntries_iff.1 hes e hmem
    have := weight_le_weightEntries hmem
    rcases hx with rfl | rfl
    · exact ⟨hfree.1, by omega⟩
    · exact ⟨hfree.2, by omega⟩
  cases v with
  | list xs | tuple xs | set xs =>
    simp only [parts, closeAll_of_cycleFree _ 0 xs hv, List.mem_append, or_self] at hx
    exact hitems xs hv hx
  | dict es | ordered es =>
    simp only [parts, closeEntries_of_cycleFree _ 0 es hv, List.mem_flatMap, List.mem_append,
      or_self, List.mem_cons, List.not_mem_nil, or_false] at hx
    exact hentries es hv hx
  | _ => simp [parts] at hx

/-! ### Comparing items with two functions -/

section Items

variable {f g : Value → Value → Option Bool}

theorem itemsAgreeWith_congr {xs ys : List Value} (h : ∀ x ∈ xs, ∀ y ∈ ys, f x y = g x y) :
    itemsAgreeWith f xs ys = itemsAgreeWith g xs ys := by
  induction xs generalizing ys with
  | nil => cases ys <;> rfl
  | cons x xs ih =>
    cases ys with
    | nil => rfl
    | cons y ys =>
      have hrest : itemsAgreeWith f xs ys = itemsAgreeWith g xs ys :=
        ih fun x' hx' y' hy' => h x' (by simp [hx']) y' (by simp [hy'])
      simp only [itemsAgreeWith, h x (by simp) y (by simp), hrest]

theorem itemsAgreeWith_isSome {xs ys : List Value} (h : ∀ x ∈ xs, ∀ y ∈ ys, (f x y).isSome) :
    (itemsAgreeWith f xs ys).isSome := by
  induction xs generalizing ys with
  | nil => cases ys <;> rfl
  | cons x xs ih =>
    cases ys with
    | nil => rfl
    | cons y ys =>
      have hrest : (itemsAgreeWith f xs ys).isSome :=
        ih fun x' hx' y' hy' => h x' (by simp [hx']) y' (by simp [hy'])
      have hxy := h x (by simp) y (by simp)
      rw [itemsAgreeWith]
      cases hf : f x y with
      | none => simp [hf] at hxy
      | some r =>
        cases r with
        | false => rfl
        | true => simpa using hrest

theorem entriesAgreeWith_congr {es fs : List (Value × Value)}
    (h : ∀ e ∈ es, ∀ e' ∈ fs, f e.1 e'.1 = g e.1 e'.1 ∧ f e.2 e'.2 = g e.2 e'.2) :
    entriesAgreeWith f es fs = entriesAgreeWith g es fs := by
  induction es with
  | nil => rfl
  | cons e es ih =>
    obtain ⟨k, v⟩ := e
    have hrest := ih fun e he e' he' => h e (by simp [he]) e' he'
    -- the entry of `fs` whose key matches `k` is found alike, and its value compared alike
    have hfind : fs.find? (fun e' => f k e'.1 == some true) = fs.find? (fun e' => g k e'.1 == some true) :=
      List.find?_congr fun e' he' => by rw [(h (k, v) (by simp) e' he').1]
    rw [entriesAgreeWith, entriesAgreeWith, hfind]
    cases hw : fs.find? (fun e' => g k e'.1 == some true) with
    | none => rfl
    | some e' =>
      obtain ⟨l, w⟩ := e'
      simp only [(h (k, v) (by simp) (l, w) (List.mem_of_find?_eq_some hw)).2, hrest]

theorem entriesAgreeWith_isSome {es fs : List (Value × Value)}
    (h : ∀ e ∈ es, ∀ e' ∈ fs, (f e.2 e'.2).isSome) : (entriesAgreeWith f es fs).isSome := by
  induction es with
  | nil => rfl
  | cons e es ih =>
    obtain ⟨k, v⟩ := e
    have hrest := ih fun e he e' he' => h e (by simp [he]) e' he'
    rw [entriesAgreeWith]
    cases hw : fs.find? (fun e' => f k e'.1 == some true) with
    | none => rfl
    | some e' =>
      obtain ⟨l, w⟩ := e'
      have hvw := h (k, v) (by simp) (l, w) (List.mem_of_find?_eq_some hw)
      dsimp only
      cases hf : f v w with
      | none => simp [hf] at hvw
      | some r =>
        cases r with
        | false => rfl
        | true => simpa using hrest

theorem keysInOrderWith_congr {es fs : List (Value × Value)}
    (h : ∀ e ∈ es, ∀ e' ∈ fs, f e.1 e'.1 = g e.1 e'.1) :
    keysInOrderWith f es fs = keysInOrderWith g es fs := by
  induction es generalizing fs with
  | nil => cases fs <;> rfl
  | cons e es ih =>
    cases fs with
    | nil => obtain ⟨k, v⟩ := e; rfl
    | cons e' fs =>
      obtain ⟨k, v⟩ := e
      obtain ⟨l, w⟩ := e'
      have hrest : keysInOrderWith f es fs = keysInOrderWith g es fs :=
        ih fun x hx y hy => h x (by simp [hx]) y (by simp [hy])
      simp only [keysInOrderWith, h (k, v) (by simp) (l, w) (by simp), hrest]

theorem keysInOrderWith_isSome {es fs : List (Value × Value)}
    (h : ∀ e ∈ es, ∀ e' ∈ fs, (f e.1 e'.1).isSome) : (keysInOrderWith f es fs).isSome := by
  induction es generalizing fs with
  | nil => cases fs <;> rfl
  | cons e es ih =>
    cases fs with
    | nil => obtain ⟨k, v⟩ := e; rfl
    | cons e' fs =>
      obtain ⟨k, v⟩ := e
      obtain ⟨l, w⟩ := e'
      have hrest : (keysInOrderWith f es fs).isSome :=
        ih fun x hx y hy => h x (by simp [hx]) y (by simp [hy])
      have hkl := h (k, v) (by simp) (l, w) (by simp)
      rw [keysInOrderWith]
      cases hf : f k l with
      | none => simp [hf] at hkl
      | some r =>
        cases r with
        | false => rfl
        | true => simpa using hrest

theorem itemsWithinWith_congr {xs ys : List Value} (h : ∀ x ∈ xs, ∀ y ∈ ys, f x y = g x y) :
    itemsWithinWith f xs ys = itemsWithinWith g xs ys := by
  induction xs with
  | nil => rfl
  | cons x xs ih =>
    have hrest := ih fun x' hx' y hy => h x' (by simp [hx']) y hy
    -- the search of `ys` for an item matching `x` meets only items of `ys`
    have hany : (ys.any fun y => f x y == some true) = ys.any fun y => g x y == some true := by
      rw [Bool.eq_iff_iff, List.any_eq_true, List.any_eq_true]
      exact exists_congr fun y => and_congr_right fun hy => by rw [h x (by simp) y hy]
    simp only [itemsWithinWith, hrest, hany]

end Items

/-! ### One level of data equality -/

/-- The keys and values of a mapping are among what data equality compares of it. -/
theorem entry_mem_parts {v : Value} {es : List (Value × Value)} {e : Value × Value}
    (hv : v.parts = (es ++ closeEntries v 0 es).flatMap fun e => [e.1, e.2])
    (he : e ∈ es ∨ e ∈ closeEntries v 0 es) : e.1 ∈ v.parts ∧ e.2 ∈ v.parts := by
  rw [hv, List.mem_flatMap, List.mem_flatMap]
  have he' : e ∈ es ++ closeEntries v 0 es := List.mem_append.2 he
  exact ⟨⟨e, he', by simp⟩, ⟨e, he', by simp⟩⟩

section Level

variable {f g : Value → Value → Option Bool} {a b : Value}

/-- Data equality one level down asks `agree` only about parts of the two values. -/
theorem equalsWith_congr (h : ∀ x ∈ a.parts, ∀ y ∈ b.parts, f x y = g x y) :
    equalsWith f a b = equalsWith g a b := by
  -- items and entries, as stored or closed, are parts
  have hitems : ∀ {xs ys : List Value}, (∀ x ∈ xs, x ∈ a.parts) → (∀ y ∈ ys, y ∈ b.parts) →
      ∀ x ∈ xs, ∀ y ∈ ys, f x y = g x y := fun hxs hys x hx y hy => h x (hxs x hx) y (hys y hy)
  have hentries : ∀ {xs ys : List (Value × Value)}, (∀ e ∈ xs, e.1 ∈ a.parts ∧ e.2 ∈ a.parts) →
      (∀ e ∈ ys, e.1 ∈ b.parts ∧ e.2 ∈ b.parts) →
      ∀ e ∈ xs, ∀ e' ∈ ys, f e.1 e'.1 = g e.1 e'.1 ∧ f e.2 e'.2 = g e.2 e'.2 :=
    fun hxs hys e he e' he' => ⟨h _ (hxs e he).1 _ (hys e' he').1, h _ (hxs e he).2 _ (hys e' he').2⟩
  unfold equalsWith
  split <;> dsimp only
  case h_3 | h_4 =>
    rw [itemsAgreeWith_congr (hitems (fun x hx => by simp [parts, hx]) fun y hy => by simp [parts, hy])]
  case h_6 =>
    rw [itemsWithinWith_congr (hitems (fun x hx => by simp [parts, hx]) fun y hy => by simp [parts, hy])]
  case h_7 | h_8 | h_9 =>
    rw [entriesAgreeWith_congr (hentries (fun e he => entry_mem_parts rfl (.inr he))
      fun e he => entry_mem_parts rfl (.inr he))]
  case h_10 =>
    rw [entriesAgreeWith_congr (hentries (fun e he => entry_mem_parts rfl (.inr he))
      fun e he => entry_mem_parts rfl (.inr he))]
    -- the order of the keys is compared only when the entries agree
    split
    · exact keysInOrderWith_congr fun e he e' he' =>
        (hentries (fun e he => entry_mem_parts rfl (.inl he)) (fun e he => entry_mem_parts rfl (.inl he))
          e he e' he').1
    · rfl

/-- Data equality one level down ends when `agree` ends on the parts of the two values. -/
theorem equalsWith_isSome (h : ∀ x ∈ a.parts, ∀ y ∈ b.parts, (f x y).isSome) :
    (equalsWith f a b).isSome := by
  have hitems : ∀ {xs ys : List Value}, (∀ x ∈ xs, x ∈ a.parts) → (∀ y ∈ ys, y ∈ b.parts) →
      ∀ x ∈ xs, ∀ y ∈ ys, (f x y).isSome := fun hxs hys x hx y hy => h x (hxs x hx) y (hys y hy)
  -- the values of two mappings, closed over them, are parts
  have hvalues : ∀ {xs ys : List (Value × Value)}, (∀ e ∈ xs, e.2 ∈ a.parts) →
      (∀ e ∈ ys, e.2 ∈ b.parts) → ∀ e ∈ xs, ∀ e' ∈ ys, (f e.2 e'.2).isSome :=
    fun hxs hys e he e' he' => h _ (hxs e he) _ (hys e' he')
  have hmappings : ∀ {xs ys : List (Value × Value)},
      a.parts = (xs ++ closeEntries a 0 xs).flatMap (fun e => [e.1, e.2]) →
      b.parts = (ys ++ closeEntries b 0 ys).flatMap (fun e => [e.1, e.2]) →
      (entriesAgreeWith f (closeEntries a 0 xs) (closeEntries b 0 ys)).isSome := fun ha hb =>
    entriesAgreeWith_isSome (hvalues (fun e he => (entry_mem_parts ha (.inr he)).2)
      fun e he => (entry_mem_parts hb (.inr he)).2)
  unfold equalsWith
  split <;> dsimp only
  case h_3 | h_4 =>
    split
    · rfl
    · exact itemsAgreeWith_isSome (hitems (fun x hx => by simp [parts, hx]) fun y hy => by simp [parts, hy])
  case h_7 | h_8 | h_9 =>
    split
    · rfl
    · exact hmappings rfl rfl
  case h_10 xs ys =>
    have hm : (if (xs.length != ys.length) = true then some false
        else entriesAgreeWith f ((ordered xs).closeEntries 0 xs) ((ordered ys).closeEntries 0 ys)).isSome := by
      split
      · rfl
      · exact hmappings rfl rfl
    -- the order of the keys is compared only when the entries agree
    split
    · exact keysInOrderWith_isSome fun e he e' he' =>
        h _ (entry_mem_parts rfl (.inl he)).1 _ (entry_mem_parts rfl (.inl he')).1
    · exact hm
  all_goals rfl

end Level

/-! ### Fuel enough -/

/-- `n` is fuel enough to compare `a` with `b`: one of them is cycle-free and weighs less than
`n`. -/
def FuelEnough (n : Nat) (a b : Value) : Prop :=
  (a.cycleFree = true ∧ a.weight < n) ∨ (b.cycleFree = true ∧ b.weight < n)

/-- The fuel of a comparison is more than the weight of either side. -/
theorem lt_compareFuel_left (a b : Value) : a.weight < compareFuel a b := by
  have := Nat.le_mul_of_pos_right (a.weight + 1) (show 0 < b.weight + 1 by omega)
  unfold compareFuel
  omega

theorem lt_compareFuel_right (a b : Value) : b.weight < compareFuel a b := by
  have := Nat.le_mul_of_pos_left (b.weight + 1) (show 0 < a.weight + 1 by omega)
  unfold compareFuel
  omega

namespace FuelEnough

variable {n : Nat} {a b x y : Value}

/-- Fuel enough for two values is fuel enough, one unit less, for their parts. -/
theorem parts (h : FuelEnough (n + 1) a b) (hx : x ∈ a.parts) (hy : y ∈ b.parts) : FuelEnough n x y := by
  rcases h with ⟨ha, hn⟩ | ⟨hb, hn⟩
  · have := part_of_cycleFree ha hx
    exact .inl ⟨this.1, by omega⟩
  · have := part_of_cycleFree hb hy
    exact .inr ⟨this.1, by omega⟩

/-- The fuel of a comparison is enough when one side is cycle-free. -/
theorem of_cycleFree (h : a.cycleFree = true ∨ b.cycleFree = true) : FuelEnough (compareFuel a b) a b :=
  h.elim (fun ha => .inl ⟨ha, lt_compareFuel_left a b⟩) fun hb => .inr ⟨hb, lt_compareFuel_right a b⟩

/-- More fuel than enough is enough. -/
theorem mono {m : Nat} (h : FuelEnough n a b) (hnm : n ≤ m) : FuelEnough m a b := by
  rcases h with ⟨ha, hn⟩ | ⟨hb, hn⟩
  · exact .inl ⟨ha, by omega⟩
  · exact .inr ⟨hb, by omega⟩

end FuelEnough

theorem equalsUpTo_succ (n : Nat) (a b : Value) : equalsUpTo (n + 1) a b = equalsWith (agreesUpTo n) a b :=
  rfl

/-- With fuel enough, data equality ends, and more fuel gives the same answer. -/
theorem equalsUpTo_settled {n : Nat} {a b : Value} (h : FuelEnough n a b) :
    (equalsUpTo n a b).isSome ∧ ∀ m, n ≤ m → equalsUpTo m a b = equalsUpTo n a b := by
  induction n generalizing a b with
  | zero => rcases h with ⟨-, h⟩ | ⟨-, h⟩ <;> omega
  | succ n ih =>
    -- one level down the items compared are parts, and the fuel left is enough for them
    have hparts : ∀ x ∈ a.parts, ∀ y ∈ b.parts,
        (agreesUpTo n x y).isSome ∧ ∀ m, n ≤ m → agreesUpTo m x y = agreesUpTo n x y := by
      intro x hx y hy
      by_cases hid : identical x y
      · simp [agreesUpTo, hid]
      · simpa [agreesUpTo, hid] using ih (h.parts hx hy)
    refine ⟨equalsWith_isSome fun x hx y hy => (hparts x hx y hy).1, fun m hm => ?_⟩
    obtain ⟨k, rfl⟩ : ∃ k, m = k + 1 := ⟨m - 1, by omega⟩
    rw [equalsUpTo_succ, equalsUpTo_succ]
    exact equalsWith_congr fun x hx y hy => (hparts x hx y hy).2 k (by omega)

/-- With fuel enough, agreement of two items is `agrees`, whose own fuel is enough too. -/
theorem agreesUpTo_eq_agrees {n : Nat} {a b : Value} (h : FuelEnough n a b) :
    agreesUpTo n a b = some (agrees a b) := by
  by_cases hid : identical a b
  · simp [agreesUpTo, agrees, hid]
  · have hc : FuelEnough (compareFuel a b) a b :=
      FuelEnough.of_cycleFree (h.elim (fun h => .inl h.1) fun h => .inr h.1)
    obtain ⟨hsome, hn⟩ := equalsUpTo_settled h
    -- both fuels give the answer of the larger
    have heq : equalsUpTo (compareFuel a b) a b = equalsUpTo n a b := by
      rw [← (equalsUpTo_settled hc).2 _ (Nat.le_max_right n _), hn _ (Nat.le_max_left _ _)]
    obtain ⟨r, hr⟩ := Option.isSome_iff_exists.1 hsome
    simp [agreesUpTo, agrees, equals, hid, heq, hr]

/-- Comparator equality ends when one of the values is cycle-free. -/
theorem sameAs_isSome {a b : Value} (h : a.cycleFree = true ∨ b.cycleFree = true) : (a.sameAs b).isSome := by
  unfold sameAs
  split
  case h_7 => exact (equalsUpTo_settled (FuelEnough.of_cycleFree h)).1
  all_goals rfl

/-- With one side cycle-free, data equality under the fuel of the comparison is `equals`. -/
theorem equalsUpTo_compareFuel {a b : Value} (h : a.cycleFree = true ∨ b.cycleFree = true) :
    equalsUpTo (compareFuel a b) a b = some (equals a b) := by
  obtain ⟨r, hr⟩ := Option.isSome_iff_exists.1 (equalsUpTo_settled (FuelEnough.of_cycleFree h)).1
  simp [equals, hr]

/-- The fuel of a membership test is enough for each part of the collection. -/
theorem FuelEnough.of_part {c v x : Value} (h : c.cycleFree = true ∨ v.cycleFree = true) (hx : x ∈ c.parts) :
    FuelEnough (compareFuel c v) x v := by
  rcases h with hc | hv
  · have hpart := part_of_cycleFree hc hx
    have := lt_compareFuel_left c v
    exact .inl ⟨hpart.1, by omega⟩
  · exact .inr ⟨hv, lt_compareFuel_right c v⟩

/-- Trying items in order with answers that end gives whether some item agrees. -/
theorem anyAgrees_eq_any {agree : Value → Value → Option Bool} {v : Value} {p : Value → Bool} {xs : List Value}
    (h : ∀ x ∈ xs, agree x v = some (p x)) : anyAgrees agree v xs = some (xs.any p) := by
  induction xs with
  | nil => rfl
  | cons x xs ih =>
    have hrest := ih fun x' hx' => h x' (by simp [hx'])
    rw [anyAgrees, h x (by simp)]
    cases hp : p x with
    | false => simpa [hp] using hrest
    | true => simp [hp]

section Membership

variable {c v : Value}

/-- With a cycle-free side, a list or tuple holds a value when `agrees` holds of an item. -/
theorem holdsUpTo_items {xs : List Value} (hc : c = list xs ∨ c = tuple xs)
    (h : c.cycleFree = true ∨ v.cycleFree = true) :
    c.holdsUpTo v = some ((closeAll c 0 xs).any fun x => agrees x v) := by
  have helem : ∀ x ∈ closeAll c 0 xs, agreesUpTo (compareFuel c v) x v = some (agrees x v) :=
    fun x hx => agreesUpTo_eq_agrees (FuelEnough.of_part h (by rcases hc with rfl | rfl <;> simp [parts, hx]))
  rcases hc with rfl | rfl <;> exact anyAgrees_eq_any helem

/-- With a cycle-free side, a set holds a value that can be a set item when `agrees` holds of an
item. -/
theorem holdsUpTo_set {xs : List Value} (h : (set xs).cycleFree = true ∨ v.cycleFree = true) :
    (set xs).holdsUpTo v = some (!(unhashableKind? v).isSome && xs.any fun x => agrees x v) := by
  have helem : ∀ x ∈ xs, agreesUpTo (compareFuel (set xs) v) x v = some (agrees x v) :=
    fun x hx => agreesUpTo_eq_agrees (FuelEnough.of_part h (by simp [parts, hx]))
  unfold holdsUpTo
  dsimp only
  split
  · simp_all
  · rename_i hkind
    simp [hkind, anyAgrees_eq_any helem]

/-- With a cycle-free side, a mapping holds a value that can be a key when `agrees` holds of a
key. -/
theorem holdsUpTo_keys {es : List (Value × Value)} (hc : c = dict es ∨ c = ordered es)
    (h : c.cycleFree = true ∨ v.cycleFree = true) :
    c.holdsUpTo v = some (!(unhashableKind? v).isSome && (es.map Prod.fst).any fun x => agrees x v) := by
  have helem : ∀ x ∈ es.map Prod.fst, agreesUpTo (compareFuel c v) x v = some (agrees x v) := by
    intro x hx
    obtain ⟨e, he, rfl⟩ := List.mem_map.1 hx
    refine agreesUpTo_eq_agrees (FuelEnough.of_part h ?_)
    rcases hc with rfl | rfl <;> exact (entry_mem_parts rfl (.inl he)).1
  rcases hc with rfl | rfl <;>
  · unfold holdsUpTo
    dsimp only
    split
    · simp_all
    · rename_i hkind
      simp [hkind, anyAgrees_eq_any helem]

/-- A membership test ends when the collection or the value looked for is cycle-free. -/
theorem holdsUpTo_isSome (h : c.cycleFree = true ∨ v.cycleFree = true) : (c.holdsUpTo v).isSome := by
  cases c with
  | list xs => rw [holdsUpTo_items (.inl rfl) h]; rfl
  | tuple xs => rw [holdsUpTo_items (.inr rfl) h]; rfl
  | set xs => rw [holdsUpTo_set h]; rfl
  | dict es => rw [holdsUpTo_keys (.inl rfl) h]; rfl
  | ordered es => rw [holdsUpTo_keys (.inr rfl) h]; rfl
  | _ => rfl

end Membership

end Value

end Branching
