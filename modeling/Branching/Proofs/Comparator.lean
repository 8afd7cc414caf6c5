import Branching.Proofs.DataEquality

/-!
# What a comparison answers

`compare l op r` classifies its inputs. A symbol outside the seven comparators is refused whatever
the values. The four orderings refuse exactly the pairs they cannot order (two numbers, truth
values not counted, or two texts can be ordered); the refusal names both values, and when writing
one of them would write an integer too long to write, that refusal is what is raised instead.
`==`, `!=` and `contains` refuse nothing by themselves: `contains` fails only on a text and a value
whose display form would write an integer too long to write, and the three fail only by going on
forever, through two collections that each recur inside themselves.

## Main statements

- `compare_classifies`: the refusals of `compare`, by comparator.
- `compare_contains_unwritable_range`: `contains` of a text and a range whose end past the last is
  too long to write raises.
- `Value.holdsUpTo_iff`, `contains_iff_element_agrees`: membership in a collection with a
  cycle-free side answers whether some element agrees with the value, which is the comparator's
  `==` except on truth values, method literals and NaN.
- `contains_true_holds_one`: a list holding `true` contains `1`, though `true == 1` is false.
-/

namespace Branching

namespace Comparator

/-- The four comparators that order their values. -/
def IsOrdering (c : Comparator) : Prop := c = lt ∨ c = gt ∨ c = le ∨ c = ge

theorem ofSymbol?_symbol (c : Comparator) : ofSymbol? c.symbol = some c := by
  cases c <;> rfl

theorem ofSymbol?_eq_none_iff {op : String} : ofSymbol? op = none ↔ op ∉ all.map symbol := by
  simp only [ofSymbol?, List.find?_eq_none, beq_iff_eq, List.mem_map, not_exists, not_and]

end Comparator

namespace Value

/-- The pairs an ordering can compare: two numbers, truth values not counted, or two texts. -/
def Orderable (l r : Value) : Prop :=
  (l.isNumber = true ∧ r.isNumber = true) ∨ ∃ s t, l = str s ∧ r = str t

theorem order?_eq_none_iff {l r : Value} : l.order? r = none ↔ ¬ l.Orderable r := by
  unfold order? Orderable
  split
  · simp
  · rename_i hstr
    have htexts : ¬ ∃ s t, l = str s ∧ r = str t := by
      rintro ⟨s, t, rfl, rfl⟩
      exact hstr s t rfl rfl
    by_cases hnum : l.isNumber && r.isNumber
    · simp only [hnum, if_true, reduceCtorEq, false_iff, not_not]
      exact .inl (by simpa using hnum)
    · simp only [hnum, Bool.false_eq_true, if_false, true_iff, not_or]
      exact ⟨by simpa using hnum, htexts⟩

end Value

/-- A comparator written with its own symbol is applied. -/
theorem compare_symbol (l r : Value) (c : Comparator) : compare l c.symbol r = c.apply l r := by
  simp [compare, Comparator.ofSymbol?_symbol]

namespace Comparator

variable {l r : Value} {e : Error}

/-- An ordering fails exactly on a pair it cannot order, naming both values unless one of them
cannot be written. -/
theorem apply_ordering_error {c : Comparator} (hc : c.IsOrdering) :
    c.apply l r = .error e ↔
      ¬ l.Orderable r ∧ e = if l.reprFits && r.reprFits then .incomparable l c.symbol r else .intTooLong := by
  have hwriting : Error.writing [l, r] (.incomparable l c.symbol r) =
      if l.reprFits && r.reprFits then .incomparable l c.symbol r else .intTooLong := by
    simp [Error.writing]
  rw [← Value.order?_eq_none_iff]
  -- all four orderings ask `order?` and differ only in what they accept of it
  cases ho : l.order? r with
  | none =>
    have happly : c.apply l r = .error (Error.writing [l, r] (.incomparable l c.symbol r)) := by
      rcases hc with rfl | rfl | rfl | rfl <;> simp only [apply, ho]
    rw [happly, hwriting]
    exact ⟨fun h => ⟨rfl, (Except.error.inj h).symm⟩, fun h => by rw [h.2]⟩
  | some o =>
    have happly : ∃ b, c.apply l r = .ok b := by
      rcases hc with rfl | rfl | rfl | rfl <;> cases o <;> simp [apply, ho, pure, Except.pure]
    obtain ⟨b, hb⟩ := happly
    simp [hb]

/-- `==` fails only by going on forever through two collections that each recur. -/
theorem apply_eq_error (h : eq.apply l r = .error e) :
    e = .endless " in comparison" ∧ l.cycleFree = false ∧ r.cycleFree = false := by
  simp only [apply] at h
  cases hs : l.sameAs r with
  | some b => simp [hs, ended] at h
  | none =>
    simp only [hs, ended, Except.error.injEq] at h
    have hnot : ¬ (l.cycleFree = true ∨ r.cycleFree = true) := fun hfree => by
      simpa [hs] using Value.sameAs_isSome hfree
    simpa [not_or] using And.intro h.symm hnot

/-- `!=` fails only as `==` does. -/
theorem apply_ne_error (h : ne.apply l r = .error e) :
    e = .endless " in comparison" ∧ l.cycleFree = false ∧ r.cycleFree = false := by
  apply apply_eq_error
  simp only [apply] at h ⊢
  cases hs : ended (l.sameAs r) with
  | ok b => simp [hs, Except.map] at h
  | error e' =>
    simp only [hs, Except.map, Except.error.injEq] at h
    rw [h]

/-- `contains` fails on a text and a value that cannot be displayed, and otherwise only by going
on forever through two collections that each recur. -/
theorem apply_contains_error (h : contains.apply l r = .error e) :
    ((∃ s, l = .str s) ∧ r ≠ .nil ∧ r.displayFits = false ∧ e = .intTooLong) ∨
      (e = .endless " in comparison" ∧ l.cycleFree = false ∧ r.cycleFree = false) := by
  simp only [apply] at h
  split at h
  · cases h
  · rename_i s hnil
    split at h
    · simp [Value.containsValue, ended] at h
    · rename_i hfits
      simp only [Except.error.injEq] at h
      exact .inl ⟨⟨s, rfl⟩, hnil, by simpa using hfits, h.symm⟩
  · rename_i hstr _
    -- a left side that is no text tests membership
    have hholds : l.containsValue r = l.holdsUpTo r := by
      cases l with
      | str s => exact absurd rfl (hstr s)
      | _ => rfl
    cases hm : l.holdsUpTo r with
    | some b => simp [hholds, hm, ended] at h
    | none =>
      simp only [hholds, hm, ended, Except.error.injEq] at h
      have hnot : ¬ (l.cycleFree = true ∨ r.cycleFree = true) := fun hfree => by
        simpa [hm] using Value.holdsUpTo_isSome hfree
      exact .inr (by simpa [not_or] using And.intro h.symm hnot)

/-- `contains` of a text and a value that cannot be displayed fails. -/
theorem apply_contains_undisplayable {s : String} (hnil : r ≠ .nil) (hfits : r.displayFits = false) :
    contains.apply (.str s) r = .error .intTooLong := by
  simp [apply, hfits]

/-- No comparator refuses its own symbol. -/
theorem apply_ne_unknownOperator (c : Comparator) (op : String) : c.apply l r ≠ .error (.unknownOperator op) := by
  intro h
  by_cases hc : c.IsOrdering
  · obtain ⟨-, he⟩ := (apply_ordering_error hc).1 h
    split at he <;> cases he
  · cases c with
    | eq => cases (apply_eq_error h).1
    | ne => cases (apply_ne_error h).1
    | contains => rcases apply_contains_error h with ⟨-, -, -, he⟩ | ⟨he, -⟩ <;> cases he
    | _ => exact hc (by simp [IsOrdering])

end Comparator

/-- `compare` classifies its inputs. A symbol outside the seven comparators is refused, whatever
the values. An ordering fails exactly on a pair it cannot order, naming both values, or refusing
to write one that cannot be written. `==`, `!=` and `contains` fail only where `contains` is asked
of a text and a value that cannot be displayed, which it refuses, and where comparing goes on
forever through two collections that each recur inside themselves. -/
theorem compare_classifies (l r : Value) :
    (∀ op, compare l op r = .error (.unknownOperator op) ↔ op ∉ Comparator.all.map Comparator.symbol) ∧
    (∀ c : Comparator, c.IsOrdering → ∀ e, compare l c.symbol r = .error e ↔
      ¬ l.Orderable r ∧ e = if l.reprFits && r.reprFits then .incomparable l c.symbol r else .intTooLong) ∧
    (∀ c : Comparator, ¬ c.IsOrdering → ∀ e, compare l c.symbol r = .error e →
      (c = .contains ∧ (∃ s, l = .str s) ∧ r ≠ .nil ∧ r.displayFits = false ∧ e = .intTooLong) ∨
        (e = .endless " in comparison" ∧ l.cycleFree = false ∧ r.cycleFree = false)) ∧
    (∀ s, l = .str s → r ≠ .nil → r.displayFits = false →
      compare l "contains" r = .error .intTooLong) := by
  refine ⟨fun op => ?_, fun c hc e => ?_, fun c hc e h => ?_, fun s hl hnil hfits => ?_⟩
  · -- a known symbol is applied, and applying never refuses a symbol
    constructor
    · intro h hop
      obtain ⟨c, -, rfl⟩ := List.mem_map.1 hop
      rw [compare_symbol] at h
      exact Comparator.apply_ne_unknownOperator c c.symbol h
    · intro hop
      simp [compare, Comparator.ofSymbol?_eq_none_iff.2 hop]
  · rw [compare_symbol]
    exact Comparator.apply_ordering_error hc
  · rw [compare_symbol] at h
    cases c with
    | eq => exact .inr (Comparator.apply_eq_error h)
    | ne => exact .inr (Comparator.apply_ne_error h)
    | contains =>
      rcases Comparator.apply_contains_error h with hstr | hend
      · exact .inl ⟨rfl, hstr⟩
      · exact .inr hend
    | _ => exact absurd (by simp [Comparator.IsOrdering]) hc
  · subst hl
    exact Comparator.apply_contains_undisplayable hnil hfits

/-- The integer `10 ^ integerDigitLimit` has one digit too many to be written. -/
theorem Value.intFits_pow_limit : Value.intFits (((Nat.pow 10 integerDigitLimit - 1 : Nat) : Int) + 1) = false := by
  unfold Value.intFits
  -- the limit is abstracted, so that nothing tries to compute the power
  generalize integerDigitLimit = n
  have hpos : 0 < Nat.pow 10 n := Nat.pow_pos (by decide)
  have hstop : ((Nat.pow 10 n - 1 : Nat) : Int) + 1 = ((Nat.pow 10 n : Nat) : Int) := by omega
  rw [hstop, Int.natAbs_natCast]
  simp

/-- `contains` of a text and a range whose end past the last has more than `integerDigitLimit`
digits fails: the display form of the range cannot be written. -/
theorem compare_contains_unwritable_range :
    compare (.str "abc") "contains" (.range 0 ((Nat.pow 10 integerDigitLimit - 1 : Nat) : Int)) =
      .error .intTooLong := by
  rw [show "contains" = Comparator.contains.symbol from rfl, compare_symbol]
  refine Comparator.apply_contains_undisplayable (fun h => by cases h) ?_
  simp only [Value.displayFits, Value.reprFits, Value.intFits_pow_limit, Bool.and_false]

/-! ### Membership -/

/-- An integer compared exactly with another. -/
theorem Dyadic.compare_ofInt (k n : Int) : (Dyadic.ofInt k).compare (.ofInt n) = Ord.compare k n := by
  simp [Dyadic.compare, Dyadic.ofInt]

/-- A binary64 number equal to an integer truncates to it. -/
theorem Binary64.truncate?_of_compare_eq {x : Binary64} {d : Dyadic} {k : Int} (hx : x.toDyadic? = some d)
    (h : (Dyadic.ofInt k).compare d = .eq) : x.truncate? = some k := by
  unfold Binary64.toDyadic? at hx
  unfold Binary64.truncate?
  cases hm : x.meaning with
  | nan => simp [hm] at hx
  | infinity negative =>
    simp only [hm, Option.some.injEq] at hx
    subst hx
    cases negative <;> simp [Dyadic.compare, Dyadic.ofInt, Dyadic.rank] at h
  | finite negative m e =>
    simp only [hm, Option.some.injEq] at hx
    subst hx
    simp only [Dyadic.compare, Dyadic.ofInt, compare_eq_iff_eq] at h
    simp only [Option.some.injEq]
    have hone : Nat.pow 2 0 = 1 := rfl
    by_cases he : 0 ≤ e
    · -- a whole number: `k` is the mantissa scaled up
      rw [min_eq_left he, Int.sub_zero, Int.sub_zero] at h
      simp only [Int.toNat_zero, hone, Int.natCast_one, Int.mul_one] at h
      simp only [he, if_true]
      cases negative
      · simp only [Bool.false_eq_true, if_false] at h ⊢
        rw [h, Int.natCast_mul]
      · simp only [if_true] at h ⊢
        rw [h, Int.natCast_mul, Int.neg_mul]
    · -- a fraction cut off: `k` scaled up is the mantissa
      rw [min_eq_right (by omega), Int.sub_self, Int.zero_sub] at h
      simp only [Int.toNat_zero, hone, Int.natCast_one, Int.mul_one] at h
      simp only [he, if_false]
      have hp : ((Nat.pow 2 (-e).toNat : Nat) : Int) ≠ 0 := by
        have : 0 < Nat.pow 2 (-e).toNat := Nat.pow_pos (by decide)
        omega
      cases negative
      · simp only [Bool.false_eq_true, if_false] at h ⊢
        rw [Int.natCast_ediv, ← h, Int.mul_ediv_cancel _ hp]
      · simp only [if_true] at h ⊢
        rw [Int.natCast_ediv, show (m : Int) = -k * Nat.pow 2 (-e).toNat by rw [Int.neg_mul, h, Int.neg_neg],
          Int.mul_ediv_cancel _ hp, Int.neg_neg]

namespace Value

/-- The collections a membership test looks into: lists, tuples, sets, mappings and ranges. -/
def isCollection : Value → Bool
  | list _ | tuple _ | set _ | dict _ | ordered _ | range _ _ => true
  | _ => false

/-- The collections that find their items by hash, and so hold nothing that cannot be hashed:
sets and mappings. -/
def hashesItems : Value → Bool
  | set _ | dict _ | ordered _ => true
  | _ => false

/-- The elements a membership test compares with the value looked for: the items of a list or
tuple, each as a value of its own, the items of a set, the keys of a mapping and the integers of a
range. -/
def Element : Value → Value → Prop
  | c@(list xs), e | c@(tuple xs), e => e ∈ closeAll c 0 xs
  | set xs, e => e ∈ xs
  | dict es, e | ordered es, e => e ∈ es.map Prod.fst
  | range first last, e => ∃ k, first ≤ k ∧ k ≤ last ∧ e = int k
  | _, _ => False

/-- Whether a value is a truth value. -/
def isBool : Value → Bool
  | bool _ => true
  | _ => false

/-- Whether a value is a method literal. -/
def isMethod : Value → Bool
  | method _ => true
  | _ => false

/-- The elements of a cycle-free collection are cycle-free. -/
theorem Element.cycleFree {c e : Value} (hc : c.cycleFree = true) (h : c.Element e) : e.cycleFree = true := by
  cases c with
  | list xs | tuple xs =>
    rw [Element, closeAll_of_cycleFree _ _ xs hc] at h
    exact cycleFreeAll_iff.1 hc e h
  | set xs => exact cycleFreeAll_iff.1 hc e h
  | dict es | ordered es =>
    obtain ⟨⟨k, v⟩, he, rfl⟩ := List.mem_map.1 h
    exact (cycleFreeEntries_iff.1 hc _ he).1
  | range first last =>
    obtain ⟨k, -, -, rfl⟩ := h
    rfl
  | _ => exact h.elim

/-- An integer agrees with a value exactly when the two are equal as numbers. -/
theorem agrees_int (k : Int) (v : Value) : (int k).agrees v = numEq (int k) v := by
  have hid : identical (int k) v = false := by simp [identical, sameNaN, selfNumber?]
  obtain ⟨n, hn⟩ : ∃ n, compareFuel (int k) v = n + 1 := ⟨_, rfl⟩
  simp only [agrees, hid, Bool.false_or, equals, hn, equalsUpTo_succ]
  cases v <;> rfl

/-- A range holds a value exactly when one of its integers is equal to it as a number. -/
theorem rangeHolds_iff {first last : Int} {v : Value} :
    rangeHolds first last v = true ↔ ∃ k, first ≤ k ∧ k ≤ last ∧ numEq (int k) v = true := by
  cases v with
  | bool b => simp [rangeHolds, numEq, toDyadic?, Dyadic.compare_ofInt]
  | int n => simp [rangeHolds, numEq, toDyadic?, Dyadic.compare_ofInt]
  | float x =>
    simp only [rangeHolds, numEq, toDyadic?]
    cases hd : x.toDyadic? with
    | none => simp
    | some d =>
      constructor
      · intro h
        cases ht : x.truncate? with
        | none => simp [ht] at h
        | some n =>
          simp only [ht, Bool.and_eq_true, beq_iff_eq, decide_eq_true_eq] at h
          exact ⟨n, h.1.2, h.2, by simpa using h.1.1⟩
      · rintro ⟨k, hfirst, hlast, hk⟩
        rw [Binary64.truncate?_of_compare_eq hd (by simpa using hk)]
        simp_all
  | _ => simp [rangeHolds, numEq, toDyadic?]

/-- With a cycle-free side, the membership test of a collection answers whether some element agrees
with the value, and, in a set or a mapping, whether the value can be hashed at all. -/
theorem holdsUpTo_iff {c v : Value} (hc : c.isCollection = true) (h : c.cycleFree = true ∨ v.cycleFree = true) :
    ∃ b, c.holdsUpTo v = some b ∧
      (b = true ↔ (∃ e, c.Element e ∧ e.agrees v = true) ∧ (c.hashesItems = true → unhashableKind? v = none)) := by
  cases c with
  | list xs => exact ⟨_, holdsUpTo_items (.inl rfl) h, by simp [Element, hashesItems]⟩
  | tuple xs => exact ⟨_, holdsUpTo_items (.inr rfl) h, by simp [Element, hashesItems]⟩
  | set xs => exact ⟨_, holdsUpTo_set h, by simp [Element, hashesItems, and_comm]⟩
  | dict es => exact ⟨_, holdsUpTo_keys (.inl rfl) h, by simp [Element, hashesItems, and_comm]⟩
  | ordered es => exact ⟨_, holdsUpTo_keys (.inr rfl) h, by simp [Element, hashesItems, and_comm]⟩
  | range first last =>
    refine ⟨_, rfl, ?_⟩
    simp [Element, hashesItems, rangeHolds_iff, agrees_int, and_assoc]
  | _ => simp [isCollection] at hc

/-- Where neither side is a truth value or a method literal against a value of another kind, and
the two are not one NaN, the comparator's `==` is data equality: `agrees`. -/
theorem sameAs_eq_agrees {a b : Value} (hbool : a.isBool = b.isBool) (hmethod : a.isMethod = b.isMethod)
    (hnan : sameNaN a b = false) (h : a.cycleFree = true ∨ b.cycleFree = true) :
    a.sameAs b = some (a.agrees b) := by
  have hagrees : a.agrees b = a.equals b := by simp [agrees, identical_of_cycleFree h, hnan]
  rw [hagrees]
  unfold sameAs
  split
  · rfl
  · rename_i v hv
    cases v <;> simp_all [isMethod]
  · rename_i v hv
    cases v <;> simp_all [isMethod]
  · rename_i x y
    cases x <;> cases y <;> rfl
  · cases b <;> simp_all [isBool]
  · cases a <;> simp_all [isBool]
  · exact equalsUpTo_compareFuel h

end Value

/-- Membership in a list, tuple, set, mapping or range, with a cycle-free side, always answers, and
answers whether some element of the collection agrees with the value looked for: is it, or equals
it as data (the items of a list, tuple or set, the keys of a mapping, the integers of a range; a set
or a mapping holds nothing that cannot be hashed). That is not the comparator's `==` in general:
the two agree on an element and the value except where exactly one of them is a truth value, exactly
one is a method literal, or they are one NaN. -/
theorem contains_iff_element_agrees {L r : Value} (hL : L.isCollection = true)
    (hfree : L.cycleFree = true ∨ r.cycleFree = true) :
    (∃ b, compare L "contains" r = .ok b) ∧
    (compare L "contains" r = .ok true ↔
      (∃ e, L.Element e ∧ e.agrees r = true) ∧ (L.hashesItems = true → Value.unhashableKind? r = none)) ∧
    (∀ e, L.Element e → e.isBool = r.isBool → e.isMethod = r.isMethod → Value.sameNaN e r = false →
      compare e "==" r = .ok (e.agrees r)) := by
  obtain ⟨b, hb, hiff⟩ := Value.holdsUpTo_iff hL hfree
  -- a collection is no text, so `contains` asks the membership test
  have hcompare : compare L "contains" r = .ok b := by
    rw [show "contains" = Comparator.contains.symbol from rfl, compare_symbol]
    have hasks : Comparator.contains.apply L r = ended (L.holdsUpTo r) := by
      cases L <;> simp_all [Value.isCollection, Comparator.apply, Value.containsValue]
    rw [hasks, hb]
    rfl
  refine ⟨⟨b, hcompare⟩, ?_, fun e he hbool hmethod hnan => ?_⟩
  · rw [hcompare, Except.ok.injEq]
    exact hiff
  · have hside : e.cycleFree = true ∨ r.cycleFree = true := hfree.imp_left fun hc => he.cycleFree hc
    rw [show "==" = Comparator.eq.symbol from rfl, compare_symbol]
    simp [Comparator.apply, Value.sameAs_eq_agrees hbool hmethod hnan hside, ended]

/-- Membership of `1` in the list holding `true`. -/
theorem contains_iff_element_agrees_true_one :
    (Value.list [.bool true]).isCollection = true ∧
    ((Value.list [.bool true]).cycleFree = true ∨ (Value.int 1).cycleFree = true) ∧
    ((∃ b, compare (.list [.bool true]) "contains" (.int 1) = .ok b) ∧
    (compare (.list [.bool true]) "contains" (.int 1) = .ok true ↔
      (∃ e, (Value.list [.bool true]).Element e ∧ e.agrees (.int 1) = true) ∧
        ((Value.list [.bool true]).hashesItems = true → Value.unhashableKind? (.int 1) = none)) ∧
    (∀ e, (Value.list [.bool true]).Element e → e.isBool = (Value.int 1).isBool →
      e.isMethod = (Value.int 1).isMethod → Value.sameNaN e (.int 1) = false →
      compare e "==" (.int 1) = .ok (e.agrees (.int 1)))) :=
  ⟨rfl, .inl rfl, contains_iff_element_agrees rfl (.inl rfl)⟩

/-- `true` is an element of a list that `contains` finds equal to `1`, though `==` does not. -/
theorem contains_true_holds_one :
    compare (.list [.bool true]) "contains" (.int 1) = .ok true ∧ compare (.bool true) "==" (.int 1) = .ok false :=
  ⟨rfl, rfl⟩


end Branching
