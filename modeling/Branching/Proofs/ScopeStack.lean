import Branching.Scope

/-!
# The scope stack over a run

A render context is edited by pushing a scope, popping the innermost one and binding a name in
the innermost one; finding, testing and resolving names read it and change nothing. This module
follows a context through any run of edits.

The root scope is a field of its own, so the stack is never empty, and a pop fails exactly when
the root is all that is left, leaving the context as it was. A pop that succeeds takes off the
scope its matching push put on: between the two the run is `Balanced` (each push it makes is
popped again, and it pops nothing else), so the popped scope is the pushed one updated by the
bindings made at its depth, and the context is again the one from before the push.

## Main statements

- `Context.run_balanced`: a balanced run only makes the bindings at the depth it starts at.
- `Context.pop_push_run`: a push, a balanced run and a pop give back the context from before the
  push, and the pop returns the pushed scope with those bindings made.
- `Context.pop_run_matches`: every pop that succeeds in a run from a fresh context is the match of
  a push in the run, with a balanced run between them.
- `Context.scope_stack_laws`: the laws of a fresh context after any run, together.
-/

namespace Branching

namespace Bindings

/-- A scope after the bindings `sets`, made in order. -/
def update (b : Bindings) (sets : List (String × Value)) : Bindings :=
  sets.foldl (fun b p => Value.insertEntry b (.str p.1) p.2) b

@[simp] theorem update_nil (b : Bindings) : b.update [] = b := rfl

@[simp] theorem update_append (b : Bindings) (s t : List (String × Value)) :
    b.update (s ++ t) = (b.update s).update t := by
  simp [update, List.foldl_append]

@[simp] theorem update_cons (b : Bindings) (name : String) (v : Value) (sets : List (String × Value)) :
    b.update ((name, v) :: sets) = Bindings.update (Value.insertEntry b (.str name) v) sets := rfl

/-- A key written as a text is the same datum as no other value. -/
theorem identical_str (x : Value) (name : String) : Value.identical x (.str name) = false := by
  cases x <;> simp [Value.identical, Value.sameNaN, Value.selfNumber?]

/-- A scope binds a name exactly when looking the name up finds a value. -/
theorem isSome_get?_iff (b : Bindings) (name : String) : (b.get? name).isSome ↔ b.binds name := by
  simp [get?, binds, Value.lookup?, Value.agrees, identical_str, List.find?_isSome]

end Bindings

namespace Context

/-! ### One edit -/

/-- A change to a render context: a new innermost scope, removing the innermost scope, or a binding
in the innermost scope. -/
inductive Edit where
  | push (b : Bindings)
  | pop
  | set (name : String) (v : Value)

/-- The context after an edit. A pop of the root fails and leaves the context as it was. -/
def edit (c : Context) : Edit → Context
  | .push b => c.push b
  | .pop =>
    match c.pop with
    | .ok (_, c') => c'
    | .error _ => c
  | .set name v => c.set name v

/-- The context after a run of edits. -/
def run (c : Context) (es : List Edit) : Context := es.foldl edit c

@[simp] theorem run_nil (c : Context) : c.run [] = c := rfl

@[simp] theorem run_cons (c : Context) (e : Edit) (es : List Edit) :
    c.run (e :: es) = (c.edit e).run es := rfl

@[simp] theorem run_append (c : Context) (es fs : List Edit) :
    c.run (es ++ fs) = (c.run es).run fs := by
  simp [run, List.foldl_append]

/-- The stack is never empty: the root is always at the bottom. -/
theorem scopes_ne_nil (c : Context) : c.scopes ≠ [] := by
  simp [scopes]

theorem pop_of_inner {c : Context} {b : Bindings} {rest : List Bindings} (h : c.inner = b :: rest) :
    c.pop = .ok (b, { c with inner := rest }) := by
  simp [pop, h]

/-- A pop fails exactly when only the root is left, and then with the root-scope error. -/
theorem pop_eq_error_iff {c : Context} {e : Error} : c.pop = .error e ↔ c.depth = 1 ∧ e = .rootScope := by
  cases h : c.inner with
  | nil => simp [pop, depth, h, eq_comm]
  | cons b rest => simp [pop_of_inner h, depth, h]

/-- A pop that fails leaves the context as it was. -/
theorem edit_pop_root {c : Context} (h : c.depth = 1) : c.edit .pop = c := by
  have hinner : c.inner = [] := by simpa [depth] using h
  simp [edit, pop, hinner]

@[simp] theorem pop_push (c : Context) (b : Bindings) : (c.push b).pop = .ok (b, c) := rfl

/-- A pop that succeeds returns the innermost scope and leaves the scopes under it. -/
theorem scopes_of_pop {c c' : Context} {s : Bindings} (h : c.pop = .ok (s, c')) :
    c.scopes = s :: c'.scopes := by
  cases hc : c.inner with
  | nil => simp [pop, hc] at h
  | cons b rest =>
    rw [pop_of_inner hc] at h
    obtain ⟨rfl, rfl⟩ := Prod.mk.inj (Except.ok.inj h)
    simp [scopes, hc]

/-- A binding changes the innermost scope and no other. -/
theorem scopes_set (c : Context) (name : String) (v : Value) :
    (c.set name v).scopes = Value.insertEntry (c.scopes.head (scopes_ne_nil c)) (.str name) v ::
      c.scopes.tail := by
  cases h : c.inner <;> simp [set, scopes, h]

@[simp] theorem strictVariables_edit (c : Context) (e : Edit) :
    (c.edit e).strictVariables = c.strictVariables := by
  cases e with
  | pop => cases h : c.inner <;> simp [edit, pop, h]
  | push b => rfl
  | set name v => cases h : c.inner <;> simp [edit, set, h]

@[simp] theorem strictVariables_run (c : Context) (es : List Edit) :
    (c.run es).strictVariables = c.strictVariables := by
  induction es generalizing c with
  | nil => rfl
  | cons e es ih => simp [ih]

/-! ### Lookups -/

/-- Looking a name up finds the value of the innermost scope that binds it. -/
theorem findVariable_innermost {c : Context} {name path : String} {above : List Bindings}
    {b : Bindings} {below : List Bindings} (hc : c.scopes = above ++ b :: below)
    (habove : ∀ s ∈ above, s.binds name = false) (hb : b.binds name = true) :
    ∃ v, b.get? name = some v ∧ c.findVariable name path = .ok v := by
  obtain ⟨v, hv⟩ := Option.isSome_iff_exists.mp ((Bindings.isSome_get?_iff b name).mpr hb)
  have hnone : ∀ s ∈ above, s.get? name = none := fun s hs => by
    rw [← Option.not_isSome_iff_eq_none, Bindings.isSome_get?_iff, habove s hs]
    decide
  refine ⟨v, hv, ?_⟩
  have hfind : c.find? name = some v := by
    simp [find?, hc, List.findSome?_append, List.findSome?_eq_none_iff.mpr hnone, hv]
  simp [findVariable, hfind]

/-- A name no scope binds is nil, or an error naming the path under strict variables. -/
theorem findVariable_unbound {c : Context} {name path : String}
    (h : ∀ s ∈ c.scopes, s.binds name = false) :
    c.findVariable name path = if c.strictVariables then .error (.undefined path) else .ok .nil := by
  have hnone : c.find? name = none := List.findSome?_eq_none_iff.mpr fun s hs => by
    rw [← Option.not_isSome_iff_eq_none, Bindings.isSome_get?_iff, h s hs]
    decide
  simp [findVariable, hnone, missing]

theorem contains_iff (c : Context) (name : String) :
    c.contains name = true ↔ ∃ s ∈ c.scopes, s.binds name = true := by
  simp [contains]

/-! ### Balanced runs -/

/-- Bindings made in order on the innermost scope. -/
def setAll (c : Context) (sets : List (String × Value)) : Context :=
  sets.foldl (fun c p => c.set p.1 p.2) c

/-- Bindings made over a pushed scope are made on that scope. -/
theorem setAll_push (c : Context) (b : Bindings) (sets : List (String × Value)) :
    (c.push b).setAll sets = c.push (b.update sets) := by
  induction sets generalizing b with
  | nil => rfl
  | cons p sets ih => exact ih _

/-- `Balanced es sets`: the run `es` pops every scope it pushes, and pops no scope it did not
push; `sets` are the bindings it makes at the depth it starts at, in order. -/
inductive Balanced : List Edit → List (String × Value) → Prop
  | nil : Balanced [] []
  | set {es sets} (name : String) (v : Value) :
      Balanced es sets → Balanced (.set name v :: es) ((name, v) :: sets)
  | nest {inner innerSets es sets} (b : Bindings) :
      Balanced inner innerSets → Balanced es sets → Balanced (.push b :: inner ++ .pop :: es) sets

theorem Balanced.append {es fs : List Edit} {s t : List (String × Value)}
    (h₁ : Balanced es s) (h₂ : Balanced fs t) : Balanced (es ++ fs) (s ++ t) := by
  induction h₁ with
  | nil => exact h₂
  | set name v _ ih => exact .set name v ih
  | nest b hinner _ _ ih => simpa using Balanced.nest b hinner ih

/-- A balanced run only makes the bindings at the depth it starts at: what it pushes, it pops. -/
theorem run_balanced {es : List Edit} {sets : List (String × Value)} (h : Balanced es sets) (c : Context) :
    c.run es = c.setAll sets := by
  induction h generalizing c with
  | nil => rfl
  | set name v _ ih => exact ih (c.set name v)
  | nest b _ _ ihInner ih =>
    -- inside, the pushed scope takes the inner bindings; the pop then removes it
    have hinner : (c.push b).run _ = c.push (b.update _) := (ihInner _).trans (setAll_push c b _)
    simp [hinner, edit, ih]

/-- A push, a balanced run and a pop: the pop returns the pushed scope with the bindings made at
its depth, and leaves the context from before the push. -/
theorem pop_push_run {es : List Edit} {sets : List (String × Value)} (h : Balanced es sets)
    (c : Context) (b : Bindings) : ((c.push b).run es).pop = .ok (b.update sets, c) := by
  rw [run_balanced h, setAll_push, pop_push]

/-- Finding, testing and resolving names after a push and its matching pop see the context from
before the push. -/
theorem edit_pop_push_run {es : List Edit} {sets : List (String × Value)} (h : Balanced es sets)
    (c : Context) (b : Bindings) : (c.run (.push b :: es ++ [.pop])) = c := by
  simp [edit, pop_push_run h]

/-! ### Every pop matches a push -/

/-- A binding does not change how many scopes there are. -/
theorem inner_set_eq_nil {c : Context} {name : String} {v : Value} :
    (c.set name v).inner = [] ↔ c.inner = [] := by
  cases h : c.inner <;> simp [set, h]

/-- A binding on a context whose innermost scope is pushed: the pop after it returns that scope
with the binding made, over the same outer scopes. -/
theorem pop_set {c c' : Context} {t : Bindings} {name : String} {v : Value}
    (h : c.pop = .ok (t, c')) : (c.set name v).pop = .ok (Value.insertEntry t (.str name) v, c') := by
  cases hc : c.inner with
  | nil => simp [pop, hc] at h
  | cons b rest =>
    rw [pop_of_inner hc] at h
    obtain ⟨rfl, rfl⟩ := Prod.mk.inj (Except.ok.inj h)
    simp [set, pop, hc]

/-- Every pop that succeeds after a run from a context of one scope removes the scope pushed by a
push of the run: between that push and the pop the run is balanced, the scope returned is the one
pushed with the bindings made at its depth, and the context left is the one before the push. -/
theorem pop_run_matches {c : Context} (hc : c.inner = []) {es : List Edit} {s : Bindings}
    {c' : Context} (h : (c.run es).pop = .ok (s, c')) :
    ∃ pre b mid sets, es = pre ++ .push b :: mid ∧ Balanced mid sets ∧ s = b.update sets ∧
      c' = c.run pre := by
  -- strong induction on the run, taken apart at its last edit
  induction hn : es.length using Nat.strongRecOn generalizing es s c' with
  | _ n ih =>
  subst hn
  rcases List.eq_nil_or_concat es with rfl | ⟨es', e, rfl⟩
  · simp [pop, hc] at h
  simp only [List.concat_eq_append] at h ⊢
  have ih' : ∀ {fs s c'}, fs.length < es'.length + 1 → (c.run fs).pop = .ok (s, c') →
      ∃ pre b mid sets, fs = pre ++ .push b :: mid ∧ Balanced mid sets ∧ s = b.update sets ∧
        c' = c.run pre := fun hlt hpop => ih _ (by simpa using hlt) hpop rfl
  cases e with
  | push b =>
    -- the last edit pushed the scope that is popped
    simp only [run_append, run_cons, run_nil, edit, pop_push, Except.ok.injEq, Prod.mk.injEq] at h
    exact ⟨es', b, [], [], by simp, .nil, by simp [h.1], h.2.symm⟩
  | set name v =>
    -- the binding went into the scope that is popped, pushed earlier
    simp only [run_append, run_cons, run_nil, edit] at h
    cases hpop : (c.run es').pop with
    | error e =>
      have hroot : (c.run es').inner = [] := by
        simpa [depth] using (pop_eq_error_iff.mp hpop).1
      have : ((c.run es').set name v).inner = [] := inner_set_eq_nil.mpr hroot
      simp [pop, this] at h
    | ok r =>
      obtain ⟨t, d⟩ := r
      rw [pop_set hpop] at h
      obtain ⟨rfl, rfl⟩ := Prod.mk.inj (Except.ok.inj h)
      obtain ⟨pre, b, mid, sets, rfl, hmid, rfl, rfl⟩ := ih' (by omega) hpop
      exact ⟨pre, b, mid ++ [.set name v], sets ++ [(name, v)], by simp,
        hmid.append (.set name v .nil), by simp, rfl⟩
  | pop =>
    -- the last edit popped a scope pushed earlier; the pop after it matches an older push
    simp only [run_append, run_cons, run_nil, edit] at h
    cases hpop : (c.run es').pop with
    | error e => simp [hpop] at h
    | ok r =>
      obtain ⟨t, d⟩ := r
      simp only [hpop] at h
      obtain ⟨pre, b, mid, sets, rfl, hmid, -, rfl⟩ := ih' (by omega) hpop
      obtain ⟨pre', b', mid', sets', rfl, hmid', rfl, rfl⟩ := ih' (by simp only [List.length_append, List.length_cons]; omega) h
      refine ⟨pre', b', mid' ++ .push b :: (mid ++ [.pop]), sets' ++ [], by simp, ?_, by simp, rfl⟩
      exact hmid'.append (by simpa using Balanced.nest b hmid .nil)

/-! ### The laws together -/

/-- The render context as a scope stack, after any run of edits from a fresh context over the
variables `vars`: the stack is never empty; a pop fails exactly at the root, with the root-scope
error, and then changes nothing; a pop that succeeds returns the innermost scope, which is the
scope its matching push put on updated by the bindings made while it was innermost, and leaves the
context from before that push; a binding changes the innermost scope only; a name is found in the
innermost scope that binds it, and is nil or an error naming it when none does; and a push with
its matching pop leaves the context, so every lookup, as it was. -/
theorem scope_stack_laws (vars : Bindings) (strict : Bool) (es : List Edit) :
    let fresh : Context := { root := vars, strictVariables := strict }
    let c := fresh.run es
    c.scopes ≠ [] ∧
    (∀ e, c.pop = .error e ↔ c.depth = 1 ∧ e = .rootScope) ∧
    Error.message .rootScope = "Cannot pop the root scope" ∧
    (c.depth = 1 → c.edit .pop = c) ∧
    (∀ s c', c.pop = .ok (s, c') →
      c.scopes = s :: c'.scopes ∧
      ∃ pre b mid sets, es = pre ++ .push b :: mid ∧ Balanced mid sets ∧ s = b.update sets ∧
        c' = fresh.run pre) ∧
    (∀ name v, (c.set name v).scopes =
      Value.insertEntry (c.scopes.head (scopes_ne_nil c)) (.str name) v :: c.scopes.tail) ∧
    (∀ name path above b below, c.scopes = above ++ b :: below →
      (∀ s ∈ above, s.binds name = false) → b.binds name = true →
      ∃ v, b.get? name = some v ∧ c.findVariable name path = .ok v) ∧
    (∀ name path, (∀ s ∈ c.scopes, s.binds name = false) →
      c.findVariable name path = if strict then .error (.undefined path) else .ok .nil) ∧
    (∀ name, c.contains name = true ↔ ∃ s ∈ c.scopes, s.binds name = true) ∧
    (∀ b mid sets, Balanced mid sets →
      ((c.push b).run mid).pop = .ok (b.update sets, c) ∧ c.run (.push b :: mid ++ [.pop]) = c) := by
  intro fresh c
  refine ⟨scopes_ne_nil c, fun _ => pop_eq_error_iff, rfl, edit_pop_root,
    fun s c' h => ⟨scopes_of_pop h, pop_run_matches rfl h⟩, scopes_set c,
    fun _ _ _ _ _ hc habove hb => findVariable_innermost hc habove hb, fun _ _ h => ?_,
    contains_iff c, fun b _ _ h => ⟨pop_push_run h c b, edit_pop_push_run h c b⟩⟩
  rw [findVariable_unbound h, strictVariables_run]

end Context

end Branching
