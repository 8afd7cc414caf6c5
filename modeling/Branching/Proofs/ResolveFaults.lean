import Branching.Operand.Resolve

/-!
# The errors of resolving an operand

Resolving an operand fails in few ways. Two errors are of the user's making: a name that no scope
binds, under strict variables, and a range end that is no integer. Four more are faults of the
values met on the way: a NaN or infinite number as a range end, a range too long to measure, a
collection used as a key of a mapping, and an integer too long to write. `ResolveFault` lists them,
and every failed resolution ends with one of them. Each step of resolving has its own lemma saying
which of them it can fail with; the main statement follows the resolver's mutual recursion.

All four faults are met: a NaN range end, an infinite one, the size of a range longer than
`sizeLimit` and a list used as the key of a mapping each stop resolution.

## Main statements

- `Operand.resolve_fault`, `Key.rootName_fault`, `Key.follow_fault`: a failed resolution, root or
  lookup ends with a fault of the list.
- `Operand.resolve_value_or_fault`: resolving gives a value or fails with a fault of the list.
- `Operand.resolve_meets_raw_faults`: the four faults of the values are met.
-/

namespace Branching

/-- The errors resolving an operand in the context `ctx` can end with. -/
inductive ResolveFault (ctx : Context) : Error → Prop
  /-- A name no scope binds, under strict variables. -/
  | undefined {path : String} : ctx.strictVariables = true → ResolveFault ctx (.undefined path)
  /-- A range end that is no integer. -/
  | notAnInteger {v : Value} : ResolveFault ctx (.notAnInteger v)
  /-- A NaN range end. -/
  | nanBound : ResolveFault ctx .nanBound
  /-- An infinite range end. -/
  | infiniteBound : ResolveFault ctx .infiniteBound
  /-- A range too long to measure. -/
  | sizeOverflow : ResolveFault ctx .sizeOverflow
  /-- A collection used as a key of a mapping. -/
  | unhashable {kind : String} : ResolveFault ctx (.unhashable kind)
  /-- An integer too long to write. -/
  | intTooLong : ResolveFault ctx .intTooLong

/-- Measuring fails only on a range too long to measure. -/
theorem measure_error {obj : Value} {key : String} {e : Error} (h : measure obj key = .error e) :
    e = .sizeOverflow := by
  unfold measure at h
  grind

/-- A lookup step fails only by measuring, or on a collection used as a key of a mapping. -/
theorem lookupStep_error {obj key : Value} {command : Bool} {e : Error}
    (h : lookupStep obj key command = .error e) :
    e = .sizeOverflow ∨ ∃ kind, e = .unhashable kind := by
  unfold lookupStep at h
  grind [measure_error]

/-- A range end is refused as NaN, as infinite, as no integer, or as too long to write. -/
theorem Value.toBound_error {v : Value} {e : Error} (h : v.toBound = .error e) :
    e = .nanBound ∨ e = .infiniteBound ∨ e = .notAnInteger v ∨ e = .intTooLong := by
  unfold Value.toBound at h
  grind [Error.writing]

namespace ResolveFault

variable {ctx : Context} {e : Error}

theorem of_toBound {v : Value} (h : v.toBound = .error e) : ResolveFault ctx e := by
  rcases Value.toBound_error h with rfl | rfl | rfl | rfl
  · exact nanBound
  · exact infiniteBound
  · exact notAnInteger
  · exact intTooLong

theorem of_lookupStep {obj key : Value} {command : Bool}
    (h : lookupStep obj key command = .error e) : ResolveFault ctx e := by
  rcases lookupStep_error h with rfl | ⟨kind, rfl⟩
  · exact sizeOverflow
  · exact unhashable

theorem of_tryDisplay {v : Value} (h : v.tryDisplay = .error e) : ResolveFault ctx e := by
  unfold Value.tryDisplay at h
  split at h <;> cases h
  exact intTooLong

/-- A variable that no scope binds is an error only under strict variables. -/
theorem of_missing {path : String} (h : ctx.missing path = .error e) : ResolveFault ctx e := by
  unfold Context.missing at h
  split at h <;> cases h
  exact undefined (by assumption)

theorem of_findVariable {name path : String} (h : ctx.findVariable name path = .error e) :
    ResolveFault ctx e := by
  unfold Context.findVariable at h
  split at h
  · cases h
  · exact of_missing h

end ResolveFault

/-! ### Resolution -/

mutual

/-- A failed resolution ends with a fault of the list. -/
theorem Operand.resolve_fault {ctx : Context} : ∀ {o : Operand} {e : Error},
    o.resolve ctx = .error e → ResolveFault ctx e
  | .literal _ _, _, h => by cases h
  | .method _, _, h => by cases h
  | .range a b, e, h => by
    simp only [Operand.resolve] at h
    -- the first end, then the second, each resolved and then turned into an integer
    cases ha : a.resolve ctx with
    | error ea =>
      simp only [ha, Except.error.injEq] at h
      exact h ▸ Operand.resolve_fault ha
    | ok x =>
      simp only [ha] at h
      cases hx : x.toBound with
      | error ex =>
        simp only [hx, Except.error.injEq] at h
        exact h ▸ .of_toBound hx
      | ok first =>
        simp only [hx] at h
        cases hb : b.resolve ctx with
        | error eb =>
          simp only [hb, Except.error.injEq] at h
          exact h ▸ Operand.resolve_fault hb
        | ok y =>
          simp only [hb] at h
          cases hy : y.toBound with
          | error ey =>
            simp only [hy, Except.error.injEq] at h
            exact h ▸ .of_toBound hy
          | ok last => simp [hy] at h
  | .path root lookups, e, h => by
    simp only [Operand.resolve] at h
    cases hr : Key.rootName ctx root with
    | error er =>
      simp only [hr, Except.error.injEq] at h
      exact h ▸ Key.rootName_fault hr
    | ok name =>
      simp only [hr] at h
      cases hf : ctx.findVariable name (root.rootMarkup ++ Key.lookupsMarkup lookups) with
      | error ef =>
        simp only [hf, Except.error.injEq] at h
        exact h ▸ .of_findVariable hf
      | ok obj =>
        simp only [hf] at h
        exact Key.follow_fault h

/-- A root fails to name a variable only with a fault of the list. -/
theorem Key.rootName_fault {ctx : Context} : ∀ {k : Key} {e : Error},
    Key.rootName ctx k = .error e → ResolveFault ctx e
  | .name _, _, h => by cases h
  | .index o, e, h => by
    simp only [Key.rootName] at h
    cases ho : o.resolve ctx with
    | error eo =>
      simp only [ho, Except.error.injEq] at h
      exact h ▸ Operand.resolve_fault ho
    | ok v =>
      simp only [ho] at h
      exact .of_tryDisplay h

/-- Lookups fail only with a fault of the list. -/
theorem Key.follow_fault {ctx : Context} {path : String} :
    ∀ {obj : Value} {ks : List Key} {e : Error},
      Key.follow ctx path obj ks = .error e → ResolveFault ctx e
  | _, [], _, h => by cases h
  | obj, .name s :: rest, e, h => by
    simp only [Key.follow] at h
    split at h
    · cases h
    · cases hs : lookupStep obj (.str s) (isCommand s) with
      | error es =>
        simp only [hs, Except.error.injEq] at h
        exact h ▸ .of_lookupStep hs
      | ok r =>
        simp only [hs] at h
        -- a key found goes on with the rest; a key not found is the missing variable
        cases r with
        | some w => exact Key.follow_fault h
        | none => exact .of_missing h
  | obj, .index o :: rest, e, h => by
    simp only [Key.follow] at h
    split at h
    · cases h
    · cases ho : o.resolve ctx with
      | error eo =>
        simp only [ho, Except.error.injEq] at h
        exact h ▸ Operand.resolve_fault ho
      | ok key =>
        simp only [ho] at h
        cases hs : lookupStep obj key false with
        | error es =>
          simp only [hs, Except.error.injEq] at h
          exact h ▸ .of_lookupStep hs
        | ok r =>
          simp only [hs] at h
          cases r with
          | some w => exact Key.follow_fault h
          | none => exact .of_missing h

end

/-- Resolving an operand gives a value, or fails with a fault of the list: a name that no scope
binds only under strict variables, a range end that is no integer, or one of the four faults of the
values met on the way. -/
theorem Operand.resolve_value_or_fault (ctx : Context) (o : Operand) :
    (∃ v, o.resolve ctx = .ok v) ∨ ∃ e, o.resolve ctx = .error e ∧ ResolveFault ctx e := by
  cases h : o.resolve ctx with
  | ok v => exact .inl ⟨v, rfl⟩
  | error e => exact .inr ⟨e, rfl, Operand.resolve_fault h⟩

/-- The four faults of the values are met: the range from a NaN or an infinite `x` to 1, the size
of a range `x` from 0 to `2 ^ 63`, and a list `y` as a key of a mapping `x`. -/
theorem Operand.resolve_meets_raw_faults :
    (Operand.range (.path (.name "x") []) (.literal (.int 1) "1")).resolve
        { root := [(.str "x", .float Binary64.nan)] } = .error .nanBound ∧
      (Operand.range (.path (.name "x") []) (.literal (.int 1) "1")).resolve
        { root := [(.str "x", .float (Binary64.infinity false))] } = .error .infiniteBound ∧
      (Operand.path (.name "x") [.name "size"]).resolve
        { root := [(.str "x", .range 0 9223372036854775808)] } = .error .sizeOverflow ∧
      (Operand.path (.name "x") [.index (.path (.name "y") [])]).resolve
        { root := [(.str "x", .dict []), (.str "y", .list [])] } = .error (.unhashable "list") := by
  refine ⟨?_, ?_, ?_, ?_⟩ <;> with_unfolding_all rfl

end Branching
