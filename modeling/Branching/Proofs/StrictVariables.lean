import Branching.Template

/-!
# Strict variables only refuse

The strict-variables switch is read in one place, `Context.missing`: the outcome of a lookup that
finds nothing is nil with the switch off and an error with it on. Every other step of resolving an
operand, evaluating a chain or rendering a template reads only the scopes. So a run that succeeds
with the switch on never met a missing variable, and the same run with the switch off takes the
same steps to the same value.

The proofs follow the definitions: one mutual recursion over operands, roots and lookups, one over
nodes, bodies and branches, and an induction along the links of a chain.

## Main statements

- `Operand.resolve_lenient`, `Chain.evaluate_lenient`, `Node.renderAll_lenient`: a resolution, an
  evaluation or a render that succeeds in a context succeeds with the same value once strict
  variables are off.
- `strictVariables_only_refuse`: a template that renders with strict variables renders to the same
  text without them, and likewise for operands and chains.
-/

namespace Branching

namespace Context

/-- The same scopes with strict variables off. -/
def lenient (c : Context) : Context := { c with strictVariables := false }

@[simp] theorem find?_lenient (c : Context) (name : String) : c.lenient.find? name = c.find? name :=
  rfl

/-- A missing variable that is no error stays none with strict variables off. -/
theorem missing_lenient {c : Context} {path : String} {v : Value} (h : c.missing path = .ok v) :
    c.lenient.missing path = .ok v := by
  unfold missing at h
  split at h
  · cases h
  · simpa [missing, lenient] using h

theorem findVariable_lenient {c : Context} {name path : String} {v : Value}
    (h : c.findVariable name path = .ok v) : c.lenient.findVariable name path = .ok v := by
  unfold findVariable at h ⊢
  rw [find?_lenient]
  cases hn : c.find? name with
  | some w => simpa [hn] using h
  | none =>
    simp only [hn] at h ⊢
    exact missing_lenient h

end Context

/-! ### Operands -/

mutual

/-- An operand that resolves resolves to the same value with strict variables off. -/
theorem Operand.resolve_lenient {ctx : Context} : ∀ {o : Operand} {v : Value},
    o.resolve ctx = .ok v → o.resolve ctx.lenient = .ok v
  | .literal _ _, _, h => h
  | .method _, _, h => h
  | .range a b, v, h => by
    simp only [Operand.resolve] at h ⊢
    cases ha : a.resolve ctx with
    | error => simp [ha] at h
    | ok x =>
      simp only [ha] at h
      rw [Operand.resolve_lenient ha]
      -- the bounds are the same values, so they give the same integers
      cases hx : x.toBound with
      | error => simp [hx] at h
      | ok first =>
        simp only [hx] at h ⊢
        cases hb : b.resolve ctx with
        | error => simp [hb] at h
        | ok y =>
          simp only [hb] at h
          rw [Operand.resolve_lenient hb]
          exact h
  | .path root lookups, v, h => by
    simp only [Operand.resolve] at h ⊢
    cases hr : Key.rootName ctx root with
    | error => simp [hr] at h
    | ok name =>
      simp only [hr] at h
      rw [Key.rootName_lenient hr]
      cases hf : ctx.findVariable name (root.rootMarkup ++ Key.lookupsMarkup lookups) with
      | error => simp [hf] at h
      | ok obj =>
        simp only [hf] at h
        simp only [Context.findVariable_lenient hf]
        exact Key.follow_lenient h

/-- A root that names a variable names it with strict variables off. -/
theorem Key.rootName_lenient {ctx : Context} : ∀ {k : Key} {name : String},
    Key.rootName ctx k = .ok name → Key.rootName ctx.lenient k = .ok name
  | .name _, _, h => h
  | .index o, _, h => by
    simp only [Key.rootName] at h ⊢
    cases ho : o.resolve ctx with
    | error => simp [ho] at h
    | ok x =>
      simp only [ho] at h
      rw [Operand.resolve_lenient ho]
      exact h

/-- Lookups that end in a value end in it with strict variables off. -/
theorem Key.follow_lenient {ctx : Context} {path : String} :
    ∀ {obj : Value} {ks : List Key} {v : Value},
      Key.follow ctx path obj ks = .ok v → Key.follow ctx.lenient path obj ks = .ok v
  | _, [], _, h => h
  | obj, .name s :: rest, v, h => by
    simp only [Key.follow] at h ⊢
    split at h
    · exact h
    · cases hs : lookupStep obj (.str s) (isCommand s) with
      | error => simp [hs] at h
      | ok r =>
        simp only [hs] at h ⊢
        -- a key found goes on with the rest; a key not found is the missing variable
        cases r with
        | some w => exact Key.follow_lenient h
        | none => exact Context.missing_lenient h
  | obj, .index o :: rest, v, h => by
    simp only [Key.follow] at h ⊢
    split at h
    · exact h
    · cases ho : o.resolve ctx with
      | error => simp [ho] at h
      | ok key =>
        simp only [ho] at h
        rw [Operand.resolve_lenient ho]
        cases hs : lookupStep obj key false with
        | error => simp [hs] at h
        | ok r =>
          simp only [hs] at h ⊢
          cases r with
          | some w => exact Key.follow_lenient h
          | none => exact Context.missing_lenient h

end

/-! ### Chains -/

theorem Link.evaluate_lenient {ctx : Context} {l : Link} {b : Bool}
    (h : l.evaluate ctx = .ok b) : l.evaluate ctx.lenient = .ok b := by
  unfold Link.evaluate at h ⊢
  cases hl : l.left.resolve ctx with
  | error => simp [hl] at h
  | ok left =>
    simp only [hl] at h
    rw [Operand.resolve_lenient hl]
    cases hc : l.comparison with
    | none => simpa [hc] using h
    | some p =>
      obtain ⟨op, right⟩ := p
      simp only [hc] at h ⊢
      cases hr : right.resolve ctx with
      | error => simp [hr] at h
      | ok r =>
        simp only [hr] at h
        rw [Operand.resolve_lenient hr]
        exact h

theorem Chain.walk_lenient {ctx : Context} {rest : List (Combinator × Link)} :
    ∀ {current : Link} {b : Bool},
      Chain.walk ctx current rest = .ok b → Chain.walk ctx.lenient current rest = .ok b := by
  induction rest with
  | nil => exact Link.evaluate_lenient
  | cons p rest ih =>
    intro current b h
    obtain ⟨k, next⟩ := p
    simp only [Chain.walk] at h ⊢
    cases hc : current.evaluate ctx with
    | error => simp [hc] at h
    | ok r =>
      simp only [hc] at h
      rw [Link.evaluate_lenient hc]
      -- the walk stops at the same link, or goes on to the same rest
      cases k <;> cases r <;> simp only at h ⊢
      case and.false => exact h
      case and.true => exact ih h
      case or.false => exact ih h
      case or.true => exact h

/-- A chain that evaluates evaluates to the same truth with strict variables off. -/
theorem Chain.evaluate_lenient {ctx : Context} {c : Chain} {b : Bool}
    (h : c.evaluate ctx = .ok b) : c.evaluate ctx.lenient = .ok b :=
  Chain.walk_lenient h

/-! ### Templates -/

mutual

/-- A node that renders renders to the same text with strict variables off. -/
theorem Node.render_lenient {ctx : Context} : ∀ {n : Node} {s : String},
    n.render ctx = .ok s → n.render ctx.lenient = .ok s
  | .text _, _, h => h
  | .output o, _, h => by
    simp only [Node.render] at h ⊢
    cases ho : o.resolve ctx with
    | error => simp [ho, Except.bind] at h
    | ok v =>
      rw [ho] at h
      rw [Operand.resolve_lenient ho]
      exact h
  | .conditional ⟨guard, body, alternatives, otherwise, _⟩, _, h => by
    simp only [Node.render] at h ⊢
    cases hg : guard.evaluate ctx with
    | error => simp [hg] at h
    | ok held =>
      simp only [hg] at h
      rw [Chain.evaluate_lenient hg]
      -- the same branch is chosen: the `if` body, an `elsif` body, or the `else` body
      cases held with
      | true => exact Node.renderAll_lenient h
      | false =>
        simp only at h ⊢
        cases ha : Node.renderArms ctx alternatives with
        | error => simp [ha] at h
        | ok r =>
          simp only [ha] at h
          rw [Node.renderArms_lenient ha]
          cases r with
          | some t => exact h
          | none => exact Node.renderElse_lenient h

/-- A body that renders renders to the same text with strict variables off. -/
theorem Node.renderAll_lenient {ctx : Context} : ∀ {ns : List Node} {s : String},
    Node.renderAll ctx ns = .ok s → Node.renderAll ctx.lenient ns = .ok s
  | [], _, h => h
  | n :: ns, _, h => by
    simp only [Node.renderAll] at h ⊢
    cases hn : n.render ctx with
    | error => simp [hn] at h
    | ok t =>
      simp only [hn] at h
      rw [Node.render_lenient hn]
      cases hr : Node.renderAll ctx ns with
      | error => simp [hr] at h
      | ok u =>
        simp only [hr] at h
        rw [Node.renderAll_lenient hr]
        exact h

theorem Node.renderArms_lenient {ctx : Context} :
    ∀ {arms : List (Chain × List Node)} {r : Option String},
      Node.renderArms ctx arms = .ok r → Node.renderArms ctx.lenient arms = .ok r
  | [], _, h => h
  | (guard, body) :: rest, _, h => by
    simp only [Node.renderArms] at h ⊢
    cases hg : guard.evaluate ctx with
    | error => simp [hg] at h
    | ok held =>
      simp only [hg] at h
      rw [Chain.evaluate_lenient hg]
      cases held with
      | true =>
        simp only at h ⊢
        cases hb : Node.renderAll ctx body with
        | error => simp [hb, Except.map] at h
        | ok t =>
          rw [hb] at h
          rw [Node.renderAll_lenient hb]
          exact h
      | false => exact Node.renderArms_lenient h

theorem Node.renderElse_lenient {ctx : Context} : ∀ {b : Option (List Node)} {s : String},
    Node.renderElse ctx b = .ok s → Node.renderElse ctx.lenient b = .ok s
  | none, _, h => h
  | some _, _, h => Node.renderAll_lenient h

end

/-- A template that renders with strict variables renders to the same text without them. -/
theorem Template.render_lenient {t : Template} {vars : Bindings} {s : String}
    (h : t.render vars (some true) = .ok s) : t.render vars (some false) = .ok s :=
  Node.renderAll_lenient h

/-- Strict variables only turn results into errors: a template render, an operand resolution or a
chain evaluation that succeeds with strict variables succeeds with the same result in a context with
the same scopes and strict variables off. -/
theorem strictVariables_only_refuse :
    (∀ (t : Template) (vars : Bindings) (s : String),
      t.render vars (some true) = .ok s → t.render vars (some false) = .ok s) ∧
    (∀ (ctx : Context) (o : Operand) (v : Value),
      o.resolve ctx = .ok v → o.resolve { ctx with strictVariables := false } = .ok v) ∧
    (∀ (ctx : Context) (c : Chain) (b : Bool),
      c.evaluate ctx = .ok b → c.evaluate { ctx with strictVariables := false } = .ok b) :=
  ⟨fun _ _ _ => Template.render_lenient, fun _ _ _ => Operand.resolve_lenient,
    fun _ _ _ => Chain.evaluate_lenient⟩

end Branching
