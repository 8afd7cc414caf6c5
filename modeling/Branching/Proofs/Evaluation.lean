import Branching.Condition.Basic

/-!
# Evaluating a chain

`Chain.evaluate` walks the links from the left with one result and two early exits. Here it is
compared with the reading the header language promises: the chain grouped from the right, with no
precedence between `and` and `or`, each connective short-circuiting from the left.

The walk stops at the first link that is the last one, is joined by `or` and holds, or is joined by
`and` and fails. Every link before it is evaluated and lets the walk pass; the links after it are
never looked at, so an error one of them would raise never surfaces.
-/

namespace Branching

/-- `a and b` or `a or b` on results that may be errors: the left side comes first and decides
alone when it can. -/
def Combinator.join : Combinator → Except Error Bool → Except Error Bool → Except Error Bool
  | _, .error e, _ => .error e
  | .and, .ok true, b => b
  | .and, .ok false, _ => .ok false
  | .or, .ok true, _ => .ok true
  | .or, .ok false, b => b

/-- Whether a link's value ends the walk, given the combinator after the link (`none` for the
last link). -/
def Combinator.stops : Option Combinator → Bool → Bool
  | none, _ => true
  | some .or, r => r
  | some .and, r => !r

namespace Chain

/-- The value of the links from `l` on grouped from the right, `l k₁ (l₁ k₂ (l₂ …))`. -/
def nestedFrom (ctx : Context) : Link → List (Combinator × Link) → Except Error Bool
  | l, [] => l.evaluate ctx
  | l, (k, next) :: rest => k.join (l.evaluate ctx) (nestedFrom ctx next rest)

/-- The value of a chain grouped from the right. -/
def nested (ctx : Context) (c : Chain) : Except Error Bool := nestedFrom ctx c.head c.rest

/-- Each link from `l` on with the combinator joining it to the next; `none` for the last. -/
def stepsFrom : Link → List (Combinator × Link) → List (Link × Option Combinator)
  | l, [] => [(l, none)]
  | l, (k, next) :: rest => (l, some k) :: stepsFrom next rest

/-- Each link of a chain with the combinator joining it to the next. -/
def steps (c : Chain) : List (Link × Option Combinator) := stepsFrom c.head c.rest

end Chain

/-- A step the walk evaluates and goes past: its link has a value that does not stop it. -/
def Passes (ctx : Context) (s : Link × Option Combinator) : Prop :=
  ∃ r, s.1.evaluate ctx = .ok r ∧ Combinator.stops s.2 r = false

/-- The walk over `steps` reaches the step `s`: every step before it passes. -/
def Reaches (ctx : Context) (steps : List (Link × Option Combinator))
    (s : Link × Option Combinator) : Prop :=
  ∃ before after, steps = before ++ s :: after ∧ ∀ p ∈ before, Passes ctx p

namespace Reaches

variable {ctx : Context} {s t : Link × Option Combinator} {steps : List (Link × Option Combinator)}

theorem head (s : Link × Option Combinator) (steps : List (Link × Option Combinator)) :
    Reaches ctx (s :: steps) s :=
  ⟨[], steps, rfl, by simp⟩

theorem cons (hs : Passes ctx s) (h : Reaches ctx steps t) : Reaches ctx (s :: steps) t := by
  obtain ⟨before, after, rfl, hpass⟩ := h
  refine ⟨s :: before, after, rfl, ?_⟩
  intro p hp
  rcases List.mem_cons.1 hp with rfl | hp
  · exact hs
  · exact hpass p hp

/-- Reaching a step of `s :: steps` is stopping at `s`, or passing `s` and reaching the step in
`steps`. -/
theorem cons_iff : Reaches ctx (s :: steps) t ↔ t = s ∨ (Passes ctx s ∧ Reaches ctx steps t) := by
  constructor
  · rintro ⟨before, after, heq, hpass⟩
    cases before with
    | nil =>
      simp only [List.nil_append, List.cons.injEq] at heq
      exact .inl heq.1.symm
    | cons p before =>
      simp only [List.cons_append, List.cons.injEq] at heq
      obtain ⟨rfl, rfl⟩ := heq
      exact .inr ⟨hpass s (by simp), before, after, rfl, fun q hq => hpass q (by simp [hq])⟩
  · rintro (rfl | ⟨hs, h⟩)
    · exact head t steps
    · exact h.cons hs

end Reaches

namespace Chain

variable {ctx : Context}

/-- The walk computes the right-nested value. -/
theorem walk_eq_nestedFrom (ctx : Context) (l : Link) (rest : List (Combinator × Link)) :
    walk ctx l rest = nestedFrom ctx l rest := by
  induction rest generalizing l with
  | nil => rfl
  | cons p rest ih =>
    obtain ⟨k, next⟩ := p
    simp only [walk, nestedFrom, ih]
    cases l.evaluate ctx with
    | error e => rfl
    | ok r => cases k <;> cases r <;> rfl

/-- Joining a link's value to the rest either stops at that link or passes it and gives the value
of the rest. -/
theorem join_cases (k : Combinator) (a b : Except Error Bool) :
    (∃ r, a = .ok r ∧ Combinator.stops (some k) r = false ∧ k.join a b = b) ∨
      ((∀ r, a = .ok r → Combinator.stops (some k) r = true) ∧ k.join a b = a) := by
  cases a with
  | error e => exact .inr ⟨by simp, by cases k <;> rfl⟩
  | ok r => cases k <;> cases r <;> simp [Combinator.stops, Combinator.join]

/-- The right-nested value is that of the first link the walk stops at, and fails exactly when the
first link that does not pass fails. -/
theorem nestedFrom_eq_iff (l : Link) (rest : List (Combinator × Link))
    (v : Except Error Bool) :
    nestedFrom ctx l rest = v ↔ ∃ s, Reaches ctx (stepsFrom l rest) s ∧ s.1.evaluate ctx = v ∧
      ∀ r, v = .ok r → Combinator.stops s.2 r = true := by
  induction rest generalizing l with
  | nil =>
    simp only [nestedFrom, stepsFrom, Reaches.cons_iff]
    constructor
    · rintro rfl
      exact ⟨(l, none), .inl rfl, rfl, fun _ _ => rfl⟩
    · rintro ⟨s, hs | ⟨-, ⟨before, after, heq, -⟩⟩, hv, -⟩
      · subst hs
        exact hv
      · simp at heq
  | cons p rest ih =>
    obtain ⟨k, next⟩ := p
    simp only [nestedFrom, stepsFrom, Reaches.cons_iff]
    rcases join_cases k (l.evaluate ctx) (nestedFrom ctx next rest) with
      ⟨r, hr, hgo, hj⟩ | ⟨hstop, hj⟩
    · -- the walk passes `l` and goes on with the rest
      have hpass : Passes ctx (l, some k) := ⟨r, hr, hgo⟩
      rw [hj, ih]
      constructor
      · rintro ⟨s, hs, hv, hst⟩
        exact ⟨s, .inr ⟨hpass, hs⟩, hv, hst⟩
      · rintro ⟨s, hs | ⟨-, hs⟩, hv, hst⟩
        · -- stopping at `l` would need a value of `l` that stops the walk
          subst hs
          have hst' := hst r (by rw [← hv, hr])
          rw [hgo] at hst'
          cases hst'
        · exact ⟨s, hs, hv, hst⟩
    · -- the walk stops at `l`
      rw [hj]
      constructor
      · rintro rfl
        exact ⟨(l, some k), .inl rfl, rfl, hstop⟩
      · rintro ⟨s, hs | ⟨⟨r, hr, hgo⟩, -⟩, hv, -⟩
        · subst hs
          exact hv
        · rw [hstop r hr] at hgo
          cases hgo

/-- The walk over a chain is the chain grouped from the right; its value is that of the first link
the walk stops at, and an error surfaces exactly when it is raised by a link the walk reaches. -/
theorem evaluate_groups_from_right (ctx : Context) (c : Chain) :
    c.evaluate ctx = c.nested ctx ∧
      (∀ r, c.evaluate ctx = .ok r ↔
        ∃ s, Reaches ctx c.steps s ∧ s.1.evaluate ctx = .ok r ∧ Combinator.stops s.2 r = true) ∧
      (∀ e, c.evaluate ctx = .error e ↔
        ∃ s, Reaches ctx c.steps s ∧ s.1.evaluate ctx = .error e) := by
  have hnest : c.evaluate ctx = c.nested ctx := walk_eq_nestedFrom ctx c.head c.rest
  refine ⟨hnest, fun r => ?_, fun e => ?_⟩
  · rw [hnest, nested, nestedFrom_eq_iff]
    constructor
    · rintro ⟨s, hs, hv, hst⟩
      exact ⟨s, hs, hv, hst r rfl⟩
    · rintro ⟨s, hs, hv, hst⟩
      exact ⟨s, hs, hv, fun r' h => by cases h; exact hst⟩
  · rw [hnest, nested, nestedFrom_eq_iff]
    constructor
    · rintro ⟨s, hs, hv, -⟩
      exact ⟨s, hs, hv⟩
    · rintro ⟨s, hs, hv⟩
      exact ⟨s, hs, hv, fun r h => by cases h⟩

end Chain

end Branching
