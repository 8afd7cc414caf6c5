import Branching.Template.Conditional

/-!
# Choosing the branch a conditional renders

A conditional renders the body of its first branch whose guard holds; the `else` branch has no
guard and is taken whenever the walk reaches it. The guards are evaluated in order and the walk
stops at the branch it takes, so no guard after it is evaluated and no other body is rendered.
When every guard fails, the conditional renders nothing.

`Node.render` walks the `if` branch itself, the `elsif` branches through `Node.renderArms` and
then the `else` body. Here that walk is shown to be one walk over the flat list of branches
(`Node.renderFirst`), and that walk is described by the branch it stops at: every branch before
it is tested and fails, and the result is what that branch gives, its guard's error or its body.

## Main statements

- `Node.render_conditional`: a conditional renders as the walk over its branches.
- `Node.renderFirst_eq_iff`: what the walk gives, by the branch it stops at.
- `Node.render_selects_first_holding`: a conditional renders the body of the first branch it
  takes, or nothing when every guard fails, and raises only the error of a guard it evaluates or
  of the body it chose.
-/

namespace Branching

/-- Renders the body of the first branch whose guard holds, testing the guards in order and
taking a branch without guard at once; nothing when every guard fails. -/
def Node.renderFirst (ctx : Context) : List (Option Chain × List Node) → Except Error String
  | [] => .ok ""
  | (none, body) :: _ => Node.renderAll ctx body
  | (some guard, body) :: rest =>
    match guard.evaluate ctx with
    | .error e => .error e
    | .ok true => Node.renderAll ctx body
    | .ok false => Node.renderFirst ctx rest

namespace Conditional

/-- The branch is tested and fails: it has a guard, and the guard evaluates to false. -/
def Declines (ctx : Context) (a : Option Chain × List Node) : Prop :=
  ∃ g, a.1 = some g ∧ g.evaluate ctx = .ok false

/-- The branch is taken when the walk reaches it: it has no guard, or its guard holds. -/
def Takes (ctx : Context) (a : Option Chain × List Node) : Prop :=
  a.1 = none ∨ ∃ g, a.1 = some g ∧ g.evaluate ctx = .ok true

/-- Testing the branch raises `e`: its guard evaluates to that error. -/
def Raises (ctx : Context) (a : Option Chain × List Node) (e : Error) : Prop :=
  ∃ g, a.1 = some g ∧ g.evaluate ctx = .error e

/-- The walk over `arms` reaches the branch `a`: every branch before it is tested and fails. -/
def Reached (ctx : Context) (arms : List (Option Chain × List Node))
    (a : Option Chain × List Node) : Prop :=
  ∃ before after, arms = before ++ a :: after ∧ ∀ b ∈ before, Declines ctx b

variable {ctx : Context} {a b : Option Chain × List Node} {arms : List (Option Chain × List Node)}

theorem not_raises_none (body : List Node) (e : Error) : ¬ Raises ctx (none, body) e := by
  rintro ⟨g, hg, -⟩
  cases hg

/-- A branch with a guard declines, is taken or raises, as its guard evaluates. -/
theorem declines_some {g : Chain} {body : List Node} :
    Declines ctx (some g, body) ↔ g.evaluate ctx = .ok false := by
  simp [Declines]

theorem takes_some {g : Chain} {body : List Node} :
    Takes ctx (some g, body) ↔ g.evaluate ctx = .ok true := by
  simp [Takes]

theorem raises_some {g : Chain} {body : List Node} {e : Error} :
    Raises ctx (some g, body) e ↔ g.evaluate ctx = .error e := by
  simp [Raises]

/-- A branch that is tested and fails is neither taken nor raises. -/
theorem Declines.not_takes (h : Declines ctx a) : ¬ Takes ctx a := by
  obtain ⟨g, hg, hfalse⟩ := h
  rintro (hnone | ⟨g', hg', htrue⟩)
  · rw [hg] at hnone
    cases hnone
  · rw [hg, Option.some.injEq] at hg'
    rw [← hg', hfalse] at htrue
    cases htrue

theorem Declines.not_raises (h : Declines ctx a) (e : Error) : ¬ Raises ctx a e := by
  obtain ⟨g, hg, hfalse⟩ := h
  rintro ⟨g', hg', herr⟩
  rw [hg, Option.some.injEq] at hg'
  rw [← hg', hfalse] at herr
  cases herr

namespace Reached

/-- Reaching a branch of `b :: arms` is stopping at `b`, or passing it and reaching the branch in
`arms`. -/
theorem cons_iff : Reached ctx (b :: arms) a ↔ a = b ∨ (Declines ctx b ∧ Reached ctx arms a) := by
  constructor
  · rintro ⟨before, after, heq, hdecl⟩
    cases before with
    | nil =>
      simp only [List.nil_append, List.cons.injEq] at heq
      exact .inl heq.1.symm
    | cons p before =>
      simp only [List.cons_append, List.cons.injEq] at heq
      obtain ⟨rfl, rfl⟩ := heq
      exact .inr ⟨hdecl b (by simp), before, after, rfl, fun q hq => hdecl q (by simp [hq])⟩
  · rintro (rfl | ⟨hb, before, after, rfl, hdecl⟩)
    · exact ⟨[], arms, rfl, by simp⟩
    · refine ⟨b :: before, after, rfl, fun q hq => ?_⟩
      rcases List.mem_cons.1 hq with rfl | hq
      · exact hb
      · exact hdecl q hq

theorem not_nil : ¬ Reached ctx [] a := by
  rintro ⟨before, after, heq, -⟩
  cases before <;> simp at heq

theorem mem (h : Reached ctx arms a) : a ∈ arms := by
  obtain ⟨before, after, rfl, -⟩ := h
  simp

end Reached

end Conditional

namespace Node

open Conditional

variable {ctx : Context}

/-- Walking the `elsif` branches and then the rest is the walk over both: it stops at the first
`elsif` branch whose guard holds, and goes on with the rest when none does. -/
theorem renderFirst_elsif (alternatives : List (Chain × List Node))
    (rest : List (Option Chain × List Node)) :
    renderFirst ctx (alternatives.map (fun p => (some p.1, p.2)) ++ rest) =
      match renderArms ctx alternatives with
      | .error e => .error e
      | .ok (some s) => .ok s
      | .ok none => renderFirst ctx rest := by
  induction alternatives with
  | nil => simp [renderArms]
  | cons p alternatives ih =>
    obtain ⟨guard, body⟩ := p
    simp only [List.map_cons, List.cons_append, renderFirst, renderArms]
    cases guard.evaluate ctx with
    | error e => rfl
    | ok held =>
      cases held with
      | true => cases renderAll ctx body <;> rfl
      | false => exact ih

theorem renderFirst_else (otherwise : Option (List Node)) :
    renderFirst ctx (otherwise.map fun b => (none, b)).toList = renderElse ctx otherwise := by
  cases otherwise <;> rfl

/-- A conditional renders as the walk over its branches in order: the `if` branch, the `elsif`
branches, the `else` branch. -/
theorem render_conditional (c : Conditional Node) :
    (Node.conditional c).render ctx = renderFirst ctx c.arms := by
  obtain ⟨guard, body, alternatives, otherwise, closed⟩ := c
  rw [render, arms, List.cons_append, renderFirst, renderFirst_elsif]
  -- both walks test the `if` guard, then the `elsif` guards, then take the `else` body
  cases guard.evaluate ctx with
  | error e => rfl
  | ok held =>
    cases held with
    | true => rfl
    | false =>
      cases renderArms ctx alternatives with
      | error e => rfl
      | ok r =>
        cases r with
        | some s => rfl
        | none => exact (renderFirst_else otherwise).symm

/-- The walk passes a branch that is tested and fails. -/
theorem renderFirst_cons_declines {b : Option Chain × List Node}
    {arms : List (Option Chain × List Node)} (hb : Declines ctx b) :
    renderFirst ctx (b :: arms) = renderFirst ctx arms := by
  obtain ⟨g, hg, hfalse⟩ := hb
  obtain ⟨guard, body⟩ := b
  cases hg
  simp only [renderFirst, hfalse]

/-- The walk stops at any other branch: it gives that branch's body when the branch is taken,
and its guard's error when the guard raises. -/
theorem renderFirst_cons_stop {b : Option Chain × List Node}
    {arms : List (Option Chain × List Node)} (hb : ¬ Declines ctx b) (v : Except Error String) :
    renderFirst ctx (b :: arms) = v ↔
      (Takes ctx b ∧ renderAll ctx b.2 = v) ∨ ∃ e, Raises ctx b e ∧ v = .error e := by
  obtain ⟨guard, body⟩ := b
  cases guard with
  | none => simp [renderFirst, Takes, not_raises_none]
  | some g =>
    rw [declines_some] at hb
    simp only [renderFirst, takes_some, raises_some]
    cases hg : g.evaluate ctx with
    | error e' => simp [eq_comm]
    | ok held =>
      cases held with
      | true => simp
      | false => exact absurd hg hb

/-- What the walk over branches gives: the value of the branch it stops at, which it reaches by
failing every guard before it, and which is taken (its body's rendering) or raises (its guard's
error); or nothing, when every branch is tested and fails. -/
theorem renderFirst_eq_iff (arms : List (Option Chain × List Node)) (v : Except Error String) :
    renderFirst ctx arms = v ↔
      (∃ a, Reached ctx arms a ∧
        ((Takes ctx a ∧ renderAll ctx a.2 = v) ∨ ∃ e, Raises ctx a e ∧ v = .error e)) ∨
      ((∀ a ∈ arms, Declines ctx a) ∧ v = .ok "") := by
  induction arms with
  | nil =>
    simp only [renderFirst]
    constructor
    · rintro rfl
      exact .inr ⟨fun a ha => by simp at ha, rfl⟩
    · rintro (⟨a, hr, -⟩ | ⟨-, rfl⟩)
      · exact absurd hr Reached.not_nil
      · rfl
  | cons b arms ih =>
    simp only [Reached.cons_iff, List.forall_mem_cons]
    by_cases hb : Declines ctx b
    · -- the walk passes `b`, which is neither taken nor raises, and goes on with the rest
      rw [renderFirst_cons_declines hb, ih]
      simp [hb, hb.not_takes, hb.not_raises, or_and_right, exists_or]
    · -- the walk stops at `b`
      rw [renderFirst_cons_stop hb]
      simp [hb]

/-- A conditional renders the body of the first branch it takes: every branch before it has a
guard that evaluates to false, and that branch has no guard or a guard that holds. The branches
after it play no part. When every guard fails it renders nothing. It raises an error only when a
guard it reaches raises it, or when the body of the branch it takes does. -/
theorem render_selects_first_holding (ctx : Context) (c : Conditional Node) :
    (∀ s, (Node.conditional c).render ctx = .ok s ↔
      (∃ a, Reached ctx c.arms a ∧ Takes ctx a ∧ renderAll ctx a.2 = .ok s) ∨
        ((∀ a ∈ c.arms, Declines ctx a) ∧ s = "")) ∧
    (∀ e, (Node.conditional c).render ctx = .error e ↔
      ∃ a, Reached ctx c.arms a ∧
        (Raises ctx a e ∨ (Takes ctx a ∧ renderAll ctx a.2 = .error e))) := by
  refine ⟨fun s => ?_, fun e => ?_⟩
  · rw [render_conditional, renderFirst_eq_iff]
    -- a guard's error is never a text
    simp only [reduceCtorEq, and_false, exists_false, or_false, Except.ok.injEq]
  · rw [render_conditional, renderFirst_eq_iff]
    simp only [reduceCtorEq, and_false, or_false, Except.error.injEq]
    constructor
    · rintro ⟨a, hr, ⟨ht, hv⟩ | ⟨e', he, rfl⟩⟩
      · exact ⟨a, hr, .inr ⟨ht, hv⟩⟩
      · exact ⟨a, hr, .inl he⟩
    · rintro ⟨a, hr, he | ⟨ht, hv⟩⟩
      · exact ⟨a, hr, .inr ⟨e, he, rfl⟩⟩
      · exact ⟨a, hr, .inl ⟨ht, hv⟩⟩

end Node

end Branching
