import Branching.Condition.Basic

/-!
# Template trees

A template body is a list of nodes: text, the output of an operand, or a
conditional. A conditional has the `if` branch (a guard and a body), any number
of `elsif` branches, an optional `else` body, and whether its `endif` has been
read.

A node is blank when it can print nothing but white space: text of white space
only, or a conditional all of whose bodies are blank. Output is never blank.

Rendering a conditional evaluates the guards in order and renders the body of
the first branch whose guard holds, or the `else` body when none does; guards
after the chosen branch are not evaluated.
-/

namespace Branching

/-- An `if` construct over bodies of `α`. -/
structure Conditional (α : Type) where
  /-- The header of the `if` branch. -/
  guard : Chain
  /-- The body of the `if` branch. -/
  body : List α := []
  /-- The `elsif` branches, in order. -/
  alternatives : List (Chain × List α) := []
  /-- The body of the `else` branch, if there is one. -/
  otherwise : Option (List α) := none
  /-- Whether the construct has been closed. -/
  closed : Bool := false

/-- A node of a template body. -/
inductive Node where
  | text (s : String)
  | output (o : Operand)
  | conditional (c : Conditional Node)

mutual

/-- Whether a node can print nothing but white space. -/
def Node.blank : Node → Bool
  | .text s => Text.isAllSpace s.toList
  | .output _ => false
  | .conditional ⟨_, body, alternatives, otherwise, _⟩ =>
    Node.allBlank body && Node.armsBlank alternatives && Node.elseBlank otherwise

/-- Whether every node of a body is blank. -/
def Node.allBlank : List Node → Bool
  | [] => true
  | n :: ns => n.blank && Node.allBlank ns

/-- Whether every `elsif` body is blank. -/
def Node.armsBlank : List (Chain × List Node) → Bool
  | [] => true
  | (_, body) :: rest => Node.allBlank body && Node.armsBlank rest

/-- Whether an `else` body, if any, is blank. -/
def Node.elseBlank : Option (List Node) → Bool
  | none => true
  | some body => Node.allBlank body

end

mutual

/-- What a node prints in a context. -/
def Node.render (ctx : Context) : Node → Except Error String
  | .text s => .ok s
  | .output o => (o.resolve ctx).bind Value.tryRender
  | .conditional ⟨guard, body, alternatives, otherwise, _⟩ =>
    match guard.evaluate ctx with
    | .error e => .error e
    | .ok true => Node.renderAll ctx body
    | .ok false =>
      match Node.renderArms ctx alternatives with
      | .error e => .error e
      | .ok (some s) => .ok s
      | .ok none => Node.renderElse ctx otherwise

/-- What a body prints: its nodes one after another. -/
def Node.renderAll (ctx : Context) : List Node → Except Error String
  | [] => .ok ""
  | n :: ns =>
    match n.render ctx with
    | .error e => .error e
    | .ok s =>
      match Node.renderAll ctx ns with
      | .error e => .error e
      | .ok t => .ok (s ++ t)

/-- What the first holding `elsif` branch prints; `none` when no guard holds. -/
def Node.renderArms (ctx : Context) : List (Chain × List Node) → Except Error (Option String)
  | [] => .ok none
  | (guard, body) :: rest =>
    match guard.evaluate ctx with
    | .error e => .error e
    | .ok true => (Node.renderAll ctx body).map some
    | .ok false => Node.renderArms ctx rest

/-- What the `else` body prints, if there is one. -/
def Node.renderElse (ctx : Context) : Option (List Node) → Except Error String
  | none => .ok ""
  | some body => Node.renderAll ctx body

end

end Branching
