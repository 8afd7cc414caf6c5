import Branching.Error

/-!
# Render contexts

A render context is a stack of scopes, each a mapping of variable names to
values, over a root scope that is always there, together with the
strict-variables switch. A name is looked up from the innermost scope outwards;
a name that no scope binds resolves to nil, or is an error when strict
variables are on.

The root scope is a field of its own, so the stack is never empty; popping
when only the root is left is an error and leaves the context as it was.
-/

namespace Branching

/-- The entries of a scope: names (texts) to values, in insertion order. -/
abbrev Bindings := List (Value × Value)

/-- Whether a scope binds a name. -/
def Bindings.binds (b : Bindings) (name : String) : Bool :=
  b.any fun e => Value.equals e.1 (.str name)

/-- The value a scope binds a name to. -/
def Bindings.get? (b : Bindings) (name : String) : Option Value :=
  Value.lookup? b (.str name)

/-- A stack of scopes for one render. -/
structure Context where
  /-- The outermost scope. -/
  root : Bindings
  /-- The scopes pushed over the root, innermost first. -/
  inner : List Bindings := []
  /-- Whether names no scope binds are errors. -/
  strictVariables : Bool := false

namespace Context

/-- The number of scopes, the root included. -/
def depth (c : Context) : Nat := c.inner.length + 1

/-- All scopes, innermost first. -/
def scopes (c : Context) : List Bindings := c.inner ++ [c.root]

/-- Pushes a new innermost scope. -/
def push (c : Context) (b : Bindings := []) : Context := { c with inner := b :: c.inner }

/-- Removes and returns the innermost scope; the root cannot be removed. -/
def pop (c : Context) : Except Error (Bindings × Context) :=
  match c.inner with
  | [] => .error .rootScope
  | b :: rest => .ok (b, { c with inner := rest })

/-- Binds a name in the innermost scope. -/
def set (c : Context) (name : String) (v : Value) : Context :=
  match c.inner with
  | [] => { c with root := Value.insertEntry c.root (.str name) v }
  | b :: rest => { c with inner := Value.insertEntry b (.str name) v :: rest }

/-- Whether some scope binds a name. -/
def contains (c : Context) (name : String) : Bool := c.scopes.any fun b => b.binds name

/-- The value of a name in the innermost scope that binds it. -/
def find? (c : Context) (name : String) : Option Value := c.scopes.findSome? fun b => b.get? name

/-- The outcome of a failed lookup of `path`: nil, or an error under strict
variables. -/
def missing (c : Context) (path : String) : Except Error Value :=
  if c.strictVariables then .error (.undefined path) else .ok .nil

/-- Looks up a variable; `path` is what an error names. -/
def findVariable (c : Context) (name path : String) : Except Error Value :=
  match c.find? name with
  | some v => .ok v
  | none => c.missing path

end Context

end Branching
