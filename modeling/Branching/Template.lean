import Branching.Template.Parser

/-!
# Templates

A template is read once and rendered any number of times. Reading keeps the
strict errors of the headers that warn mode read leniently, in source order;
rendering takes the variables for the root scope and, unless told otherwise,
the configuration's strict-variables switch.
-/

namespace Branching

/-- A template ready to render. -/
structure Template where
  body : List Node
  config : Config
  /-- The strict errors of headers read leniently in warn mode. -/
  warnings : List SyntaxError

namespace Template

/-- Reads a template; gives the notices raised and the template or the error. -/
def parse (source : String) (config : Config := {}) : List Notice × Except SyntaxError Template :=
  match Piece.scan source with
  | .error e => ([], .error e)
  | .ok pieces =>
    let (notices, r) := Reading.body config 0 pieces
    match r with
    | .error e => (notices, .error e)
    | .ok (_, some (stop, _)) =>
      (notices, .error { fault := .outsideIf stop.name, line := some stop.line })
    | .ok (nodes, none) =>
      (notices, .ok ⟨nodes, config, Notice.fallbacks notices⟩)

/-- Renders a template with `vars` in the root scope. -/
def render (t : Template) (vars : Bindings) (strictVariables : Option Bool := none) :
    Except Error String :=
  Node.renderAll { root := vars, strictVariables := strictVariables.getD t.config.strictVariables } t.body

end Template

end Branching
