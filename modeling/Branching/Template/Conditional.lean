import Branching.Template.Node
import Branching.Condition.Mode

/-!
# Building conditionals

A conditional is built step by step while its template is read: it starts with
the `if` header; `elsif` adds a guarded branch and `else` the unconditional
one; `endif` closes it. Nodes go into the body of the last branch.

The steps refuse what the construct does not allow: an `elsif` or a second
`else` after `else`, any step after the close, and (in strict mode) arguments
after `else`; in the other modes such arguments are reported and ignored. A
step that fails leaves the conditional as it was.

When a conditional is closed and all its bodies are blank, the text nodes of
white space are removed from each body, so a construct made only of logic
prints nothing.
-/

namespace Branching

/-- How far a conditional has been built. -/
inductive ChainState where
  | awaitingBranch
  | otherwise
  | closed
  deriving DecidableEq

/-- The name of a construction state. -/
def ChainState.name : ChainState → String
  | .awaitingBranch => "awaiting_branch"
  | .otherwise => "else"
  | .closed => "closed"

namespace Conditional

variable {α : Type}

/-- The construction state: closed, after `else`, or waiting for a branch. -/
def state (c : Conditional α) : ChainState :=
  if c.closed then .closed else if c.otherwise.isSome then .otherwise else .awaitingBranch

/-- All branches in order: guard (none for `else`) and body. -/
def arms (c : Conditional α) : List (Option Chain × List α) :=
  (some c.guard, c.body) :: c.alternatives.map (fun p => (some p.1, p.2)) ++
    (c.otherwise.map fun b => (none, b)).toList

/-- Appends nodes to the body of the last branch. -/
def appendAll (c : Conditional α) (ns : List α) : Conditional α :=
  match c.otherwise with
  | some b => { c with otherwise := some (b ++ ns) }
  | none =>
    match c.alternatives.reverse with
    | (g, b) :: earlier => { c with alternatives := ((g, b ++ ns) :: earlier).reverse }
    | [] => { c with body := c.body ++ ns }

/-- A syntax error with the given markup. -/
def refuse (f : SyntaxFault) (markup : Option String := none) : SyntaxError :=
  { fault := f, markup := markup }

/-- Starts a conditional from its `if` header. -/
def start (mode : Mode) (limit : Int) (markup : String) :
    List Notice × Except SyntaxError (Conditional α) :=
  let (notices, r) := mode.read limit markup
  (notices, r.map fun g => { guard := g })

/-- Adds an `elsif` branch. -/
def pushElsif (mode : Mode) (limit : Int) (c : Conditional α) (markup : String) :
    List Notice × Except SyntaxError (Conditional α) :=
  match c.state with
  | .otherwise => ([], .error (refuse .elsifAfterElse (some markup)))
  | .closed => ([], .error (refuse (.afterClose "elsif")))
  | .awaitingBranch =>
    let (notices, r) := mode.read limit markup
    (notices, r.map fun g => { c with alternatives := c.alternatives ++ [(g, [])] })

/-- Adds the `else` branch; `markup` is what follows `else` in its tag. -/
def pushElse (mode : Mode) (c : Conditional α) (markup : String) :
    List Notice × Except SyntaxError (Conditional α) :=
  match c.state with
  | .otherwise => ([], .error (refuse .duplicateElse (if markup.isEmpty then none else some markup)))
  | .closed => ([], .error (refuse (.afterClose "else")))
  | .awaitingBranch =>
    let arguments := Text.strip markup.toList
    if arguments.isEmpty then ([], .ok { c with otherwise := some [] })
    else if mode = .strict then ([], .error (refuse .elseWithArguments (some markup)))
    else ([.elseIgnored (String.ofList arguments)], .ok { c with otherwise := some [] })

end Conditional

/-- Removes the text nodes of white space from a body. -/
def Node.dropBlankText (ns : List Node) : List Node :=
  ns.filter fun
    | .text s => !Text.isAllSpace s.toList
    | _ => true

/-- Whether all bodies of a conditional are blank. -/
def Conditional.blank (c : Conditional Node) : Bool := (Node.conditional c).blank

/-- Closes a conditional. -/
def Conditional.close (c : Conditional Node) : Except SyntaxError (Conditional Node) :=
  if c.closed then .error (Conditional.refuse (.afterClose "endif"))
  else if c.blank then
    .ok { c with
      closed := true
      body := Node.dropBlankText c.body
      alternatives := c.alternatives.map fun p => (p.1, Node.dropBlankText p.2)
      otherwise := c.otherwise.map Node.dropBlankText }
  else .ok { c with closed := true }

end Branching
