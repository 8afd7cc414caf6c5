import Branching.Template.Token
import Branching.Template.Conditional
import Branching.Operand.Parser
import Branching.Config

/-!
# Reading templates

A template is read from its tokens into a body: text becomes a text node,
output markup an output node (its operand read by `Operand.parse`), and a tag
is split into a name (word characters) and its markup (the rest, trimmed). The
tag `if` starts a conditional, which takes the following bodies up to its
`endif`, with `elsif` and `else` starting new branches; these three tags end the
body being read, and at the top level they are errors. Any other tag name is
an error, as is a tag that does not start with a word character.

Conditionals may nest as deep as the configuration allows. A header error, or
an error of a branch step, carries the line of its tag; an unclosed
conditional and one nested too deep are reported at the line of their `if`.

Every function here gives the notices it raised (in order) together with its
outcome, so that notices raised before an error are not lost. The three readers
call one another on the same tokens or on fewer, ranked body below branches below
conditional; the measure counts tokens three times over and adds the rank, so the
readers run on concrete templates when a proof evaluates them.
-/

namespace Branching

/-- A tag split into its name and markup, with its line. -/
structure TagHeader where
  name : String
  markup : String
  line : Nat

/-- The header of a tag token, if it starts with a word character. -/
def TagHeader.ofPiece? (p : Piece) : Option TagHeader :=
  let cs := p.value.toList
  let name := cs.takeWhile Text.isWordChar
  if name.isEmpty then none
  else some ⟨String.ofList name, String.ofList (Text.strip (cs.drop name.length)), p.line⟩

namespace Reading

/-- Pieces left after a step, fewer than `ts`. -/
abbrev Fewer (ts : List Piece) := { r : List Piece // r.length < ts.length }

/-- Pieces left after a step, no more than `ts`. -/
abbrev NoMore (ts : List Piece) := { r : List Piece // r.length ≤ ts.length }

/-- Whether a tag name ends a body. -/
def endsBody (name : String) : Bool := name = "elsif" ∨ name = "else" ∨ name = "endif"

mutual

/-- Reads nodes until a tag that ends a body, or the end; gives the nodes and
that tag with the pieces after it. -/
def body (cfg : Config) (depth : Nat) (ts : List Piece) :
    List Notice × Except SyntaxError (List Node × Option (TagHeader × Fewer ts)) :=
  match ts with
  | [] => ([], .ok ([], none))
  | p :: rest =>
    let more (n : Node) : List Notice × Except SyntaxError (List Node × Option (TagHeader × Fewer (p :: rest))) :=
      let (notices, r) := body cfg depth rest
      (notices, r.map fun (nodes, stop) =>
        (n :: nodes, stop.map fun (h, r) => (h, ⟨r.1, by have := r.2; simp; omega⟩)))
    match p.kind with
    | .eof => ([], .ok ([], none))
    | .text => more (.text p.value)
    | .output =>
      match Operand.parse p.value with
      | .error f => ([], .error { fault := f, markup := some p.value, line := some p.line })
      | .ok o => more (.output o)
    | .tag =>
      match TagHeader.ofPiece? p with
      | none => ([], .error { fault := .malformedTag, markup := some p.value, line := some p.line })
      | some h =>
        if h.name = "if" then
          let (n₁, r₁) := conditional cfg (depth + 1) h rest
          match r₁ with
          | .error e => (n₁, .error e)
          | .ok (c, r) =>
            have := r.2
            let (n₂, r₂) := body cfg depth r.1
            (n₁ ++ n₂, r₂.map fun (nodes, stop) =>
              (.conditional c :: nodes, stop.map fun (h', r') => (h', ⟨r'.1, by
                have := r'.2; simp; omega⟩)))
        else if endsBody h.name then ([], .ok ([], some (h, ⟨rest, by simp⟩)))
        else ([], .error { fault := .unknownTag h.name, markup := some p.value, line := some p.line })
termination_by 3 * ts.length
decreasing_by
  all_goals
    try rw [List.length_cons]
    omega

/-- Reads a conditional after its `if` tag `h`, at nesting depth `depth`. -/
def conditional (cfg : Config) (depth : Nat) (h : TagHeader) (ts : List Piece) :
    List Notice × Except SyntaxError (Conditional Node × NoMore ts) :=
  if cfg.maxNestingDepth < depth then
    ([], .error { fault := .nestingTooDeep cfg.maxNestingDepth, markup := some h.markup,
                  line := some h.line })
  else
    let (n₁, r₁) := Conditional.start cfg.errorMode cfg.maxChainLength h.markup
    match r₁ with
    | .error e => (n₁, .error (e.withLine h.line))
    | .ok c =>
      let (n₂, r₂) := arms cfg depth h c ts
      (n₁ ++ n₂, r₂)
termination_by 3 * ts.length + 2
decreasing_by
  all_goals
    try rw [List.length_cons]
    omega

/-- Reads the branches of the conditional `c` opened by `h` up to its `endif`. -/
def arms (cfg : Config) (depth : Nat) (h : TagHeader) (c : Conditional Node) (ts : List Piece) :
    List Notice × Except SyntaxError (Conditional Node × NoMore ts) :=
  let (n₁, r₁) := body cfg depth ts
  match r₁ with
  | .error e => (n₁, .error e)
  | .ok (_, none) =>
    (n₁, .error { fault := .neverClosed, markup := some h.markup, line := some h.line })
  | .ok (nodes, some (stop, r)) =>
    have := r.2
    let c := c.appendAll nodes
    let again (next : List Notice × Except SyntaxError (Conditional Node)) :
        List Notice × Except SyntaxError (Conditional Node × NoMore ts) :=
      match next.2 with
      | .error e => (n₁ ++ next.1, .error (e.withLine stop.line))
      | .ok c' =>
        let (n₃, r₃) := arms cfg depth h c' r.1
        (n₁ ++ next.1 ++ n₃, r₃.map fun (c'', r') => (c'', ⟨r'.1, by have := r'.2; omega⟩))
    if stop.name = "endif" then
      match c.close with
      | .error e => (n₁, .error (e.withLine stop.line))
      | .ok c' => (n₁, .ok (c', ⟨r.1, by omega⟩))
    else if stop.name = "elsif" then
      again (c.pushElsif cfg.errorMode cfg.maxChainLength stop.markup)
    else
      again (c.pushElse cfg.errorMode stop.markup)
termination_by 3 * ts.length + 1
decreasing_by
  all_goals
    try rw [List.length_cons]
    omega

end

end Reading

end Branching
