import Branching.Proofs.TemplateGrammar
import Branching.Proofs.TemplateTiling
import Branching.Proofs.HeaderTiling
import Branching.Proofs.StrictParser
import Branching.Proofs.LenientText

/-!
# Where a template error points

Every error reading a template raises names a line, and it is the line on which the token at
fault starts: the opener of markup that is never closed, the output whose operand does not read,
the tag that is malformed, unknown or out of place, the `if` or `elsif` whose header does not read,
the tag of a branch step the conditional refuses, and the `if` of a conditional nested too deep or
never closed.

The readers of headers name no line (`SyntaxError.OfHeader`): the template reader gives an error of
a header or of a branch step the line of its tag, and passes every other error on as it came, so a
line set inside a conditional is the one reported.

Which token is at fault is told by a grammar of failures that follows the reader
(`Reading.BodyFault`, `Reading.ArmsFault`, `Reading.Fault`): everything before the token at fault
reads (texts, outputs, whole conditionals), and a conditional's branch step is judged on the
conditional that the steps before it built. The failures it derives are exactly the errors the
reader raises (`Template.parse_eq_error_iff`), and each names the line of its token.

## Main definitions

- `SyntaxError.OfHeader`: an error that names a header and no line.
- `Reading.branchStep`: the step of a conditional that a tag ending a body asks for.
- `Reading.BodyFault`, `Reading.ArmsFault`, `Reading.Fault`: the reader failing, with the token at
  fault.

## Main statements

- `Mode.read_error`: a header read in any mode fails naming the header and no line.
- `Reading.body_fault`, `Reading.BodyFault.outcome`: the body reader fails exactly at a fault.
- `Reading.Fault.culprit`: the token at fault is one of the template's, and the error names its
  line.
- `Template.parse_eq_error_iff`, `Template.fault_determined`: once the text scans, the template
  fails exactly at a fault, and the fault fixes the error and its line.
- `Template.parse_error_line`: every error of `Template.parse` names the line on which the token at
  fault starts.
-/

namespace Branching

namespace SyntaxError

/-- `e` refuses the header `markup`: it names that markup and no line, the line being the
template's to give. -/
def OfHeader (markup : String) (e : SyntaxError) : Prop := e.markup = some markup ∧ e.line = none

end SyntaxError

/-! ### Header readers name no line -/

namespace Strict

variable {markup : String} {e : SyntaxError}

theorem fail_error {α : Type} {f : SyntaxFault} (h : (fail markup f : Except SyntaxError α) = .error e) :
    e.OfHeader markup := by
  cases h
  exact ⟨rfl, rfl⟩

theorem expect_error {k : TokenKind} {ts : List Token} (h : expect markup k ts = .error e) :
    e.OfHeader markup := by
  unfold expect at h
  split at h
  · split at h
    · cases h
    · exact fail_error h
  · exact fail_error h

mutual

theorem skipOperand_error {ts : List Token} (h : skipOperand markup ts = .error e) : e.OfHeader markup := by
  cases ts with
  | nil =>
    rw [skipOperand.eq_1] at h
    exact fail_error h
  | cons t rest =>
    rw [skipOperand.eq_2] at h
    split at h
    · exact fail_error h
    -- each failure below is a refusal of this header or the failure of a part, passed on
    split at h
    · split at h
      · cases h
        exact skipLookups_error ‹_›
      · cases h
    · split at h
      · cases h
        exact skipOperand_error ‹_›
      split at h
      · cases h
        exact expect_error ‹_›
      split at h
      · cases h
        exact skipLookups_error ‹_›
      · cases h
    · cases h
    · cases h
    · split at h
      · cases h
        exact skipOperand_error ‹_›
      split at h
      · cases h
        exact expect_error ‹_›
      split at h
      · cases h
        exact skipOperand_error ‹_›
      split at h
      · cases h
        exact expect_error ‹_›
      · cases h
    · exact fail_error h
    · exact fail_error h
termination_by ts.length
decreasing_by
  all_goals
    subst_vars
    simp only [List.length_cons]
    omega

theorem skipLookups_error {prev : Token} {ts : List Token} (h : skipLookups markup prev ts = .error e) :
    e.OfHeader markup := by
  cases ts with
  | nil =>
    rw [skipLookups.eq_1] at h
    cases h
  | cons t rest =>
    rw [skipLookups.eq_2] at h
    split at h
    · split at h
      · cases h
        exact skipOperand_error ‹_›
      split at h
      · cases h
        exact expect_error ‹_›
      split at h
      · cases h
        exact skipLookups_error ‹_›
      · cases h
    · split at h
      · cases h
        exact expect_error ‹_›
      split at h
      · cases h
        exact skipLookups_error ‹_›
      · cases h
    · cases h
termination_by ts.length
decreasing_by
  all_goals
    subst_vars
    simp only [List.length_cons]
    omega

end

theorem operand_error {ts : List Token} (h : operand markup ts = .error e) : e.OfHeader markup := by
  unfold operand at h
  split at h
  · cases h
    exact skipOperand_error ‹_›
  · dsimp only at h
    split at h
    · exact fail_error h
    · cases h

theorem comparison_error {ts : List Token} (h : comparison markup ts = .error e) : e.OfHeader markup := by
  unfold comparison at h
  split at h
  · cases h
    exact operand_error ‹_›
  · split at h
    · split at h
      · split at h
        · cases h
          exact operand_error ‹_›
        · cases h
      · cases h
    · cases h

theorem links_error {limit : Int} {count : Nat} {ts : List Token} (h : links markup limit count ts = .error e) :
    e.OfHeader markup := by
  fun_induction links markup limit count ts with
  | case1 => exact fail_error h
  | case2 => cases h; exact comparison_error ‹_›
  | case3 _ _ _ _ _ _ _ _ _ _ _ hrest ih =>
    cases h
    exact ih hrest
  | case4 => cases h
  | case5 => cases h
  | case6 => cases h

/-- A header the strict grammar refuses is refused naming the header and no line. -/
theorem parse_error {limit : Int} (h : parse limit markup = .error e) : e.OfHeader markup := by
  unfold parse at h
  split at h
  · rename_i e' hscan
    obtain rfl : e' = e := Except.error.inj h
    have hfrom : Token.scanFrom markup 0 markup.toList [] = .error _ := hscan
    obtain ⟨q, c, -, rfl⟩ := Token.scanFrom_eq_error_iff.1 hfrom
    exact ⟨rfl, rfl⟩
  · split at h
    · exact fail_error h
    · split at h
      · cases h
        exact comparison_error ‹_›
      · split at h
        · cases h
          exact links_error ‹_›
        · dsimp only at h
          split at h
          · cases h
          · exact fail_error h

end Strict

namespace Lenient

variable {markup : String} {e : SyntaxError}

theorem group_error {ws pending : List (List Char)} {closed : List (List Char × Combinator)}
    (h : group markup ws pending closed = .error e) : e.OfHeader markup := by
  induction ws generalizing pending closed with
  | nil =>
    unfold group at h
    split at h
    · split at h <;> (cases h; exact ⟨rfl, rfl⟩)
    · cases h
  | cons w ws ih =>
    unfold group at h
    split at h
    · split at h
      · cases h
        exact ⟨rfl, rfl⟩
      · exact ih h
    · exact ih h

theorem link_error {chunk : List Char} (h : link markup chunk = .error e) : e.OfHeader markup := by
  unfold link at h
  -- every failure of a chunk is a refusal built here
  repeat' split at h
  all_goals first
    | (cases h; exact ⟨rfl, rfl⟩)
    | cases h

/-- A header the lenient grammar refuses is refused naming the header and no line. -/
theorem parse_error {limit : Int} (h : parse limit markup = .error e) : e.OfHeader markup := by
  unfold parse at h
  split at h
  · cases h
    exact group_error ‹_›
  · split at h
    · cases h
      exact ⟨rfl, rfl⟩
    · split at h
      · cases h
        obtain ⟨⟨k, chunk⟩, -, hx⟩ := mapM_eq_error ‹_›
        cases hl : link markup chunk with
        | error e' =>
          simp only [hl, Except.map, Except.error.injEq] at hx
          exact hx ▸ link_error hl
        | ok l => simp [hl, Except.map] at hx
      · split at h
        · cases h
          exact link_error ‹_›
        · cases h

end Lenient

/-- A header read in any mode fails naming the header and no line. -/
theorem Mode.read_error {mode : Mode} {limit : Int} {markup : String} {e : SyntaxError}
    (h : (mode.read limit markup).2 = .error e) : e.OfHeader markup := by
  cases mode with
  | lax => exact Lenient.parse_error h
  | strict => exact Strict.parse_error h
  | warn =>
    simp only [read] at h
    split at h
    · cases h
    · split at h
      · cases h
        exact Strict.parse_error ‹_›
      · exact Lenient.parse_error h

/-! ### Branch steps name no line -/

namespace Conditional

variable {mode : Mode} {limit : Int} {markup : String} {c : Conditional Node} {e : SyntaxError}

/-- An `if` header starts a conditional exactly when it reads, and fails as its reading fails. -/
theorem start_error_iff : (start (α := Node) mode limit markup).2 = .error e ↔ (mode.read limit markup).2 = .error e := by
  unfold start
  exact Except.map_eq_error

theorem pushElsif_error (h : (c.pushElsif mode limit markup).2 = .error e) : e.line = none := by
  unfold pushElsif at h
  split at h
  · cases h
    rfl
  · cases h
    rfl
  · exact (Mode.read_error (Except.map_eq_error.1 h)).2

theorem pushElse_error (h : (c.pushElse mode markup).2 = .error e) : e.line = none := by
  unfold pushElse at h
  split at h
  · cases h
    rfl
  · cases h
    rfl
  · dsimp only at h
    split at h
    · cases h
    · split at h
      · cases h
        rfl
      · cases h

theorem close_error (h : c.close = .error e) : e.line = none := by
  unfold close at h
  split at h
  · cases h
    rfl
  · split at h <;> cases h

end Conditional

/-- An error that names no line is given the line `n`. -/
theorem SyntaxError.withLine_of_line {e : SyntaxError} {n : Nat} (h : e.line = none) :
    e.withLine n = { e with line := some n } := by
  simp [SyntaxError.withLine, h]

/-- A tag header carries the line of its tag. -/
theorem TagHeader.line_ofPiece? {p : Piece} {h : TagHeader} (hp : TagHeader.ofPiece? p = some h) :
    h.line = p.line := by
  simp only [TagHeader.ofPiece?] at hp
  split at hp
  · cases hp
  · cases hp
    rfl

/-! ### The token to blame -/

namespace Reading

/-- The step that a tag ending a body asks of the conditional being read: `endif` closes it,
`elsif` adds a guarded branch and `else` the last one. -/
def branchStep (cfg : Config) (stop : TagHeader) (c : Conditional Node) : Except SyntaxError (Conditional Node) :=
  if stop.name = "endif" then c.close
  else if stop.name = "elsif" then (c.pushElsif cfg.errorMode cfg.maxChainLength stop.markup).2
  else (c.pushElse cfg.errorMode stop.markup).2

/-- A refused branch step names no line. -/
theorem branchStep_error {cfg : Config} {stop : TagHeader} {c : Conditional Node} {e : SyntaxError}
    (h : branchStep cfg stop c = .error e) : e.line = none := by
  unfold branchStep at h
  split at h
  · exact Conditional.close_error h
  · split at h
    · exact Conditional.pushElsif_error h
    · exact Conditional.pushElse_error h

variable {cfg : Config}

/-- The branch reader at a tag that ends the body it read: a step that the conditional refuses
fails the reader, at the tag's line. -/
theorem armsOutcome_step_error {d : Nat} {h s : TagHeader} {c : Conditional Node}
    {ts r : List Piece} {nodes : List Node} {e : SyntaxError}
    (hb : bodyOutcome cfg d ts = .ok (nodes, some (s, r)))
    (hstep : branchStep cfg s (c.appendAll nodes) = .error e) :
    armsOutcome cfg d h c ts = .error (e.withLine s.line) := by
  rw [armsOutcome_eq, hb]
  simp only
  unfold branchStep at hstep
  split
  · rename_i hend
    rw [if_pos hend] at hstep
    rw [hstep]
  · rename_i hend
    rw [if_neg hend] at hstep
    rw [hstep]

/-- The branch reader at an `endif` that closes the conditional ends with it. -/
theorem armsOutcome_step_endif {d : Nat} {h s : TagHeader} {c c' : Conditional Node}
    {ts r : List Piece} {nodes : List Node} (hb : bodyOutcome cfg d ts = .ok (nodes, some (s, r)))
    (hend : s.name = "endif")
    (hstep : branchStep cfg s (c.appendAll nodes) = .ok c') :
    armsOutcome cfg d h c ts = .ok (c', r) := by
  rw [armsOutcome_eq, hb]
  rw [branchStep, if_pos hend] at hstep
  simp only [if_pos hend, hstep]

/-- The branch reader at an `elsif` or `else` whose step the conditional takes reads on from the
conditional the step built. -/
theorem armsOutcome_step_next {d : Nat} {h s : TagHeader} {c c' : Conditional Node}
    {ts r : List Piece} {nodes : List Node} (hb : bodyOutcome cfg d ts = .ok (nodes, some (s, r)))
    (hend : s.name ≠ "endif")
    (hstep : branchStep cfg s (c.appendAll nodes) = .ok c') :
    armsOutcome cfg d h c ts = armsOutcome cfg d h c' r := by
  rw [armsOutcome_eq, hb]
  simp only [if_neg hend]
  rw [branchStep, if_neg hend] at hstep
  rw [hstep]

mutual

/-- `BodyFault cfg d ts q e`: the body reader at nesting depth `d` fails on the tokens `ts` with
the error `e`, and `q` is the token at fault. Everything read before `q` reads: texts, outputs
whose operand reads, and whole conditionals. Then `q` is an output whose operand does not read, a
tag with no name or with a name no tag has, or an `if` nested too deep or whose header does not
read; or `q` lies inside the conditional that an `if` opens (`ArmsFault`). Only the token at fault
gives the error its line. -/
inductive BodyFault (cfg : Config) : Nat → List Piece → Piece → SyntaxError → Prop
  | text {d : Nat} {p q : Piece} {ps : List Piece} {e : SyntaxError} :
      p.kind = .text → BodyFault cfg d ps q e → BodyFault cfg d (p :: ps) q e
  | output {d : Nat} {p q : Piece} {o : Operand} {ps : List Piece} {e : SyntaxError} :
      p.kind = .output → Operand.parse p.value = .ok o → BodyFault cfg d ps q e →
      BodyFault cfg d (p :: ps) q e
  /-- A whole conditional, and the body fails after its `endif`. -/
  | cond {d : Nat} {p q : Piece} {h : TagHeader} {g : Chain} {ps qs rest : List Piece}
      {ns : List Node} {alts : List (Chain × List Node)} {els : Option (List Node)}
      {c : Conditional Node} {e : SyntaxError} :
      p.Tag "if" h → ((d + 1 : Nat) : Int) ≤ cfg.maxNestingDepth →
      (cfg.errorMode.read cfg.maxChainLength h.markup).2 = .ok g →
      Template.Body cfg (d + 1) ps ns → Template.Branches cfg (d + 1) qs alts els →
      (Conditional.mk g ns alts els false).close = .ok c →
      BodyFault cfg d rest q e → BodyFault cfg d (p :: (ps ++ qs ++ rest)) q e
  | operand {d : Nat} {p : Piece} {ps : List Piece} {f : SyntaxFault} :
      p.kind = .output → Operand.parse p.value = .error f →
      BodyFault cfg d (p :: ps) p { fault := f, markup := some p.value, line := some p.line }
  | malformed {d : Nat} {p : Piece} {ps : List Piece} :
      p.kind = .tag → TagHeader.ofPiece? p = none →
      BodyFault cfg d (p :: ps) p
        { fault := .malformedTag, markup := some p.value, line := some p.line }
  | unknown {d : Nat} {p : Piece} {ps : List Piece} {h : TagHeader} :
      p.kind = .tag → TagHeader.ofPiece? p = some h → h.name ≠ "if" →
      endsBody h.name = false → BodyFault cfg d (p :: ps) p
        { fault := .unknownTag h.name, markup := some p.value, line := some p.line }
  | tooDeep {d : Nat} {p : Piece} {ps : List Piece} {h : TagHeader} :
      p.Tag "if" h → cfg.maxNestingDepth < ((d + 1 : Nat) : Int) →
      BodyFault cfg d (p :: ps) p
        { fault := .nestingTooDeep cfg.maxNestingDepth, markup := some h.markup,
          line := some p.line }
  | header {d : Nat} {p : Piece} {ps : List Piece} {h : TagHeader} {e : SyntaxError} :
      p.Tag "if" h → ((d + 1 : Nat) : Int) ≤ cfg.maxNestingDepth →
      (cfg.errorMode.read cfg.maxChainLength h.markup).2 = .error e →
      BodyFault cfg d (p :: ps) p { e with line := some p.line }
  /-- The `if` header reads, and the conditional it opens fails. -/
  | inIf {d : Nat} {p q : Piece} {ps : List Piece} {h : TagHeader} {g : Chain} {e : SyntaxError} :
      p.Tag "if" h → ((d + 1 : Nat) : Int) ≤ cfg.maxNestingDepth →
      (cfg.errorMode.read cfg.maxChainLength h.markup).2 = .ok g →
      ArmsFault cfg (d + 1) p h { guard := g } ps q e → BodyFault cfg d (p :: ps) q e

/-- `ArmsFault cfg d p h c ts q e`: the branch reader of the conditional that the `if` tag `p`
with header `h` opened, built so far into `c`, fails on the tokens `ts` with the error `e`, and
`q` is the token at fault. It lies in the body of the current branch; or it is the tag ending
that body, whose step `c` refuses; or, when no tag ends it, it is `p`, never closed. After a step
`c` takes, the next branch is read into what the step built. -/
inductive ArmsFault (cfg : Config) :
    Nat → Piece → TagHeader → Conditional Node → List Piece → Piece → SyntaxError → Prop
  | body {d : Nat} {p q : Piece} {h : TagHeader} {c : Conditional Node} {ts : List Piece}
      {e : SyntaxError} : BodyFault cfg d ts q e → ArmsFault cfg d p h c ts q e
  | neverClosed {d : Nat} {p : Piece} {h : TagHeader} {c : Conditional Node} {ps rest : List Piece}
      {ns : List Node} : Template.Body cfg d ps ns → Template.Stop rest none →
      ArmsFault cfg d p h c (ps ++ rest) p
        { fault := .neverClosed, markup := some h.markup, line := some p.line }
  | step {d : Nat} {p q : Piece} {h s : TagHeader} {c : Conditional Node} {ps r : List Piece}
      {ns : List Node} {e : SyntaxError} : Template.Body cfg d ps ns → q.kind = .tag →
      TagHeader.ofPiece? q = some s → endsBody s.name = true →
      branchStep cfg s (c.appendAll ns) = .error e →
      ArmsFault cfg d p h c (ps ++ q :: r) q { e with line := some q.line }
  | next {d : Nat} {p q q' : Piece} {h s : TagHeader} {c c' : Conditional Node} {ps r : List Piece}
      {ns : List Node} {e : SyntaxError} : Template.Body cfg d ps ns → q.kind = .tag →
      TagHeader.ofPiece? q = some s → endsBody s.name = true → s.name ≠ "endif" →
      branchStep cfg s (c.appendAll ns) = .ok c' → ArmsFault cfg d p h c' r q' e →
      ArmsFault cfg d p h c (ps ++ q :: r) q' e

end

/-- `Fault cfg ts q e`: reading the tokens `ts` of a template fails with the error `e`, and `q`
is the token at fault: the top-level body fails at `q`, or it stops at the tag `q`, which ends a
body where no conditional is open. -/
inductive Fault (cfg : Config) : List Piece → Piece → SyntaxError → Prop
  | body {ts : List Piece} {q : Piece} {e : SyntaxError} :
      BodyFault cfg 0 ts q e → Fault cfg ts q e
  | stray {ps r : List Piece} {ns : List Node} {q : Piece} {s : TagHeader} :
      Template.Body cfg 0 ps ns → q.kind = .tag → TagHeader.ofPiece? q = some s →
      endsBody s.name = true →
      Fault cfg (ps ++ q :: r) q { fault := .outsideIf s.name, line := some q.line }

/-! ### The token at fault is one of those read, and the error names its line -/

mutual

/-- The token at fault in a body is one of its tokens, and the error names that token's line: the
constructor of the token at fault sets the line, and every other passes the error on as it is. -/
theorem BodyFault.culprit : ∀ {d : Nat} {ts : List Piece} {q : Piece} {e : SyntaxError},
    BodyFault cfg d ts q e → q ∈ ts ∧ e.line = some q.line
  | _, _, _, _, .text _ hq | _, _, _, _, .output _ _ hq => by
    obtain ⟨hmem, hline⟩ := hq.culprit
    exact ⟨List.mem_cons_of_mem _ hmem, hline⟩
  | _, _, _, _, .cond _ _ _ _ _ _ hq => by
    obtain ⟨hmem, hline⟩ := hq.culprit
    exact ⟨by simp [hmem], hline⟩
  | _, _, _, _, .operand _ _ | _, _, _, _, .malformed _ _ | _, _, _, _, .unknown _ _ _ _
  | _, _, _, _, .tooDeep _ _ | _, _, _, _, .header _ _ _ => ⟨List.mem_cons_self, rfl⟩
  | _, _, _, _, .inIf _ _ _ ha => by
    obtain ⟨hmem, hline⟩ := ha.culprit
    exact ⟨by rcases hmem with rfl | hmem <;> simp [*], hline⟩

/-- The token at fault in a conditional's branches is the `if` tag that opened it or one of the
tokens after it, and the error names that token's line. -/
theorem ArmsFault.culprit : ∀ {d : Nat} {p : Piece} {h : TagHeader} {c : Conditional Node}
    {ts : List Piece} {q : Piece} {e : SyntaxError},
    ArmsFault cfg d p h c ts q e → (q = p ∨ q ∈ ts) ∧ e.line = some q.line
  | _, _, _, _, _, _, _, .body hq => by
    obtain ⟨hmem, hline⟩ := hq.culprit
    exact ⟨.inr hmem, hline⟩
  | _, _, _, _, _, _, _, .neverClosed _ _ => ⟨.inl rfl, rfl⟩
  | _, _, _, _, _, _, _, .step _ _ _ _ _ => ⟨.inr (by simp), rfl⟩
  | _, _, _, _, _, _, _, .next _ _ _ _ _ _ ha => by
    obtain ⟨hmem, hline⟩ := ha.culprit
    exact ⟨by rcases hmem with hmem | hmem <;> simp [hmem], hline⟩

end

/-- The token at fault is one of the template's, and the error names its line. -/
theorem Fault.culprit {ts : List Piece} {q : Piece} {e : SyntaxError} :
    Fault cfg ts q e → q ∈ ts ∧ e.line = some q.line
  | .body hq => hq.culprit
  | .stray _ _ _ _ => ⟨by simp, rfl⟩

/-! ### Every error of the readers is a fault -/

mutual

/-- An error of the body reader is the fault of one of the tokens it reads. -/
theorem body_fault {d : Nat} {ts : List Piece} {e : SyntaxError}
    (h : bodyOutcome cfg d ts = .error e) : ∃ q, BodyFault cfg d ts q e := by
  match ts, h with
  | [], h =>
    rw [bodyOutcome_nil] at h
    cases h
  | p :: ts, h =>
    cases hk : p.kind with
    | eof =>
      rw [bodyOutcome_eof hk] at h
      cases h
    | text =>
      rw [bodyOutcome_text hk, Except.map_eq_error] at h
      obtain ⟨q, hq⟩ := body_fault h
      exact ⟨q, .text hk hq⟩
    | output =>
      rw [bodyOutcome_output hk] at h
      cases ho : Operand.parse p.value with
      | error f =>
        rw [ho] at h
        cases h
        exact ⟨p, .operand hk ho⟩
      | ok o =>
        rw [ho, Except.map_eq_error] at h
        obtain ⟨q, hq⟩ := body_fault h
        exact ⟨q, .output hk ho hq⟩
    | tag =>
      rw [bodyOutcome_tag hk] at h
      cases hh : TagHeader.ofPiece? p with
      | none =>
        rw [hh] at h
        cases h
        exact ⟨p, .malformed hk hh⟩
      | some hd =>
        rw [hh] at h
        dsimp only at h
        split at h
        · rename_i hif
          cases hc : conditionalOutcome cfg (d + 1) hd ts with
          | error e' =>
            rw [hc] at h
            cases h
            exact conditional_fault ⟨hk, hh, hif⟩ hc
          | ok x =>
            obtain ⟨c, r⟩ := x
            rw [hc, Except.map_eq_error] at h
            -- the conditional is read whole, and the body fails after its `endif`
            obtain ⟨hdepth, g, ps, qs, ns, alts, els, hg, rfl, hbody, hbr, hclose⟩ :=
              Template.conditional_sound hc
            obtain ⟨q, hq⟩ := body_fault h
            exact ⟨q, .cond ⟨hk, hh, hif⟩ hdepth hg hbody hbr hclose hq⟩
        · rename_i hif
          split at h
          · cases h
          · rename_i hends
            cases h
            exact ⟨p, .unknown hk hh hif (by simpa using hends)⟩
termination_by (ts.length, 0)

/-- An error of the conditional reader after the `if` tag `p` is the fault of `p` or of one of
the tokens it reads. -/
theorem conditional_fault {d : Nat} {p : Piece} {hd : TagHeader} {ts : List Piece} {e : SyntaxError}
    (hp : p.Tag "if" hd) (h : conditionalOutcome cfg (d + 1) hd ts = .error e) :
    ∃ q, BodyFault cfg d (p :: ts) q e := by
  have hline := TagHeader.line_ofPiece? hp.2.1
  rw [conditionalOutcome_eq] at h
  split at h
  · rename_i hdeep
    cases h
    exact ⟨p, hline ▸ .tooDeep hp hdeep⟩
  · rename_i hdepth
    cases hs : (Conditional.start cfg.errorMode cfg.maxChainLength hd.markup).2 with
    | error e' =>
      rw [hs] at h
      cases h
      -- the header's error, given the line of its tag
      have hread := Conditional.start_error_iff.1 hs
      rw [SyntaxError.withLine_of_line (Mode.read_error hread).2, hline]
      exact ⟨p, .header hp (by omega) hread⟩
    | ok c =>
      rw [hs] at h
      obtain ⟨g, hg, rfl⟩ := Conditional.start_ok_iff.1 hs
      obtain ⟨q, hq⟩ := arms_fault hp h
      exact ⟨q, .inIf hp (by omega) hg hq⟩
termination_by (ts.length, 2)

/-- An error of the branch reader of the conditional opened by the `if` tag `p` is the fault of
`p` or of one of the tokens it reads. -/
theorem arms_fault {d : Nat} {p : Piece} {hd : TagHeader} {c : Conditional Node} {ts : List Piece}
    {e : SyntaxError} (hp : p.Tag "if" hd) (h : armsOutcome cfg d hd c ts = .error e) :
    ∃ q, ArmsFault cfg d p hd c ts q e := by
  cases hb : bodyOutcome cfg d ts with
  | error e' =>
    rw [armsOutcome_eq, hb] at h
    cases h
    obtain ⟨q, hq⟩ := body_fault hb
    exact ⟨q, .body hq⟩
  | ok x =>
    obtain ⟨nodes, _ | ⟨stop, r⟩⟩ := x
    · rw [armsOutcome_eq, hb] at h
      cases h
      obtain ⟨toks, rest, rfl, hbody, hs⟩ := Template.body_sound hb
      exact ⟨p, TagHeader.line_ofPiece? hp.2.1 ▸ .neverClosed hbody hs⟩
    · -- the body stopped at the tag `q`, which asks the conditional for a step
      obtain ⟨toks, rest, rfl, hbody, hs⟩ := Template.body_sound hb
      cases hs with
      | @tag q _ _ hk hh hends =>
      cases hstep : branchStep cfg stop (c.appendAll nodes) with
      | error e' =>
        rw [armsOutcome_step_error hb hstep] at h
        cases h
        rw [SyntaxError.withLine_of_line (branchStep_error hstep), TagHeader.line_ofPiece? hh]
        exact ⟨q, .step hbody hk hh hends hstep⟩
      | ok c' =>
        by_cases hend : stop.name = "endif"
        · rw [armsOutcome_step_endif hb hend hstep] at h
          cases h
        · rw [armsOutcome_step_next hb hend hstep] at h
          obtain ⟨q', hq'⟩ := arms_fault hp h
          exact ⟨q', .next hbody hk hh hends hend hstep hq'⟩
termination_by (ts.length, 1)

end

/-! ### Every fault is an error of the readers -/

mutual

/-- A fault of a body is an error of the body reader: each constructor is one step of the reader,
the constructors of whole conditionals read by `Template.conditional_complete`. -/
theorem BodyFault.outcome : ∀ {d : Nat} {ts : List Piece} {q : Piece} {e : SyntaxError},
    BodyFault cfg d ts q e → bodyOutcome cfg d ts = .error e
  | _, _, _, _, .text hk hq => by
    rw [bodyOutcome_text hk, hq.outcome]
    rfl
  | _, _, _, _, .output hk ho hq => by
    rw [bodyOutcome_output hk, ho]
    simp only
    rw [hq.outcome]
    rfl
  | _, _, _, _, .cond hp hdepth hg hbody hbr hclose hq => by
    rw [bodyOutcome_if_ok hp.1 hp.2.1 hp.2.2
      (Template.conditional_complete hdepth hg hbody hbr hclose), hq.outcome]
    rfl
  | _, _, _, _, .operand hk ho => by
    rw [bodyOutcome_output hk, ho]
  | _, _, _, _, .malformed hk hh => by
    rw [bodyOutcome_tag hk, hh]
  | _, _, _, _, .unknown hk hh hif hends => by
    rw [bodyOutcome_tag hk, hh]
    simp only [hif, if_false, hends]
    rfl
  | _, _, _, _, .tooDeep hp hdeep => by
    refine bodyOutcome_if_error hp.1 hp.2.1 hp.2.2 ?_
    rw [conditionalOutcome_eq, if_pos hdeep, TagHeader.line_ofPiece? hp.2.1]
  | _, _, _, _, .header hp hdepth hread => by
    refine bodyOutcome_if_error hp.1 hp.2.1 hp.2.2 ?_
    rw [conditionalOutcome_eq, if_neg (by omega), Conditional.start_error_iff.2 hread]
    simp only
    rw [SyntaxError.withLine_of_line (Mode.read_error hread).2, TagHeader.line_ofPiece? hp.2.1]
  | _, _, _, _, .inIf hp hdepth hg ha => by
    refine bodyOutcome_if_error hp.1 hp.2.1 hp.2.2 ?_
    rw [conditionalOutcome_eq, if_neg (by omega), Conditional.start_ok_iff.2 ⟨_, hg, rfl⟩]
    exact ha.outcome hp.2.1

/-- A fault of a conditional's branches is an error of the branch reader, given that `p` is the
tag whose header `h` opened it. -/
theorem ArmsFault.outcome : ∀ {d : Nat} {p : Piece} {h : TagHeader} {c : Conditional Node}
    {ts : List Piece} {q : Piece} {e : SyntaxError},
    ArmsFault cfg d p h c ts q e → TagHeader.ofPiece? p = some h →
      armsOutcome cfg d h c ts = .error e
  | _, _, _, _, _, _, _, .body hq, _ => by
    rw [armsOutcome_eq, hq.outcome]
  | _, _, _, _, _, _, _, .neverClosed hbody hs, hp => by
    rw [armsOutcome_eq, Template.body_complete hbody hs, TagHeader.line_ofPiece? hp]
  | _, _, _, _, _, _, _, .step hbody hk hh hends hstep, _ => by
    rw [armsOutcome_step_error (Template.body_complete hbody (.tag hk hh hends)) hstep,
      SyntaxError.withLine_of_line (branchStep_error hstep), TagHeader.line_ofPiece? hh]
  | _, _, _, _, _, _, _, .next hbody hk hh hends hend hstep ha, hp => by
    rw [armsOutcome_step_next (Template.body_complete hbody (.tag hk hh hends)) hend hstep]
    exact ha.outcome hp

end

end Reading

namespace Template

/-- Reading a template fails in one of three ways: its text does not scan; its tokens fail as a
body; or the top-level body stops at a tag that ends a body, which stands outside any `if`. -/
theorem parse_error_cases {source : String} {cfg : Config} {e : SyntaxError}
    (h : (Template.parse source cfg).2 = .error e) :
    Piece.scan source = .error e ∨ ∃ ts, Piece.scan source = .ok ts ∧
      (Reading.bodyOutcome cfg 0 ts = .error e ∨ ∃ nodes stop r,
        Reading.bodyOutcome cfg 0 ts = .ok (nodes, some (stop, r)) ∧
          e = { fault := .outsideIf stop.name, line := some stop.line }) := by
  unfold Template.parse at h
  unfold Reading.bodyOutcome
  cases hscan : Piece.scan source with
  | error e' =>
    simp only [hscan] at h
    cases h
    exact .inl rfl
  | ok ts =>
    simp only [hscan] at h
    refine .inr ⟨ts, rfl, ?_⟩
    cases hb : (Reading.body cfg 0 ts).2 with
    | error e' =>
      simp only [hb] at h
      cases h
      exact .inl rfl
    | ok x =>
      obtain ⟨nodes, _ | ⟨stop, r⟩⟩ := x
      · simp only [hb] at h
        cases h
      · simp only [hb] at h
        cases h
        exact .inr ⟨nodes, stop, r.1, rfl, rfl⟩

/-- Once a template's text scans, reading it fails exactly at a fault of its tokens: the errors
of `Template.parse` are those that `Reading.Fault` derives. -/
theorem parse_eq_error_iff {source : String} {cfg : Config} {ts : List Piece} {e : SyntaxError}
    (hscan : Piece.scan source = .ok ts) :
    (Template.parse source cfg).2 = .error e ↔ ∃ q, Reading.Fault cfg ts q e := by
  constructor
  · intro h
    rcases parse_error_cases h with hs | ⟨ts', hs, hbody⟩
    · rw [hscan] at hs
      cases hs
    rw [hscan] at hs
    cases hs
    rcases hbody with hbody | ⟨nodes, stop, r, hbody, rfl⟩
    · obtain ⟨q, hq⟩ := Reading.body_fault hbody
      exact ⟨q, .body hq⟩
    · -- a tag that ends a body, with no conditional open
      obtain ⟨toks, rest, rfl, hb, hs⟩ := body_sound hbody
      cases hs with
      | @tag q _ _ hk hh hends =>
      exact ⟨q, TagHeader.line_ofPiece? hh ▸ .stray hb hk hh hends⟩
  · rintro ⟨q, hq⟩
    unfold Template.parse
    rw [hscan]
    cases hq with
    | body hq =>
      have hb := hq.outcome
      unfold Reading.bodyOutcome at hb
      rw [Except.map_eq_error] at hb
      simp only [hb]
    | @stray ps r ns _ s hb hk hh hends =>
      have hbody := body_complete hb (Stop.tag (r := r) hk hh hends)
      unfold Reading.bodyOutcome at hbody
      obtain ⟨⟨nodes, stop⟩, hx, heq⟩ := Except.map_eq_ok.1 hbody
      simp only [Prod.mk.injEq] at heq
      obtain ⟨rfl, hstop⟩ := heq
      obtain ⟨⟨s', r'⟩, rfl, hsr⟩ := Option.map_eq_some_iff.1 hstop
      simp only [Prod.mk.injEq] at hsr
      obtain ⟨rfl, -⟩ := hsr
      simp only [hx, TagHeader.line_ofPiece? hh]

/-- The faults of a template's tokens determine its error, and the line of the token at fault:
two derivations of a fault give the same error, at the same line. -/
theorem fault_determined {source : String} {cfg : Config} {ts : List Piece} {q q' : Piece}
    {e e' : SyntaxError} (hscan : Piece.scan source = .ok ts) (hq : Reading.Fault cfg ts q e)
    (hq' : Reading.Fault cfg ts q' e') : e = e' ∧ q.line = q'.line := by
  have he := (parse_eq_error_iff hscan).2 ⟨q, hq⟩
  rw [(parse_eq_error_iff hscan).2 ⟨q', hq'⟩] at he
  cases he
  have hline : some q.line = some q'.line := hq.culprit.2.symm.trans hq'.culprit.2
  exact ⟨rfl, Option.some.inj hline⟩

/-- Every error of `Template.parse` names the line on which the token at fault starts: one more
than the line feeds before it. Either the text does not scan, and the token is the first opener
the scan reaches that no closer follows; or the token is one the text scans into, and reading
the tokens fails at it (`Reading.Fault`): an output whose operand does not read, a malformed or
unknown tag, a tag ending a body outside any `if`, an `if` nested too deep or whose header does
not read, the tag of a branch step that the conditional built so far refuses, or the `if` of a
conditional never closed; a fault inside a conditional keeps the line it was given. -/
theorem parse_error_line (source : String) (cfg : Config) (e : SyntaxError)
    (h : (Template.parse source cfg).2 = .error e) :
    ∃ q, e.line = some (1 + (source.toList.take q).count '\n') ∧
      ((∃ o c, Piece.Reaches source.toList 0 q ∧ Piece.Unclosed (source.toList.drop q) o c ∧
          e.fault = .unterminatedDelimiter (String.ofList o) (String.ofList c)) ∨
        ∃ ts p, Piece.scan source = .ok ts ∧ p ∈ ts ∧ p.position = q ∧
          Reading.Fault cfg ts p e) := by
  -- the scan starts at the template's start
  have hcs : source.toList = source.toList.drop 0 := rfl
  have hat : ({} : Place).After (source.toList.take 0) := Place.after_start
  cases hscan : Piece.scan source with
  | error e' =>
    -- the opener left open, at its line
    have he : e' = e := by
      unfold Template.parse at h
      rw [hscan] at h
      cases h
      rfl
    subst he
    obtain ⟨q, o, c, hreach, hun, rfl⟩ := (Piece.scanFrom_eq_error_iff hcs hat).1 hscan
    exact ⟨q, rfl, .inl ⟨o, c, hreach, hun, rfl⟩⟩
  | ok ts =>
    -- a token of the text, whose line the scan has right
    obtain ⟨p, hp⟩ := (parse_eq_error_iff hscan).1 h
    obtain ⟨hmem, hline⟩ := hp.culprit
    obtain ⟨rest, hrest, -, hlines⟩ := Piece.scanFrom_eq_ok hcs hat (Nat.zero_le _) hscan
    have hp' : p ∈ rest := by simpa [hrest] using hmem
    exact ⟨p.position, by rw [hline, (hlines p hp').1], .inr ⟨ts, p, rfl, hmem, rfl, hp⟩⟩

/-- In `{% if a %}`, `{% else %}`, `{% else %}`, `{% endif %}` on four lines, the second `else`
is refused and the error names its line, 3. -/
theorem parse_error_line_duplicate_else :
    let source := "\x7b% if a %\x7d\n\x7b% else %\x7d\n\x7b% else %\x7d\n\x7b% endif %\x7d"
    (Template.parse source {}).2 = .error { fault := .duplicateElse, line := some 3 } ∧
    ∃ q, (some 3 : Option Nat) = some (1 + (source.toList.take q).count '\n') ∧
      ((∃ o c, Piece.Reaches source.toList 0 q ∧ Piece.Unclosed (source.toList.drop q) o c ∧
          SyntaxFault.duplicateElse = .unterminatedDelimiter (String.ofList o) (String.ofList c)) ∨
        ∃ ts p, Piece.scan source = .ok ts ∧ p ∈ ts ∧ p.position = q ∧
          Reading.Fault {} ts p { fault := .duplicateElse, line := some 3 }) := by
  intro source
  have h : (Template.parse "\x7b% if a %\x7d\n\x7b% else %\x7d\n\x7b% else %\x7d\n\x7b% endif %\x7d" {}).2 =
      .error { fault := .duplicateElse, line := some 3 } := by
    with_unfolding_all rfl
  exact ⟨h, Template.parse_error_line source {} _ h⟩

end Template

end Branching
