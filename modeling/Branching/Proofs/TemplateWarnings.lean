import Branching.Proofs.TemplateErrors

/-!
# What warn mode records

In warn mode a header is read strictly. When the strict grammar refuses it with a fault of the
grammar, the refusal is recorded and the header is read leniently, whose chain or error is then
the outcome. A refusal that is a limit of integer texts is no fault of the grammar: it is raised,
and the header is not read leniently (`Mode.read_warn_ok_iff`).

While a template is read, each reader passes on the notices of the headers it reads, in the order
it reads them, and the template keeps the recorded refusals as its warnings. So the warnings of a
template read in warn mode are the strict refusals of its `if` and `elsif` headers, one for each
header the strict grammar refuses, in the order of the text (`Template.warnings_of_warn`).

## Main definitions

- `Strict.refusal?`: the strict grammar's refusal of a header, if it refuses it.
- `Piece.strictRefusal?`: the refusal warn mode records for a token.

## Main statements

- `Mode.read_warn_ok_iff`: the headers warn mode accepts, and the chain it reads for each.
- `Reading.body_fallbacks`: the refusals a body records are those of the tokens it reads.
- `Template.warnings_of_warn`: the warnings of a template read in warn mode.
-/

namespace Branching

/-- The strict grammar's refusal of a header, if it refuses it. -/
def Strict.refusal? (limit : Int) (markup : String) : Option SyntaxError :=
  match Strict.parse limit markup with
  | .error e => some e
  | .ok _ => none

/-- The refusal warn mode records for a token: the strict refusal of the header of an `if` or an
`elsif` tag. -/
def Piece.strictRefusal? (limit : Int) (p : Piece) : Option SyntaxError :=
  if p.kind = .tag then
    match TagHeader.ofPiece? p with
    | some h => if h.name = "if" ∨ h.name = "elsif" then Strict.refusal? limit h.markup else none
    | none => none
  else none

@[simp] theorem Notice.fallbacks_nil : Notice.fallbacks [] = [] := rfl

@[simp] theorem Notice.fallbacks_append (ns ns' : List Notice) :
    Notice.fallbacks (ns ++ ns') = Notice.fallbacks ns ++ Notice.fallbacks ns' :=
  List.filterMap_append

/-! ### One header -/

namespace Mode

variable {limit : Int} {markup : String}

/-- Warn mode accepts a header that the strict grammar accepts, with its strict chain, and a header
that the strict grammar refuses by a fault of the grammar and the lenient grammar accepts, with its
lenient chain. -/
theorem read_warn_ok_iff {g : Chain} :
    (warn.read limit markup).2 = .ok g ↔ Strict.parse limit markup = .ok g ∨
      ∃ e, Strict.parse limit markup = .error e ∧ e.fault.isLimit = false ∧ Lenient.parse limit markup = .ok g := by
  simp only [read]
  cases hs : Strict.parse limit markup with
  | ok c => simp
  | error e =>
    cases hlim : e.fault.isLimit <;> simp [hlim]

/-- A header warn mode reads records its strict refusal, if the strict grammar refuses it. -/
theorem fallbacks_read_warn {g : Chain} (h : (warn.read limit markup).2 = .ok g) :
    Notice.fallbacks (warn.read limit markup).1 = (Strict.refusal? limit markup).toList := by
  simp only [read, Strict.refusal?] at h ⊢
  cases hs : Strict.parse limit markup with
  | ok c => rfl
  | error e =>
    rw [hs] at h
    cases hlim : e.fault.isLimit
    · simp [hlim, Notice.fallbacks]
    · simp [hlim] at h

end Mode

/-! ### The notices of the readers -/

namespace Reading

variable {cfg : Config} {d : Nat}

theorem body_notices_text {p : Piece} {ts : List Piece} (hp : p.kind = .text) :
    (body cfg d (p :: ts)).1 = (body cfg d ts).1 := by
  rw [body]
  simp only [hp]

theorem body_notices_output {p : Piece} {ts : List Piece} {o : Operand} (hp : p.kind = .output)
    (ho : Operand.parse p.value = .ok o) : (body cfg d (p :: ts)).1 = (body cfg d ts).1 := by
  rw [body]
  simp only [hp, ho]

/-- An `if` records the notices of its conditional, then those of the body after it. -/
theorem body_notices_if {p : Piece} {ts r : List Piece} {h : TagHeader} {c : Conditional Node}
    (hp : p.Tag "if" h) (hc : conditionalOutcome cfg (d + 1) h ts = .ok (c, r)) :
    (body cfg d (p :: ts)).1 = (conditional cfg (d + 1) h ts).1 ++ (body cfg d r).1 := by
  obtain ⟨hk, hh, hif⟩ := hp
  unfold conditionalOutcome at hc
  rw [body]
  simp only [hk, hh, hif, if_true]
  rcases hcd : conditional cfg (d + 1) h ts with ⟨n₁, _ | ⟨c', r'⟩⟩
  · rw [hcd] at hc
    cases hc
  · rw [hcd] at hc
    simp only [Except.map, Except.ok.injEq, Prod.mk.injEq] at hc
    obtain ⟨rfl, rfl⟩ := hc
    rfl

/-- A conditional within the nesting limit records the notices of its `if` header, then those of
its branches. -/
theorem conditional_notices {h : TagHeader} {ts : List Piece} {c : Conditional Node}
    (hdepth : ¬ cfg.maxNestingDepth < d)
    (hs : (Conditional.start cfg.errorMode cfg.maxChainLength h.markup).2 = .ok c) :
    (conditional cfg d h ts).1 =
      (Conditional.start (α := Node) cfg.errorMode cfg.maxChainLength h.markup).1 ++ (arms cfg d h c ts).1 := by
  rw [conditional, if_neg hdepth]
  rcases hst : Conditional.start (α := Node) cfg.errorMode cfg.maxChainLength h.markup with ⟨n₁, r₁⟩
  rw [hst] at hs
  subst hs
  rfl

/-- Branches closed by `endif` record the notices of the last body. -/
theorem arms_notices_endif {h : TagHeader} {c : Conditional Node} {ts r : List Piece} {nodes : List Node}
    {stop : TagHeader} (hb : bodyOutcome cfg d ts = .ok (nodes, some (stop, r))) (hend : stop.name = "endif") :
    (arms cfg d h c ts).1 = (body cfg d ts).1 := by
  unfold bodyOutcome at hb
  rw [arms]
  rcases hbd : body cfg d ts with ⟨n₁, _ | ⟨nodes', _ | ⟨stop', r'⟩⟩⟩
  · rewrite [hbd] at hb
    cases hb
  · rewrite [hbd] at hb
    cases hb
  · rw [hbd] at hb
    simp only [Except.map, Except.ok.injEq, Prod.mk.injEq, Option.map_some, Option.some.injEq] at hb
    obtain ⟨rfl, rfl, rfl⟩ := hb
    simp only [hend, if_true]
    cases (c.appendAll nodes').close <;> rfl

/-- Branches going on at an `elsif` or an `else` record the notices of the body, of the step, and
of the branches after it. -/
theorem arms_notices_step {h : TagHeader} {c c' : Conditional Node} {ts r : List Piece} {nodes : List Node}
    {stop : TagHeader} (hb : bodyOutcome cfg d ts = .ok (nodes, some (stop, r))) (hend : stop.name ≠ "endif")
    (hstep : branchStep cfg stop (c.appendAll nodes) = .ok c') :
    (arms cfg d h c ts).1 = (body cfg d ts).1 ++
      (if stop.name = "elsif" then ((c.appendAll nodes).pushElsif cfg.errorMode cfg.maxChainLength stop.markup).1
        else ((c.appendAll nodes).pushElse cfg.errorMode stop.markup).1) ++ (arms cfg d h c' r).1 := by
  unfold bodyOutcome at hb
  rw [branchStep, if_neg hend] at hstep
  rw [arms]
  rcases hbd : body cfg d ts with ⟨n₁, _ | ⟨nodes', _ | ⟨stop', r'⟩⟩⟩
  · rewrite [hbd] at hb
    cases hb
  · rewrite [hbd] at hb
    cases hb
  · rw [hbd] at hb
    simp only [Except.map, Except.ok.injEq, Prod.mk.injEq, Option.map_some, Option.some.injEq] at hb
    obtain ⟨rfl, rfl, rfl⟩ := hb
    simp only [hend, if_false]
    by_cases helsif : stop'.name = "elsif"
    · simp only [helsif, if_true] at hstep ⊢
      rcases hpush : (c.appendAll nodes').pushElsif cfg.errorMode cfg.maxChainLength stop'.markup with ⟨n₂, r₂⟩
      rw [hpush] at hstep
      subst hstep
      rfl
    · simp only [helsif, if_false] at hstep ⊢
      rcases hpush : (c.appendAll nodes').pushElse cfg.errorMode stop'.markup with ⟨n₂, r₂⟩
      rw [hpush] at hstep
      subst hstep
      rfl

end Reading

/-! ### What each token records -/

namespace Piece

variable {limit : Int} {p : Piece}

theorem strictRefusal?_of_kind (hk : p.kind ≠ .tag) : p.strictRefusal? limit = none := by
  simp [strictRefusal?, hk]

/-- A tag records the strict refusal of its header when it is an `if` or an `elsif`. -/
theorem strictRefusal?_of_tag {name : String} {h : TagHeader} (hp : p.Tag name h) :
    p.strictRefusal? limit = if name = "if" ∨ name = "elsif" then Strict.refusal? limit h.markup else none := by
  obtain ⟨hk, hh, rfl⟩ := hp
  simp [strictRefusal?, hk, hh]

end Piece

namespace Conditional

variable {limit : Int} {markup : String} {c c' : Conditional Node}

/-- An `if` header read in warn mode records its strict refusal, if any. -/
theorem fallbacks_start_warn (h : (start (α := Node) .warn limit markup).2 = .ok c) :
    Notice.fallbacks (start (α := Node) .warn limit markup).1 = (Strict.refusal? limit markup).toList := by
  obtain ⟨g, hg, -⟩ := start_ok_iff.1 h
  exact Mode.fallbacks_read_warn hg

/-- An `elsif` header read in warn mode records its strict refusal, if any. -/
theorem fallbacks_pushElsif_warn (h : (c.pushElsif .warn limit markup).2 = .ok c') :
    Notice.fallbacks (c.pushElsif .warn limit markup).1 = (Strict.refusal? limit markup).toList := by
  obtain ⟨hs, g, hg, -⟩ := pushElsif_eq_ok_iff.1 h
  unfold pushElsif
  simp only [hs]
  exact Mode.fallbacks_read_warn hg

end Conditional

/-- After a body that stops at no tag, what is left of the tokens of a whole template is at most
the end token. -/
theorem Template.Stop.eof_of_scan {toks rest xs : List Piece} {e : Piece}
    (hxs : ∀ p ∈ xs, p.kind ≠ .eof) (heq : toks ++ rest = xs ++ [e]) (hs : Template.Stop rest none) :
    ∀ p ∈ rest, p.kind = .eof := by
  cases hs with
  | nil => simp
  | @eof q r hq =>
    rcases List.eq_nil_or_concat r with rfl | ⟨r', x, rfl⟩
    · simpa using hq
    · -- an end token before the last would be one of the scanned tokens
      simp only [List.concat_eq_append, ← List.cons_append, ← List.append_assoc] at heq
      have hmem : q ∈ xs := by
        rw [← (List.append_inj' heq rfl).1]
        simp
      exact absurd hq (hxs q hmem)

namespace Reading

variable {cfg : Config}

mutual

/-- In warn mode, the body reader records the strict refusals of the tokens it reads, in order:
those before the tag or the end where it stops. -/
theorem body_fallbacks {d : Nat} {ts : List Piece} {ns : List Node} {stop : Option (TagHeader × List Piece)}
    (hwarn : cfg.errorMode = .warn) (h : bodyOutcome cfg d ts = .ok (ns, stop)) :
    ∃ toks rest, ts = toks ++ rest ∧ Template.Stop rest stop ∧
      Notice.fallbacks (body cfg d ts).1 = toks.filterMap (Piece.strictRefusal? cfg.maxChainLength) := by
  match ts, h with
  | [], h =>
    rw [bodyOutcome_nil] at h
    cases h
    exact ⟨[], [], rfl, .nil, by rw [body]; rfl⟩
  | p :: ts, h =>
    cases hk : p.kind with
    | eof =>
      rw [bodyOutcome_eof hk] at h
      cases h
      exact ⟨[], p :: ts, rfl, .eof hk, by rw [body]; simp [hk]⟩
    | text =>
      rw [bodyOutcome_text hk] at h
      obtain ⟨⟨ns', stop'⟩, h', hx⟩ := Except.map_eq_ok.mp h
      cases hx
      obtain ⟨toks, rest, rfl, hs, hf⟩ := body_fallbacks hwarn h'
      refine ⟨p :: toks, rest, rfl, hs, ?_⟩
      rw [body_notices_text hk, hf, List.filterMap_cons, Piece.strictRefusal?_of_kind (by rw [hk]; decide)]
    | output =>
      rw [bodyOutcome_output hk] at h
      cases ho : Operand.parse p.value with
      | error f =>
        rw [ho] at h
        cases h
      | ok o =>
        rw [ho] at h
        obtain ⟨⟨ns', stop'⟩, h', hx⟩ := Except.map_eq_ok.mp h
        cases hx
        obtain ⟨toks, rest, rfl, hs, hf⟩ := body_fallbacks hwarn h'
        refine ⟨p :: toks, rest, rfl, hs, ?_⟩
        rw [body_notices_output hk ho, hf, List.filterMap_cons, Piece.strictRefusal?_of_kind (by rw [hk]; decide)]
    | tag =>
      obtain ⟨hd, hh, ⟨hif, c, r, ns', hc, h', rfl⟩ | ⟨hends, rfl, rfl⟩⟩ := Template.bodyOutcome_tag_ok hk h
      · -- the conditional's tokens, then the body's after it
        obtain ⟨toks₁, rfl, hf₁⟩ := conditional_fallbacks hwarn ⟨hk, hh, hif⟩ hc
        obtain ⟨toks₂, rest, rfl, hs, hf₂⟩ := body_fallbacks hwarn h'
        refine ⟨p :: toks₁ ++ toks₂, rest, by simp, hs, ?_⟩
        rw [body_notices_if ⟨hk, hh, hif⟩ hc, Notice.fallbacks_append, hf₁, hf₂, ← List.filterMap_append]
      · refine ⟨[], p :: ts, rfl, .tag hk hh hends, ?_⟩
        rw [body]
        simp [hk, hh, Template.ne_if_of_endsBody hends, hends]
termination_by (ts.length, 0)

/-- In warn mode, the conditional reader after the `if` tag `p` records the strict refusals of `p`
and of the tokens it reads, in order. -/
theorem conditional_fallbacks {d : Nat} {p : Piece} {hd : TagHeader} {ts r : List Piece} {c : Conditional Node}
    (hwarn : cfg.errorMode = .warn) (hp : p.Tag "if" hd) (h : conditionalOutcome cfg d hd ts = .ok (c, r)) :
    ∃ toks, ts = toks ++ r ∧
      Notice.fallbacks (conditional cfg d hd ts).1 = (p :: toks).filterMap (Piece.strictRefusal? cfg.maxChainLength) := by
  rw [conditionalOutcome_eq] at h
  split at h
  · cases h
  · rename_i hdepth
    cases hs : (Conditional.start cfg.errorMode cfg.maxChainLength hd.markup).2 with
    | error e =>
      rw [hs] at h
      cases h
    | ok c₀ =>
      rw [hs] at h
      obtain ⟨toks, rfl, hf⟩ := arms_fallbacks hwarn h
      refine ⟨toks, rfl, ?_⟩
      rw [conditional_notices hdepth hs, Notice.fallbacks_append, hf, List.filterMap_cons,
        Piece.strictRefusal?_of_tag hp, if_pos (.inl rfl)]
      rw [hwarn] at hs ⊢
      rw [Conditional.fallbacks_start_warn hs]
      cases Strict.refusal? cfg.maxChainLength hd.markup <;> simp
termination_by (ts.length, 2)

/-- In warn mode, the branch reader records the strict refusals of the tokens it reads, in order,
up to the `endif`. -/
theorem arms_fallbacks {d : Nat} {hd : TagHeader} {c c' : Conditional Node} {ts r : List Piece}
    (hwarn : cfg.errorMode = .warn) (h : armsOutcome cfg d hd c ts = .ok (c', r)) :
    ∃ toks, ts = toks ++ r ∧
      Notice.fallbacks (arms cfg d hd c ts).1 = toks.filterMap (Piece.strictRefusal? cfg.maxChainLength) := by
  obtain ⟨nodes, stop, r₁, hb, hstep⟩ := Template.armsOutcome_ok h
  obtain ⟨toks, rest, rfl, hs, hf⟩ := body_fallbacks hwarn hb
  cases hs with
  | @tag q _ _ hk hh hends =>
  rcases hstep with ⟨hend, rfl, -⟩ | ⟨helsif, c₂, hpush, h'⟩ | ⟨hend, helsif, c₂, hpush, h'⟩
  · -- `endif` records nothing
    refine ⟨toks ++ [q], by simp, ?_⟩
    rw [arms_notices_endif hb hend, hf, List.filterMap_append, List.filterMap_cons, List.filterMap_nil,
      Piece.strictRefusal?_of_tag ⟨hk, hh, hend⟩]
    simp
  · -- an `elsif` records its header's strict refusal
    have hend : stop.name ≠ "endif" := by rw [helsif]; decide
    obtain ⟨toks', rfl, hf'⟩ := arms_fallbacks hwarn h'
    refine ⟨toks ++ q :: toks', by simp, ?_⟩
    rw [arms_notices_step hb hend (by rw [branchStep, if_neg hend, if_pos helsif]; exact hpush), if_pos helsif,
      Notice.fallbacks_append, Notice.fallbacks_append, hf, hf', List.filterMap_append, List.filterMap_cons,
      Piece.strictRefusal?_of_tag ⟨hk, hh, helsif⟩, if_pos (.inr rfl)]
    rw [hwarn] at hpush ⊢
    rw [Conditional.fallbacks_pushElsif_warn hpush]
    cases Strict.refusal? cfg.maxChainLength stop.markup <;> simp
  · -- an `else` records nothing
    obtain ⟨toks', rfl, hf'⟩ := arms_fallbacks hwarn h'
    refine ⟨toks ++ q :: toks', by simp, ?_⟩
    have helse : stop.name = "else" := Template.else_of_endsBody hends hend helsif
    rw [arms_notices_step hb hend (by rw [branchStep, if_neg hend, if_neg helsif]; exact hpush), if_neg helsif,
      Notice.fallbacks_append, Notice.fallbacks_append, hf, hf', Conditional.fallbacks_pushElse,
      List.filterMap_append, List.filterMap_cons, Piece.strictRefusal?_of_tag ⟨hk, hh, helse⟩]
    simp
termination_by (ts.length, 1)

end

end Reading

namespace Template

/-- A template that reads is the body of its tokens, read to the end with no tag left over; its
warnings are the strict errors the body reader recorded. -/
theorem parse_eq_ok_body {source : String} {cfg : Config} {t : Template} (h : (Template.parse source cfg).2 = .ok t) :
    ∃ ts, Piece.scan source = .ok ts ∧ Reading.bodyOutcome cfg 0 ts = .ok (t.body, none) ∧
      t.warnings = Notice.fallbacks (Reading.body cfg 0 ts).1 := by
  unfold Template.parse at h
  cases hscan : Piece.scan source with
  | error e =>
    simp only [hscan] at h
    cases h
  | ok ts =>
    simp only [hscan] at h
    cases hb : (Reading.body cfg 0 ts).2 with
    | error e =>
      simp only [hb] at h
      cases h
    | ok x =>
      obtain ⟨nodes, _ | ⟨stop, r⟩⟩ := x
      · simp only [hb, Except.ok.injEq] at h
        subst h
        refine ⟨ts, rfl, ?_, rfl⟩
        unfold Reading.bodyOutcome
        rw [hb]
        rfl
      · simp only [hb] at h
        cases h

/-- In warn mode, the warnings of a template that reads are the strict refusals of its `if` and
`elsif` headers, one for each header the strict grammar refuses, in the order of the text. -/
theorem warnings_of_warn {source : String} {cfg : Config} {t : Template} (hwarn : cfg.errorMode = .warn)
    (h : (Template.parse source cfg).2 = .ok t) :
    ∃ ts, Piece.scan source = .ok ts ∧ t.warnings = ts.filterMap (Piece.strictRefusal? cfg.maxChainLength) := by
  obtain ⟨ts, hscan, hout, hwarnings⟩ := parse_eq_ok_body h
  obtain ⟨toks, rest, rfl, hs, hf⟩ := Reading.body_fallbacks hwarn hout
  refine ⟨_, hscan, ?_⟩
  -- after the body only the end token is left, and it records nothing
  obtain ⟨xs, e, hts, -, hxs⟩ := scanFrom_shape (by simp) hscan
  have hrest : rest.filterMap (Piece.strictRefusal? cfg.maxChainLength) = [] :=
    List.filterMap_eq_nil_iff.2 fun p hp =>
      Piece.strictRefusal?_of_kind (by rw [Stop.eof_of_scan hxs hts hs p hp]; decide)
  rw [hwarnings, hf, List.filterMap_append, hrest, List.append_nil]

/-- Warn mode reads a template header by header. A header is accepted when the strict grammar
accepts it, with the strict chain as its guard, or when the strict grammar refuses it by a fault of
the grammar and the lenient grammar accepts it, with the lenient chain as its guard; a strict
refusal that is a limit of integer texts is raised, whatever the lenient grammar says. The
warnings of a template that reads are the strict refusals of its `if` and `elsif` headers, one for
each header the strict grammar refuses, in the order of the text. -/
theorem warn_reads_header_by_header (source : String) (cfg : Config) (hwarn : cfg.errorMode = .warn) :
    (∀ markup g, (cfg.errorMode.read cfg.maxChainLength markup).2 = .ok g ↔
      Strict.parse cfg.maxChainLength markup = .ok g ∨ ∃ e, Strict.parse cfg.maxChainLength markup = .error e ∧
        e.fault.isLimit = false ∧ Lenient.parse cfg.maxChainLength markup = .ok g) ∧
    ∀ t, (Template.parse source cfg).2 = .ok t → ∃ ts, Piece.scan source = .ok ts ∧
      t.warnings = ts.filterMap (Piece.strictRefusal? cfg.maxChainLength) := by
  refine ⟨fun markup g => ?_, fun t h => warnings_of_warn hwarn h⟩
  rw [hwarn]
  exact Mode.read_warn_ok_iff

/-- Warn mode on `{% if x == 1 y %}z{% endif %}`: the strict grammar refuses the trailing `y`, the
lenient grammar reads `x == 1`, and the template keeps the strict refusal as its one warning. -/
theorem warn_reads_header_by_header_trailing :
    let source := "\x7b% if x == 1 y %\x7dz\x7b% endif %\x7d"
    let cfg : Config := { errorMode := .warn }
    cfg.errorMode = .warn ∧
    (Template.parse source cfg).2.toOption.map Template.warnings =
      some [{ fault := .trailingInput "y" 7, markup := some "x == 1 y" }] ∧
    ((∀ markup g, (cfg.errorMode.read cfg.maxChainLength markup).2 = .ok g ↔
      Strict.parse cfg.maxChainLength markup = .ok g ∨ ∃ e, Strict.parse cfg.maxChainLength markup = .error e ∧
        e.fault.isLimit = false ∧ Lenient.parse cfg.maxChainLength markup = .ok g) ∧
    ∀ t, (Template.parse source cfg).2 = .ok t → ∃ ts, Piece.scan source = .ok ts ∧
      t.warnings = ts.filterMap (Piece.strictRefusal? cfg.maxChainLength)) := by
  intro source cfg
  have hwarnings : (Template.parse source cfg).2.toOption.map Template.warnings =
      some [{ fault := .trailingInput "y" 7, markup := some "x == 1 y" }] := by
    decide +kernel
  exact ⟨rfl, hwarnings, warn_reads_header_by_header source cfg rfl⟩

end Template

end Branching
