import Branching.Template
import Branching.Proofs.OperandMarkup
import Branching.Proofs.ChainBuilding

/-!
# The tag grammar of templates

`Template.parse` reads the tokens of a template by a recursive descent over bodies and
conditionals. Here the language it accepts is stated as a grammar on the tokens, with the tree
each derivation builds:

    Body     → (TEXT | OUTPUT | If)*
    If       → 'if' Body Branches
    Branches → 'elsif' Body Branches | 'else' Body 'endif' | 'endif'

Each `if` and `elsif` header reads in the configured mode, each output reads as an operand, no
`if` stands deeper than the configured nesting, and in strict mode no `else` has arguments. A
conditional is the closed construct of its headers and bodies.

The reader is described by what its three functions return. A body ends at the end of the tokens
or at a tag that ends a body (`Stop`); what comes before is a `Body` derivation. The branches of a
conditional are read one body at a time, the conditional growing by a branch at each `elsif` and
`else`, and `Branches` derives the tokens from the first `elsif`, `else` or `endif` on.

## Main definitions

- `Template.Body`, `Template.Branches`: the grammar, as mutual relations on tokens carrying their
  trees.
- `Template.Stop`: what may follow a body, with what the reader reports for it.

## Main statements

- `Template.body_complete`, `Template.body_sound`: the body reader against `Body`, with
  `Template.branches_complete` and `Template.arms_sound` for the branches of a conditional, and
  `Template.conditional_complete` for a whole conditional.
- `Conditional.close_open`: closing keeps the guards of the branches in order.
- `Template.parse_ok_iff`: a template reads, to the nodes `nodes`, exactly when its text scans
  into tokens that derive `nodes` from `Body` at the top level.
-/

namespace Branching

namespace Reading

/-! ### What the three readers return -/

/-- What the body reader returns, with the tokens after its stop as a plain list. -/
def bodyOutcome (cfg : Config) (d : Nat) (ts : List Piece) :
    Except SyntaxError (List Node × Option (TagHeader × List Piece)) :=
  (body cfg d ts).2.map fun x => (x.1, x.2.map fun y => (y.1, y.2.1))

/-- What the conditional reader returns, with the tokens after the `endif` as a plain list. -/
def conditionalOutcome (cfg : Config) (d : Nat) (h : TagHeader) (ts : List Piece) :
    Except SyntaxError (Conditional Node × List Piece) :=
  (conditional cfg d h ts).2.map fun x => (x.1, x.2.1)

/-- What the branch reader returns, with the tokens after the `endif` as a plain list. -/
def armsOutcome (cfg : Config) (d : Nat) (h : TagHeader) (c : Conditional Node) (ts : List Piece) :
    Except SyntaxError (Conditional Node × List Piece) :=
  (arms cfg d h c ts).2.map fun x => (x.1, x.2.1)

variable {cfg : Config} {d : Nat}

theorem bodyOutcome_nil : bodyOutcome cfg d [] = .ok ([], none) := by
  simp [bodyOutcome, body, Except.map]

theorem bodyOutcome_eof {p : Piece} {ts : List Piece} (hp : p.kind = .eof) :
    bodyOutcome cfg d (p :: ts) = .ok ([], none) := by
  unfold bodyOutcome
  rw [body]
  simp only [hp]
  rfl

theorem bodyOutcome_text {p : Piece} {ts : List Piece} (hp : p.kind = .text) :
    bodyOutcome cfg d (p :: ts) =
      (bodyOutcome cfg d ts).map fun x => (.text p.value :: x.1, x.2) := by
  unfold bodyOutcome
  rw [body]
  simp only [hp]
  cases (body cfg d ts).2 with
  | error e => rfl
  | ok x => obtain ⟨ns, _ | s⟩ := x <;> rfl

theorem bodyOutcome_output {p : Piece} {ts : List Piece} (hp : p.kind = .output) :
    bodyOutcome cfg d (p :: ts) =
      match Operand.parse p.value with
      | .error f => .error { fault := f, markup := some p.value, line := some p.line }
      | .ok o => (bodyOutcome cfg d ts).map fun x => (.output o :: x.1, x.2) := by
  unfold bodyOutcome
  rw [body]
  simp only [hp]
  cases Operand.parse p.value with
  | error f => rfl
  | ok o =>
    cases (body cfg d ts).2 with
    | error e => rfl
    | ok x => obtain ⟨ns, _ | s⟩ := x <;> rfl

theorem bodyOutcome_tag {p : Piece} {ts : List Piece} (hp : p.kind = .tag) :
    bodyOutcome cfg d (p :: ts) =
      match TagHeader.ofPiece? p with
      | none => .error { fault := .malformedTag, markup := some p.value, line := some p.line }
      | some h =>
        if h.name = "if" then
          match conditionalOutcome cfg (d + 1) h ts with
          | .error e => .error e
          | .ok (c, r) => (bodyOutcome cfg d r).map fun x => (.conditional c :: x.1, x.2)
        else if endsBody h.name then .ok ([], some (h, ts))
        else .error { fault := .unknownTag h.name, markup := some p.value, line := some p.line } := by
  unfold bodyOutcome conditionalOutcome
  rw [body]
  simp only [hp]
  cases TagHeader.ofPiece? p with
  | none => rfl
  | some h =>
    simp only
    split
    · cases (conditional cfg (d + 1) h ts).2 with
      | error e => rfl
      | ok x =>
        obtain ⟨c, r⟩ := x
        simp only [Except.map]
        cases (body cfg d r.1).2 with
        | error e => rfl
        | ok y => obtain ⟨ns, _ | s⟩ := y <;> rfl
    · split <;> rfl

/-- An `if` whose conditional fails fails the body with the same error. -/
theorem bodyOutcome_if_error {p : Piece} {h : TagHeader} {ts : List Piece} {e : SyntaxError}
    (hp : p.kind = .tag) (hh : TagHeader.ofPiece? p = some h) (hif : h.name = "if")
    (hc : conditionalOutcome cfg (d + 1) h ts = .error e) :
    bodyOutcome cfg d (p :: ts) = .error e := by
  rw [bodyOutcome_tag hp, hh]
  simp only [hif, if_true, hc]

/-- After an `if` whose conditional reads, the body goes on after its `endif`. -/
theorem bodyOutcome_if_ok {p : Piece} {h : TagHeader} {ts r : List Piece} {c : Conditional Node}
    (hp : p.kind = .tag) (hh : TagHeader.ofPiece? p = some h) (hif : h.name = "if")
    (hc : conditionalOutcome cfg (d + 1) h ts = .ok (c, r)) :
    bodyOutcome cfg d (p :: ts) = (bodyOutcome cfg d r).map fun x => (.conditional c :: x.1, x.2) := by
  rw [bodyOutcome_tag hp, hh]
  simp only [hif, if_true, hc]

theorem conditionalOutcome_eq {h : TagHeader} {ts : List Piece} :
    conditionalOutcome cfg d h ts =
      if cfg.maxNestingDepth < d then
        .error { fault := .nestingTooDeep cfg.maxNestingDepth, markup := some h.markup,
                 line := some h.line }
      else
        match (Conditional.start cfg.errorMode cfg.maxChainLength h.markup).2 with
        | .error e => .error (e.withLine h.line)
        | .ok c => armsOutcome cfg d h c ts := by
  unfold conditionalOutcome armsOutcome
  rw [conditional]
  split
  · rfl
  · obtain ⟨n, r⟩ := Conditional.start (α := Node) cfg.errorMode cfg.maxChainLength h.markup
    cases r with
    | error e => rfl
    | ok c =>
      obtain ⟨n', r'⟩ := arms cfg d h c ts
      rfl

theorem armsOutcome_eq {h : TagHeader} {c : Conditional Node} {ts : List Piece} :
    armsOutcome cfg d h c ts =
      match bodyOutcome cfg d ts with
      | .error e => .error e
      | .ok (_, none) => .error { fault := .neverClosed, markup := some h.markup, line := some h.line }
      | .ok (nodes, some (stop, r)) =>
        if stop.name = "endif" then
          match (c.appendAll nodes).close with
          | .error e => .error (e.withLine stop.line)
          | .ok c' => .ok (c', r)
        else
          match (if stop.name = "elsif" then
              ((c.appendAll nodes).pushElsif cfg.errorMode cfg.maxChainLength stop.markup).2
            else ((c.appendAll nodes).pushElse cfg.errorMode stop.markup).2) with
          | .error e => .error (e.withLine stop.line)
          | .ok c' => armsOutcome cfg d h c' r := by
  unfold armsOutcome bodyOutcome
  rw [arms]
  obtain ⟨n₁, r₁⟩ := body cfg d ts
  cases r₁ with
  | error e => rfl
  | ok x =>
    obtain ⟨nodes, _ | ⟨stop, r⟩⟩ := x
    · rfl
    · by_cases hend : stop.name = "endif"
      · simp only [Except.map, hend, if_true, Option.map_some]
        cases (c.appendAll nodes).close <;> rfl
      -- both headers go on reading branches after their own
      · by_cases helsif : stop.name = "elsif"
        · simp only [Except.map, if_neg hend, if_pos helsif, Option.map_some]
          obtain ⟨n₂, r₂⟩ := (c.appendAll nodes).pushElsif cfg.errorMode cfg.maxChainLength stop.markup
          cases r₂ with
          | error e => rfl
          | ok c' =>
            dsimp only
            obtain ⟨n₃, r₃⟩ := arms cfg d h c' r.1
            cases r₃ <;> rfl
        · simp only [Except.map, if_neg hend, if_neg helsif, Option.map_some]
          obtain ⟨n₂, r₂⟩ := (c.appendAll nodes).pushElse cfg.errorMode stop.markup
          cases r₂ with
          | error e => rfl
          | ok c' =>
            dsimp only
            obtain ⟨n₃, r₃⟩ := arms cfg d h c' r.1
            cases r₃ <;> rfl

end Reading

namespace Piece

/-- `p` is a tag whose header `h` has the name `name`. -/
def Tag (p : Piece) (name : String) (h : TagHeader) : Prop :=
  p.kind = .tag ∧ TagHeader.ofPiece? p = some h ∧ h.name = name

end Piece

namespace Conditional

/-- A conditional with the `elsif` branches `alts` after its own and the `else` body `els`. -/
def addBranches (c : Conditional Node) (alts : List (Chain × List Node))
    (els : Option (List Node)) : Conditional Node :=
  { c with alternatives := c.alternatives ++ alts, otherwise := els }

theorem addBranches_nil {c : Conditional Node} (h : c.otherwise = none) : c.addBranches [] none = c := by
  cases c
  simp_all [addBranches]

theorem addBranches_cons (c : Conditional Node) (g : Chain) (ns : List Node)
    (alts : List (Chain × List Node)) (els : Option (List Node)) :
    c.addBranches ((g, ns) :: alts) els =
      ({ c with alternatives := c.alternatives ++ [(g, ns)] } : Conditional Node).addBranches alts els := by
  simp [addBranches]

theorem addBranches_else (c : Conditional Node) (ns : List Node) :
    c.addBranches [] (some ns) = { c with otherwise := some ns } := by
  simp [addBranches]

/-- A conditional starts with its `if` branch and an empty body. -/
theorem start_ok_iff {mode : Mode} {limit : Int} {markup : String} {c : Conditional Node} :
    (Conditional.start mode limit markup).2 = .ok c ↔
      ∃ g, (mode.read limit markup).2 = .ok g ∧ c = { guard := g } := by
  unfold start
  cases h : (mode.read limit markup).2 <;> simp [Except.map, h, eq_comm]

/-- Adding nodes does not change how far a conditional is built. -/
@[simp] theorem state_appendAll (c : Conditional Node) (ns : List Node) :
    (c.appendAll ns).state = c.state := by
  unfold appendAll
  split
  · rename_i b h
    simp [state, h]
  · split <;> rfl

/-- Nodes added after an `elsif` go into its branch. -/
theorem appendAll_elsif {c : Conditional Node} (g : Chain) (ns : List Node) (h : c.otherwise = none) :
    ({ c with alternatives := c.alternatives ++ [(g, [])] } : Conditional Node).appendAll ns =
      { c with alternatives := c.alternatives ++ [(g, ns)] } := by
  simp [appendAll, h]

/-- Nodes added after an `else` go into its body. -/
theorem appendAll_else (c : Conditional Node) (ns : List Node) :
    ({ c with otherwise := some [] } : Conditional Node).appendAll ns = { c with otherwise := some ns } :=
  rfl

/-- Closing an open conditional succeeds. It keeps the guards of the branches in order, and their
bodies, except that when all of them are blank their white-space text is dropped. -/
theorem close_open {c : Conditional Node} (h : c.closed = false) :
    ∃ c', c.close = .ok c' ∧ c'.closed = true ∧ c'.arms.map Prod.fst = c.arms.map Prod.fst ∧
      (c'.arms = c.arms ∨ c'.arms = c.arms.map fun a => (a.1, Node.dropBlankText a.2)) := by
  obtain ⟨g, body, alts, els, closed⟩ := c
  subst h
  unfold close
  rw [if_neg (by simp)]
  split
  · refine ⟨_, rfl, rfl, ?_, .inr ?_⟩ <;> cases els <;> simp [arms, Function.comp_def]
  · exact ⟨_, rfl, rfl, rfl, .inl rfl⟩

end Conditional

/-- The markup of a tag header has no white space at either end. -/
theorem TagHeader.strip_markup {p : Piece} {h : TagHeader} (hp : TagHeader.ofPiece? p = some h) :
    Text.strip h.markup.toList = h.markup.toList := by
  simp only [TagHeader.ofPiece?] at hp
  split at hp
  · cases hp
  · cases hp
    simp [Operand.strip_strip]

namespace Template

mutual

/-- `Body cfg d ps ns`: the tokens `ps` are a body at nesting depth `d` (the number of
conditionals around it), with the nodes `ns`. -/
inductive Body (cfg : Config) : Nat → List Piece → List Node → Prop
  | nil {d : Nat} : Body cfg d [] []
  | text {d : Nat} {p : Piece} {ps : List Piece} {ns : List Node} :
      p.kind = .text → Body cfg d ps ns → Body cfg d (p :: ps) (.text p.value :: ns)
  | output {d : Nat} {p : Piece} {o : Operand} {ps : List Piece} {ns : List Node} :
      p.kind = .output → Operand.parse p.value = .ok o → Body cfg d ps ns →
      Body cfg d (p :: ps) (.output o :: ns)
  /-- A conditional, one level deeper: its `if` tag, its body and its branches, closed. -/
  | cond {d : Nat} {p : Piece} {h : TagHeader} {g : Chain} {ps qs rest : List Piece}
      {ns nodes : List Node} {alts : List (Chain × List Node)} {els : Option (List Node)}
      {c : Conditional Node} :
      p.Tag "if" h → ((d + 1 : Nat) : Int) ≤ cfg.maxNestingDepth →
      (cfg.errorMode.read cfg.maxChainLength h.markup).2 = .ok g →
      Body cfg (d + 1) ps ns → Branches cfg (d + 1) qs alts els →
      (Conditional.mk g ns alts els false).close = .ok c →
      Body cfg d rest nodes → Body cfg d (p :: ps ++ qs ++ rest) (.conditional c :: nodes)

/-- `Branches cfg d ps alts els`: after the body of an `if`, the tokens `ps` are the `elsif`
branches `alts` and the `else` body `els`, each with its tag, and the `endif` tag. -/
inductive Branches (cfg : Config) : Nat → List Piece → List (Chain × List Node) →
    Option (List Node) → Prop
  | endif {d : Nat} {p : Piece} {h : TagHeader} : p.Tag "endif" h → Branches cfg d [p] [] none
  | elsif {d : Nat} {p : Piece} {h : TagHeader} {g : Chain} {ps qs : List Piece} {ns : List Node}
      {alts : List (Chain × List Node)} {els : Option (List Node)} :
      p.Tag "elsif" h → (cfg.errorMode.read cfg.maxChainLength h.markup).2 = .ok g →
      Body cfg d ps ns → Branches cfg d qs alts els →
      Branches cfg d (p :: ps ++ qs) ((g, ns) :: alts) els
  | otherwise {d : Nat} {p e : Piece} {h he : TagHeader} {ps : List Piece} {ns : List Node} :
      p.Tag "else" h → (cfg.errorMode = .strict → h.markup = "") → Body cfg d ps ns →
      e.Tag "endif" he → Branches cfg d (p :: ps ++ [e]) [] (some ns)

end

/-- What may follow a body, and what the body reader reports for it: nothing or the end token,
reported as no tag, or a tag that ends a body, reported with the tokens after it. -/
inductive Stop : List Piece → Option (TagHeader × List Piece) → Prop
  | nil : Stop [] none
  | eof {p : Piece} {r : List Piece} : p.kind = .eof → Stop (p :: r) none
  | tag {p : Piece} {h : TagHeader} {r : List Piece} :
      p.kind = .tag → TagHeader.ofPiece? p = some h → Reading.endsBody h.name = true →
      Stop (p :: r) (some (h, r))

variable {cfg : Config}

theorem ne_if_of_endsBody {name : String} (h : Reading.endsBody name = true) : name ≠ "if" := by
  rintro rfl
  simp [Reading.endsBody] at h

/-- A tag whose name ends a body stops it. -/
theorem Stop.of_tag {p : Piece} {name : String} {h : TagHeader} {r : List Piece} (hp : p.Tag name h)
    (hname : Reading.endsBody name = true) : Stop (p :: r) (some (h, r)) :=
  .tag hp.1 hp.2.1 (hp.2.2 ▸ hname)

/-- A body reads nothing before what may follow it. -/
theorem bodyOutcome_of_stop {d : Nat} {rest : List Piece} {stop : Option (TagHeader × List Piece)} :
    Stop rest stop → Reading.bodyOutcome cfg d rest = .ok ([], stop)
  | .nil => Reading.bodyOutcome_nil
  | .eof hp => Reading.bodyOutcome_eof hp
  | .tag hp hh hends => by
    rw [Reading.bodyOutcome_tag hp, hh]
    simp only [if_neg (ne_if_of_endsBody hends), hends, if_true]

/-- In strict mode an `else` tag pushes only when its markup is empty. -/
theorem else_markup {p : Piece} {h : TagHeader} (hh : TagHeader.ofPiece? p = some h) :
    (Text.strip h.markup.toList).isEmpty = true ↔ h.markup = "" := by
  rw [TagHeader.strip_markup hh, List.isEmpty_iff, String.toList_eq_nil_iff]

/-! ### Completeness: the reader accepts every derivation -/

theorem otherwise_appendAll {c : Conditional Node} (hc : c.state = .awaitingBranch) (ns : List Node) :
    (c.appendAll ns).otherwise = none :=
  ((Conditional.state_eq_awaiting_iff _).mp ((Conditional.state_appendAll c ns).trans hc)).1

mutual

/-- A body derivation is read to its nodes, up to what follows it. -/
theorem body_complete : ∀ {d : Nat} {toks : List Piece} {ns : List Node}, Body cfg d toks ns →
    ∀ {rest : List Piece} {stop : Option (TagHeader × List Piece)}, Stop rest stop →
      Reading.bodyOutcome cfg d (toks ++ rest) = .ok (ns, stop)
  | _, _, _, .nil, _, _, hs => bodyOutcome_of_stop hs
  | _, _, _, .text hp hb, _, _, hs => by
    rw [List.cons_append, Reading.bodyOutcome_text hp, body_complete hb hs]
    rfl
  | _, _, _, .output hp ho hb, _, _, hs => by
    rw [List.cons_append, Reading.bodyOutcome_output hp, ho]
    simp only
    rw [body_complete hb hs]
    rfl
  | _, _, _, @Body.cond _ d p hd g ps qs rest' ns nodes alts els c ⟨hk, hh, hif⟩ hdepth hg hbody hbr
      hclose hrest, rest, _, hs => by
    simp only [List.cons_append, List.append_assoc]
    -- the conditional ends at its `endif`, and the body goes on after it
    have hstart : (Conditional.start cfg.errorMode cfg.maxChainLength hd.markup).2 = .ok { guard := g } :=
      Conditional.start_ok_iff.mpr ⟨g, hg, rfl⟩
    have hc : Reading.conditionalOutcome cfg (d + 1) hd (ps ++ (qs ++ (rest' ++ rest))) =
        .ok (c, rest' ++ rest) := by
      rw [Reading.conditionalOutcome_eq, if_neg (by omega), hstart]
      exact branches_complete hbr rfl hclose fun _ hs' => body_complete hbody hs'
    rw [Reading.bodyOutcome_if_ok hk hh hif hc, body_complete hrest hs]
    rfl

/-- After a body with the nodes `nodes`, a derivation of branches closes the conditional `c` into
the one built from all of them. -/
theorem branches_complete : ∀ {d : Nat} {qs : List Piece} {alts : List (Chain × List Node)}
    {els : Option (List Node)}, Branches cfg d qs alts els →
    ∀ {h : TagHeader} {c c' : Conditional Node} {ts rest : List Piece} {nodes : List Node},
      c.state = .awaitingBranch → ((c.appendAll nodes).addBranches alts els).close = .ok c' →
      (∀ stop, Stop (qs ++ rest) stop → Reading.bodyOutcome cfg d ts = .ok (nodes, stop)) →
      Reading.armsOutcome cfg d h c ts = .ok (c', rest)
  | _, _, _, _, .endif htag, _, c, _, _, rest, nodes, hc, hclose, hbody => by
    rw [Conditional.addBranches_nil (otherwise_appendAll hc nodes)] at hclose
    rw [Reading.armsOutcome_eq, hbody _ (.of_tag htag (by decide))]
    simp only [htag.2.2, if_true, hclose]
    rfl
  | _, _, _, _, @Branches.elsif _ d p hd g ps qs ns alts els htag hg hb hbr, _, c, c', _,
      rest, nodes, hc, hclose, hbody => by
    have hstop := hbody _ (.of_tag (r := ps ++ qs ++ rest) htag (by decide))
    -- the `elsif` adds its branch, and the rest of the branches are read into it
    have hpush : ((c.appendAll nodes).pushElsif cfg.errorMode cfg.maxChainLength hd.markup).2 =
        .ok { c.appendAll nodes with alternatives := (c.appendAll nodes).alternatives ++ [(g, [])] } :=
      Conditional.pushElsif_eq_ok_iff.mpr ⟨(Conditional.state_appendAll c nodes).trans hc, g, hg, rfl⟩
    have hclose' : ((({ c.appendAll nodes with
        alternatives := (c.appendAll nodes).alternatives ++ [(g, [])] } : Conditional Node).appendAll
          ns).addBranches alts els).close = .ok c' := by
      rwa [Conditional.appendAll_elsif _ _ (otherwise_appendAll hc nodes),
        ← Conditional.addBranches_cons]
    rw [Reading.armsOutcome_eq, hstop]
    simp only [htag.2.2, if_true, hpush, if_neg (show ¬("elsif" = "endif") by decide)]
    exact branches_complete hbr ((Conditional.state_appendAll c nodes).trans hc) hclose' fun _ hs => by
      rw [List.append_assoc]
      exact body_complete hb hs
  | _, _, _, _, @Branches.otherwise _ d p e hd he ps ns htag hstrict hb etag, _, c, c', _, rest,
      nodes, hc, hclose, hbody => by
    have hstop := hbody _ (.of_tag (r := ps ++ [e] ++ rest) htag (by decide))
    -- the `else` adds the last branch, whose body ends at the `endif`
    have hpush : ((c.appendAll nodes).pushElse cfg.errorMode hd.markup).2 =
        .ok { c.appendAll nodes with otherwise := some [] } :=
      Conditional.pushElse_eq_ok_iff.mpr ⟨(Conditional.state_appendAll c nodes).trans hc,
        fun hm => (else_markup htag.2.1).mpr (hstrict hm), rfl⟩
    have hend : Reading.bodyOutcome cfg d (ps ++ [e] ++ rest) = .ok (ns, some (he, rest)) := by
      rw [List.append_assoc]
      exact body_complete hb (.of_tag etag (by decide))
    rw [Reading.armsOutcome_eq, hstop]
    simp only [htag.2.2, hpush, if_neg (show ¬("else" = "endif") by decide),
      if_neg (show ¬("else" = "elsif") by decide)]
    rw [Reading.armsOutcome_eq, hend]
    rw [Conditional.addBranches_else] at hclose
    simp only [etag.2.2, if_true, Conditional.appendAll_else, hclose]

end

/-- A conditional within the nesting limit, with an `if` header that reads, a body and branches
that close it, is read whole, up to the tokens after its `endif`. -/
theorem conditional_complete {d : Nat} {hd : TagHeader} {g : Chain} {ps qs rest : List Piece}
    {ns : List Node} {alts : List (Chain × List Node)} {els : Option (List Node)}
    {c : Conditional Node} (hdepth : (d : Int) ≤ cfg.maxNestingDepth)
    (hg : (cfg.errorMode.read cfg.maxChainLength hd.markup).2 = .ok g) (hbody : Body cfg d ps ns)
    (hbr : Branches cfg d qs alts els) (hclose : (Conditional.mk g ns alts els false).close = .ok c) :
    Reading.conditionalOutcome cfg d hd (ps ++ qs ++ rest) = .ok (c, rest) := by
  have hstart : (Conditional.start cfg.errorMode cfg.maxChainLength hd.markup).2 = .ok { guard := g } :=
    Conditional.start_ok_iff.mpr ⟨g, hg, rfl⟩
  rw [Reading.conditionalOutcome_eq, if_neg (by omega), hstart, List.append_assoc]
  exact branches_complete hbr rfl hclose fun _ hs => body_complete hbody hs

/-! ### Soundness: what the reader accepts is a derivation -/

/-- One step of the body reader at a tag: an `if` reads a conditional and the body goes on after
it; a tag that ends a body stops it. -/
theorem bodyOutcome_tag_ok {d : Nat} {p : Piece} {ts : List Piece} {ns : List Node}
    {stop : Option (TagHeader × List Piece)} (hk : p.kind = .tag)
    (h : Reading.bodyOutcome cfg d (p :: ts) = .ok (ns, stop)) :
    ∃ hd, TagHeader.ofPiece? p = some hd ∧
      ((hd.name = "if" ∧ ∃ c r ns', Reading.conditionalOutcome cfg (d + 1) hd ts = .ok (c, r) ∧
          Reading.bodyOutcome cfg d r = .ok (ns', stop) ∧ ns = .conditional c :: ns') ∨
        (Reading.endsBody hd.name = true ∧ ns = [] ∧ stop = some (hd, ts))) := by
  rw [Reading.bodyOutcome_tag hk] at h
  split at h
  · cases h
  rename_i hd hh
  refine ⟨hd, hh, ?_⟩
  split at h
  · -- an `if`: a conditional, then the rest of the body
    rename_i hif
    split at h
    · cases h
    rename_i c r hc
    obtain ⟨⟨ns', stop'⟩, h', hx⟩ := Except.map_eq_ok.mp h
    cases hx
    exact .inl ⟨hif, c, r, ns', hc, h', rfl⟩
  · -- a tag that ends the body, or an unknown one
    split at h
    · cases h
      exact .inr ⟨‹_›, rfl, rfl⟩
    · cases h

/-- One step of the branch reader: a body up to a tag that ends it, then either the `endif`, which
closes the conditional, or an `elsif` or an `else`, which adds a branch to read on from. -/
theorem armsOutcome_ok {d : Nat} {hd : TagHeader} {c c' : Conditional Node} {ts r : List Piece}
    (h : Reading.armsOutcome cfg d hd c ts = .ok (c', r)) :
    ∃ nodes stop r₁, Reading.bodyOutcome cfg d ts = .ok (nodes, some (stop, r₁)) ∧
      ((stop.name = "endif" ∧ r₁ = r ∧ (c.appendAll nodes).close = .ok c') ∨
        (stop.name = "elsif" ∧ ∃ c₂,
          ((c.appendAll nodes).pushElsif cfg.errorMode cfg.maxChainLength stop.markup).2 = .ok c₂ ∧
          Reading.armsOutcome cfg d hd c₂ r₁ = .ok (c', r)) ∨
        (stop.name ≠ "endif" ∧ stop.name ≠ "elsif" ∧ ∃ c₂,
          ((c.appendAll nodes).pushElse cfg.errorMode stop.markup).2 = .ok c₂ ∧
          Reading.armsOutcome cfg d hd c₂ r₁ = .ok (c', r))) := by
  rw [Reading.armsOutcome_eq] at h
  -- the body read, up to a tag that ends it
  split at h
  · cases h
  · cases h
  rename_i nodes stop r₁ hb
  refine ⟨nodes, stop, r₁, hb, ?_⟩
  split at h
  · -- `endif`: the close must succeed
    rename_i hend
    split at h
    · cases h
    · rename_i c₁ hcl
      cases h
      exact .inl ⟨hend, rfl, hcl⟩
  · -- `elsif` or `else`: the push must succeed, and the branches go on
    rename_i hend
    split at h
    · cases h
    rename_i c₂ hp
    split at hp
    · exact .inr (.inl ⟨‹_›, c₂, hp, h⟩)
    · exact .inr (.inr ⟨hend, ‹_›, c₂, hp, h⟩)

theorem else_of_endsBody {name : String} (h : Reading.endsBody name = true) (hend : name ≠ "endif")
    (helsif : name ≠ "elsif") : name = "else" := by
  simp only [Reading.endsBody, decide_eq_true_eq] at h
  rcases h with h | h | h
  · exact absurd h helsif
  · exact h
  · exact absurd h hend

mutual

/-- What the body reader returns is a body derivation followed by what may follow a body. -/
theorem body_sound {d : Nat} {ts : List Piece} {ns : List Node}
    {stop : Option (TagHeader × List Piece)} (h : Reading.bodyOutcome cfg d ts = .ok (ns, stop)) :
    ∃ toks rest, ts = toks ++ rest ∧ Body cfg d toks ns ∧ Stop rest stop := by
  match ts, h with
  | [], h =>
    rw [Reading.bodyOutcome_nil] at h
    cases h
    exact ⟨[], [], rfl, .nil, .nil⟩
  | p :: ts, h =>
    cases hk : p.kind with
    | eof =>
      rw [Reading.bodyOutcome_eof hk] at h
      cases h
      exact ⟨[], p :: ts, rfl, .nil, .eof hk⟩
    | text =>
      rw [Reading.bodyOutcome_text hk] at h
      obtain ⟨⟨ns', stop'⟩, h', hx⟩ := Except.map_eq_ok.mp h
      cases hx
      obtain ⟨toks, rest, rfl, hb, hs⟩ := body_sound h'
      exact ⟨p :: toks, rest, rfl, .text hk hb, hs⟩
    | output =>
      rw [Reading.bodyOutcome_output hk] at h
      cases ho : Operand.parse p.value with
      | error f =>
        rw [ho] at h
        cases h
      | ok o =>
        rw [ho] at h
        obtain ⟨⟨ns', stop'⟩, h', hx⟩ := Except.map_eq_ok.mp h
        cases hx
        obtain ⟨toks, rest, rfl, hb, hs⟩ := body_sound h'
        exact ⟨p :: toks, rest, rfl, .output hk ho hb, hs⟩
    | tag =>
      obtain ⟨hd, hh, ⟨hif, c, r, ns', hc, h', rfl⟩ | ⟨hends, rfl, rfl⟩⟩ := bodyOutcome_tag_ok hk h
      · -- the conditional comes first, then the body goes on after its `endif`
        obtain ⟨hdepth, g, ps, qs, nsb, alts, els, hg, rfl, hbody, hbr, hclose⟩ := conditional_sound hc
        obtain ⟨toks, rest, rfl, hb, hs⟩ := body_sound h'
        exact ⟨p :: ps ++ qs ++ toks, rest, by simp,
          .cond ⟨hk, hh, hif⟩ (by omega) hg hbody hbr hclose hb, hs⟩
      · exact ⟨[], p :: ts, rfl, .nil, .tag hk hh hends⟩
termination_by (ts.length, 0)

/-- What the conditional reader returns is a body and branches within the nesting limit, from an
`if` header that reads. -/
theorem conditional_sound {d : Nat} {hd : TagHeader} {ts : List Piece} {c : Conditional Node}
    {r : List Piece} (h : Reading.conditionalOutcome cfg d hd ts = .ok (c, r)) :
    (d : Int) ≤ cfg.maxNestingDepth ∧ ∃ g ps qs ns alts els,
      (cfg.errorMode.read cfg.maxChainLength hd.markup).2 = .ok g ∧ ts = ps ++ qs ++ r ∧
      Body cfg d ps ns ∧ Branches cfg d qs alts els ∧
      (Conditional.mk g ns alts els false).close = .ok c := by
  rw [Reading.conditionalOutcome_eq] at h
  by_cases hdepth : cfg.maxNestingDepth < d
  · rw [if_pos hdepth] at h
    cases h
  rw [if_neg hdepth] at h
  cases hs : (Conditional.start cfg.errorMode cfg.maxChainLength hd.markup).2 with
  | error e =>
    rw [hs] at h
    cases h
  | ok c₀ =>
    rw [hs] at h
    obtain ⟨g, hg, rfl⟩ := Conditional.start_ok_iff.mp hs
    obtain ⟨ps, qs, ns, alts, els, rfl, hbody, hbr, hclose⟩ := arms_sound rfl h
    exact ⟨by omega, g, ps, qs, ns, alts, els, hg, rfl, hbody, hbr, hclose⟩
termination_by (ts.length, 2)

/-- What the branch reader returns, on a conditional that waits for a branch, is a body followed
by branches that close the conditional. -/
theorem arms_sound {d : Nat} {hd : TagHeader} {c c' : Conditional Node} {ts r : List Piece}
    (hc : c.state = .awaitingBranch) (h : Reading.armsOutcome cfg d hd c ts = .ok (c', r)) :
    ∃ ps qs ns alts els, ts = ps ++ qs ++ r ∧ Body cfg d ps ns ∧ Branches cfg d qs alts els ∧
      ((c.appendAll ns).addBranches alts els).close = .ok c' := by
  obtain ⟨nodes, stop, r₁, hb, hstep⟩ := armsOutcome_ok h
  obtain ⟨ps, _, rfl, hbody, hs⟩ := body_sound hb
  cases hs with | tag hk hh hends =>
  have hnone := otherwise_appendAll hc nodes
  rcases hstep with ⟨hend, rfl, hcl⟩ | ⟨helsif, c₂, hp, h'⟩ | ⟨hend, helsif, c₂, hp, h'⟩
  · refine ⟨ps, [_], nodes, [], none, by simp, hbody, .endif ⟨hk, hh, hend⟩, ?_⟩
    rwa [Conditional.addBranches_nil hnone]
  · -- an `elsif`: its branch is read by the same reader
    obtain ⟨-, g, hg, rfl⟩ := Conditional.pushElsif_eq_ok_iff.mp hp
    obtain ⟨ps', qs', ns', alts', els', rfl, hbody', hbr', hclose'⟩ :=
      arms_sound (by exact (Conditional.state_appendAll c nodes).trans hc) h'
    refine ⟨ps, _ :: ps' ++ qs', nodes, (g, ns') :: alts', els', by simp, hbody,
      .elsif ⟨hk, hh, helsif⟩ hg hbody' hbr', ?_⟩
    rwa [Conditional.appendAll_elsif _ _ hnone, ← Conditional.addBranches_cons] at hclose'
  · -- an `else`: only its body and the `endif` may follow
    obtain ⟨-, hstrict, rfl⟩ := Conditional.pushElse_eq_ok_iff.mp hp
    have hclosed := ((Conditional.state_eq_awaiting_iff _).mp
      ((Conditional.state_appendAll c nodes).trans hc)).2
    obtain ⟨ps', e, he, ns', rfl, hbody', he', hclose'⟩ :=
      arms_sound_else (by exact (Conditional.state_eq_otherwise_iff _).mpr ⟨rfl, hclosed⟩) h'
    refine ⟨ps, _ :: ps' ++ [e], nodes, [], some ns', by simp, hbody,
      .otherwise ⟨hk, hh, else_of_endsBody hends hend helsif⟩
        (fun hm => (else_markup hh).mp (hstrict hm)) hbody' he', ?_⟩
    rwa [Conditional.addBranches_else, ← Conditional.appendAll_else]
termination_by (ts.length, 1)

/-- After an `else` the branch reader accepts only its body and the `endif`. -/
theorem arms_sound_else {d : Nat} {hd : TagHeader} {c c' : Conditional Node} {ts r : List Piece}
    (hc : c.state = .otherwise) (h : Reading.armsOutcome cfg d hd c ts = .ok (c', r)) :
    ∃ ps e he ns, ts = ps ++ e :: r ∧ Body cfg d ps ns ∧ e.Tag "endif" he ∧
      (c.appendAll ns).close = .ok c' := by
  obtain ⟨nodes, stop, r₁, hb, hstep⟩ := armsOutcome_ok h
  obtain ⟨ps, _, rfl, hbody, hs⟩ := body_sound hb
  cases hs with | tag hk hh hends =>
  have hs : (c.appendAll nodes).state = .otherwise := (Conditional.state_appendAll c nodes).trans hc
  rcases hstep with ⟨hend, rfl, hcl⟩ | ⟨-, c₂, hp, -⟩ | ⟨-, -, c₂, hp, -⟩
  · exact ⟨ps, _, stop, nodes, rfl, hbody, ⟨hk, hh, hend⟩, hcl⟩
  -- a second `elsif` or `else` is refused
  · have := (Conditional.pushElsif_eq_ok_iff.mp hp).1
    rw [hs] at this
    cases this
  · have := (Conditional.pushElse_eq_ok_iff.mp hp).1
    rw [hs] at this
    cases this
termination_by (ts.length, 1)

end

/-! ### Whole templates -/

theorem markupAt_kind {cs : List Char} {at_ : Place} {kind : PieceKind} {opener : String}
    {a b : Char} {p : Piece} {n : Nat} (h : Piece.markupAt cs at_ kind opener a b = .ok (p, n)) :
    p.kind = kind := by
  simp only [Piece.markupAt] at h
  split at h
  · cases h
    rfl
  · cases h

/-- A token read from non-empty text is never the end token. -/
theorem next_kind {cs : List Char} {at_ : Place} {p : Piece} {n : Nat}
    (h : Piece.next cs at_ = .ok (p, n)) : p.kind ≠ .eof := by
  unfold Piece.next at h
  split at h
  · rw [markupAt_kind h]
    decide
  · rw [markupAt_kind h]
    decide
  · cases h
    simp

/-- The scanner ends the tokens with the end token, and puts it nowhere else. -/
theorem scanFrom_shape {cs : List Char} {at_ : Place} {done ts : List Piece}
    (hdone : ∀ p ∈ done, p.kind ≠ .eof) (h : Piece.scanFrom cs at_ done = .ok ts) :
    ∃ toks e, ts = toks ++ [e] ∧ e.kind = .eof ∧ ∀ p ∈ toks, p.kind ≠ .eof := by
  fun_induction Piece.scanFrom cs at_ done with
  | case1 at_ done =>
    cases h
    exact ⟨done.reverse, _, rfl, rfl, fun p hp => hdone p (List.mem_reverse.mp hp)⟩
  | case2 => cases h
  | case3 cs at_ done hne piece n hnext k hlt ih =>
    exact ih (List.forall_mem_cons.mpr ⟨next_kind hnext, hdone⟩) h

mutual

/-- A body has no end token. -/
theorem Body.no_eof : ∀ {d : Nat} {toks : List Piece} {ns : List Node}, Body cfg d toks ns →
    ∀ p ∈ toks, p.kind ≠ .eof
  | _, _, _, .nil, _, hp => nomatch hp
  | _, _, _, .text hk hb, _, hp => by
    rcases List.mem_cons.mp hp with rfl | hp
    · rw [hk]
      decide
    · exact Body.no_eof hb _ hp
  | _, _, _, .output hk _ hb, _, hp => by
    rcases List.mem_cons.mp hp with rfl | hp
    · rw [hk]
      decide
    · exact Body.no_eof hb _ hp
  | _, _, _, .cond ⟨hk, _, _⟩ _ _ hbody hbr _ hrest, _, hp => by
    simp only [List.cons_append, List.mem_cons, List.mem_append] at hp
    rcases hp with rfl | (hp | hp) | hp
    · rw [hk]
      decide
    · exact Body.no_eof hbody _ hp
    · exact Branches.no_eof hbr _ hp
    · exact Body.no_eof hrest _ hp

theorem Branches.no_eof : ∀ {d : Nat} {qs : List Piece} {alts : List (Chain × List Node)}
    {els : Option (List Node)}, Branches cfg d qs alts els → ∀ p ∈ qs, p.kind ≠ .eof
  | _, _, _, _, .endif ⟨hk, _, _⟩, _, hp => by
    rw [List.mem_singleton.mp hp, hk]
    decide
  | _, _, _, _, .elsif ⟨hk, _, _⟩ _ hb hbr, _, hp => by
    simp only [List.cons_append, List.mem_cons, List.mem_append] at hp
    rcases hp with rfl | hp | hp
    · rw [hk]
      decide
    · exact Body.no_eof hb _ hp
    · exact Branches.no_eof hbr _ hp
  | _, _, _, _, .otherwise ⟨hk, _, _⟩ _ hb ⟨ek, _, _⟩, _, hp => by
    simp only [List.cons_append, List.mem_cons, List.mem_append, List.not_mem_nil, or_false] at hp
    rcases hp with rfl | hp | rfl
    · rw [hk]
      decide
    · exact Body.no_eof hb _ hp
    · rw [ek]
      decide

end

/-- A body read from the tokens of a whole template runs up to their end token. -/
theorem body_of_scan {toks rest xs : List Piece} {e : Piece} {d : Nat} {ns : List Node}
    (hxs : ∀ p ∈ xs, p.kind ≠ .eof) (he : e.kind = .eof) (heq : toks ++ rest = xs ++ [e]) (hb : Body cfg d toks ns)
    (hs : Stop rest none) : toks = xs ∧ rest = [e] := by
  cases hs with
  | nil =>
    -- the end token would be in the body
    rw [List.append_nil] at heq
    exact absurd he (Body.no_eof hb e (heq ▸ List.mem_append_right xs (List.mem_singleton_self e)))
  | eof hp =>
    rename_i p r
    rcases List.eq_nil_or_concat r with rfl | ⟨r', x, rfl⟩
    · have := List.append_inj' heq rfl
      exact ⟨this.1, this.2⟩
    · -- an end token before the last would be one of the scanned tokens
      simp only [List.concat_eq_append, ← List.cons_append, ← List.append_assoc] at heq
      have hmem : p ∈ xs := by
        rw [← (List.append_inj' heq rfl).1]
        simp
      exact absurd hp (hxs p hmem)

/-- A template reads exactly when its tokens read as a body that runs to their end. -/
theorem parse_body_iff {source : String} {cfg : Config} {nodes : List Node} :
    (∃ t, (Template.parse source cfg).2 = .ok t ∧ t.body = nodes) ↔
      ∃ pieces, Piece.scan source = .ok pieces ∧
        Reading.bodyOutcome cfg 0 pieces = .ok (nodes, none) := by
  unfold Template.parse Reading.bodyOutcome
  cases Piece.scan source with
  | error err => simp
  | ok pieces =>
    simp only [Except.ok.injEq, exists_eq_left']
    obtain ⟨n, r⟩ := Reading.body cfg 0 pieces
    cases r with
    | error err => simp [Except.map]
    | ok x =>
      -- a body that stops at a tag is a stray `elsif`, `else` or `endif`
      obtain ⟨ns, _ | ⟨stop, _⟩⟩ := x
      · simp [Except.map]
      · simp [Except.map]

/-- A template reads, to the nodes `nodes`, exactly when its text scans into tokens whose last is
the end token and whose others derive `nodes` as a body at the top level.

The grammar fixes the outcome of every step: which tags may stand where, that every header and
output reads, the nesting limit and the `else` arguments, and each conditional as the closed
construct of its branches in order. The reader keeps no state between templates, the nesting
depth being an argument of `Body`. -/
theorem parse_ok_iff (source : String) (cfg : Config) (nodes : List Node) :
    (∃ t, (Template.parse source cfg).2 = .ok t ∧ t.body = nodes) ↔
      ∃ toks e, Piece.scan source = .ok (toks ++ [e]) ∧ e.kind = .eof ∧ Body cfg 0 toks nodes := by
  rw [parse_body_iff]
  constructor
  · rintro ⟨pieces, hscan, hb⟩
    obtain ⟨xs, e, rfl, he, hxs⟩ := scanFrom_shape (by simp) hscan
    obtain ⟨toks, rest, heq, hbody, hs⟩ := body_sound hb
    -- the top-level body runs up to the end token
    obtain ⟨rfl, rfl⟩ := body_of_scan hxs he heq.symm hbody hs
    exact ⟨toks, e, hscan, he, hbody⟩
  · rintro ⟨toks, e, hscan, he, hbody⟩
    exact ⟨_, hscan, body_complete hbody (Stop.eof (r := []) he)⟩

end Template

end Branching
