import Branching.Template.Conditional

/-!
# Building a conditional, step by step

A conditional is built by calls in any order: `elsif` and `else` headers, the close at `endif`,
nodes added to the body of the last branch, and renders. A call that fails leaves the conditional
as it was; the strict errors that warn mode records while reading a header are kept whether the
call succeeds or not.

This module follows a conditional through any run of such calls from the one its `if` header
creates. Each call is described once (`attempt_ok`: what a call that succeeds changes;
`attempt_closed`: the calls refused after the close; `fallbacks_of_attempt_error`: what a call that
fails records), and the laws of a run follow by induction along it.

## Main statements

- `Build.arms_length_run`, `Build.closed_run`: the number of branches and whether the conditional
  is closed, after a run, through the calls of the run that succeeded.
- `Build.step_error`: a call that fails keeps the conditional, and records a strict error exactly
  when warn mode reads an `elsif` header that strict reading refuses.
- `Build.run_laws`: the laws of a conditional after any run of calls from its creation, together
  (`Build.Lawful`).
-/

namespace Branching

@[simp] theorem Except.mapError_ok {ε ε' α : Type} (f : ε → ε') (a : α) :
    (Except.ok a : Except ε α).mapError f = .ok a := rfl

@[simp] theorem Except.mapError_error {ε ε' α : Type} (f : ε → ε') (e : ε) :
    (Except.error e : Except ε α).mapError f = .error (f e) := rfl

@[simp] theorem Except.mapError_eq_ok {ε ε' α : Type} {f : ε → ε'} {x : Except ε α} {a : α} :
    x.mapError f = .ok a ↔ x = .ok a := by
  cases x <;> simp

theorem Except.map_eq_ok {ε α β : Type} {f : α → β} {x : Except ε α} {b : β} :
    x.map f = .ok b ↔ ∃ a, x = .ok a ∧ f a = b := by
  cases x <;> simp [Except.map]

theorem Except.map_eq_error {ε α β : Type} {f : α → β} {x : Except ε α} {e : ε} :
    x.map f = .error e ↔ x = .error e := by
  cases x <;> simp [Except.map]

namespace Conditional

/-! ### The shape of a conditional -/

theorem arms_length (c : Conditional Node) :
    c.arms.length = c.alternatives.length + (if c.otherwise.isSome then 1 else 0) + 1 := by
  cases h : c.otherwise <;> simp [arms, h]

/-- Every branch but the last is guarded: the only unconditional branch is an `else` at the end. -/
theorem guarded_of_mem_dropLast (c : Conditional Node) :
    ∀ a ∈ c.arms.dropLast, a.1.isSome := by
  intro a ha
  have hsub : a ∈ (some c.guard, c.body) :: c.alternatives.map (fun p => (some p.1, p.2)) := by
    cases h : c.otherwise with
    | none => exact List.dropLast_subset _ (by simpa [arms, h] using ha)
    | some b =>
      have : c.arms.dropLast = (some c.guard, c.body) :: c.alternatives.map (fun p => (some p.1, p.2)) := by
        simp only [arms, h, Option.map_some, Option.toList_some]
        rw [List.dropLast_concat]
      rwa [this] at ha
  simp only [List.mem_cons, List.mem_map] at hsub
  rcases hsub with rfl | ⟨p, -, rfl⟩ <;> rfl

/-- The last branch is unconditional exactly when the conditional has an `else`. -/
theorem last_unconditional_iff (c : Conditional Node) :
    (∃ body, c.arms.getLast? = some (none, body)) ↔ c.otherwise.isSome := by
  cases h : c.otherwise with
  | some b =>
    simp only [arms, h, Option.map_some, Option.toList_some, Option.isSome_some, iff_true]
    exact ⟨b, by rw [List.getLast?_concat]⟩
  | none =>
    simp only [Option.isSome_none, Bool.false_eq_true, iff_false, not_exists]
    intro body hlast
    have hmem := List.mem_of_getLast? hlast
    simp [arms, h] at hmem

theorem state_eq_closed_iff (c : Conditional Node) : c.state = .closed ↔ c.closed = true := by
  unfold state
  cases c.closed <;> cases c.otherwise.isSome <;> decide

theorem state_eq_otherwise_iff (c : Conditional Node) :
    c.state = .otherwise ↔ c.otherwise.isSome ∧ c.closed = false := by
  unfold state
  cases c.closed <;> cases c.otherwise.isSome <;> decide

theorem state_eq_awaiting_iff (c : Conditional Node) :
    c.state = .awaitingBranch ↔ c.otherwise = none ∧ c.closed = false := by
  unfold state
  cases c.closed <;> cases c.otherwise <;> simp

/-- Adding nodes to the last body changes neither the branches nor the state. -/
theorem appendAll_shape (c : Conditional Node) (ns : List Node) :
    (c.appendAll ns).arms.length = c.arms.length ∧ (c.appendAll ns).closed = c.closed := by
  unfold appendAll
  split
  · rename_i b h
    simp [arms_length, h]
  · split
    · rename_i h g b earlier hrev
      have hlen : c.alternatives.length = earlier.length + 1 := by
        simpa using congrArg List.length hrev
      simp [arms_length, hlen]
    · simp [arms_length]

/-! ### One call -/

section Calls

variable {mode : Mode} {limit : Int} {c c' : Conditional Node}

/-- An `elsif` succeeds exactly on a conditional that waits for a branch, with a header that reads;
it adds the guarded branch with an empty body. -/
theorem pushElsif_eq_ok_iff {markup : String} :
    (c.pushElsif mode limit markup).2 = .ok c' ↔
      c.state = .awaitingBranch ∧ ∃ g, (mode.read limit markup).2 = .ok g ∧
        c' = { c with alternatives := c.alternatives ++ [(g, [])] } := by
  unfold pushElsif
  cases hs : c.state with
  | otherwise => simp
  | closed => simp
  | awaitingBranch =>
    cases hr : (mode.read limit markup).2 with
    | error e => simp [hr, Except.map]
    | ok g => simp [hr, Except.map, eq_comm]

/-- An `else` succeeds exactly on a conditional that waits for a branch, and in strict mode only
without arguments; it adds the unconditional branch with an empty body. -/
theorem pushElse_eq_ok_iff {markup : String} :
    (c.pushElse mode markup).2 = .ok c' ↔
      c.state = .awaitingBranch ∧ (mode = .strict → (Text.strip markup.toList).isEmpty = true) ∧
        c' = { c with otherwise := some [] } := by
  unfold pushElse
  cases hs : c.state with
  | otherwise => simp
  | closed => simp
  | awaitingBranch =>
    simp only [true_and]
    by_cases he : (Text.strip markup.toList).isEmpty = true
    · simp [he, eq_comm]
    · by_cases hm : mode = .strict <;> simp [he, hm, eq_comm]

/-- A close that succeeds closes an open conditional and keeps its branches. -/
theorem close_ok (h : c.close = .ok c') :
    c.closed = false ∧ c'.closed = true ∧ c'.arms.length = c.arms.length := by
  unfold close at h
  split at h
  · cases h
  · rename_i hc
    simp only [Bool.not_eq_true] at hc
    split at h <;> cases h <;> simp [hc, arms_length]

/-- A close of a conditional that is already closed fails. -/
theorem close_closed (h : c.closed = true) : ∃ e, c.close = .error e := by
  simp [close, h]

end Calls

/-! ### Calls and runs -/

/-- A call on a conditional being built. -/
inductive Step where
  /-- An `elsif` tag with its header. -/
  | elsif (markup : String)
  /-- An `else` tag with what follows `else` in it. -/
  | otherwise (markup : String)
  /-- The `endif` tag. -/
  | close
  /-- A node added to the body of the last branch. -/
  | append (n : Node)
  | render (ctx : Context)

/-- Whether a call adds a branch. -/
def Step.pushes : Step → Bool
  | .elsif _ | .otherwise _ => true
  | _ => false

/-- A call on a conditional: the notices it raises, and the conditional after it or the error it
fails with. A render reads the conditional and leaves it as it is. -/
def attempt (mode : Mode) (limit : Int) (c : Conditional Node) :
    Step → List Notice × Except Error (Conditional Node)
  | .elsif m => ((c.pushElsif mode limit m).1, (c.pushElsif mode limit m).2.mapError .malformed)
  | .otherwise m => ((c.pushElse mode m).1, (c.pushElse mode m).2.mapError .malformed)
  | .close => ([], c.close.mapError .malformed)
  | .append n => ([], .ok (c.appendAll [n]))
  | .render ctx => ([], ((Node.conditional c).render ctx).map fun _ => c)

/-- Warn mode records the strict error `e` at the call `s` on `c`: `s` is an `elsif` read while `c`
waits for a branch, and strict reading refuses its header with `e`. The limit on the digits of an
integer is no refusal of the header's grammar: it stops every mode alike and nothing records it. -/
def Records (mode : Mode) (limit : Int) (c : Conditional Node) (s : Step) (e : SyntaxError) : Prop :=
  mode = .warn ∧ c.state = .awaitingBranch ∧
    ∃ m, s = .elsif m ∧ Strict.parse limit m = .error e ∧ e.fault.isLimit = false

section Attempt

variable {mode : Mode} {limit : Int} {c c' : Conditional Node} {s : Step}

/-- What a call that succeeds changes: a call that adds a branch adds one, and the conditional is
closed after it exactly when it was closed before or the call was the close. -/
theorem attempt_ok (h : (attempt mode limit c s).2 = .ok c') :
    c'.arms.length = c.arms.length + (if s.pushes then 1 else 0) ∧
      (c'.closed = true ↔ c.closed = true ∨ s = .close) := by
  cases s with
  | elsif m =>
    obtain ⟨hs, g, -, rfl⟩ := pushElsif_eq_ok_iff.mp (Except.mapError_eq_ok.mp h)
    simp [arms_length, Step.pushes]
    omega
  | otherwise m =>
    obtain ⟨hs, -, rfl⟩ := pushElse_eq_ok_iff.mp (Except.mapError_eq_ok.mp h)
    simp [arms_length, Step.pushes, ((state_eq_awaiting_iff c).mp hs).1]
  | close =>
    obtain ⟨-, hc', hlen⟩ := close_ok (Except.mapError_eq_ok.mp h)
    simp [hc', hlen, Step.pushes]
  | append n =>
    cases h
    simp [appendAll_shape, Step.pushes]
  | render ctx =>
    obtain ⟨_, -, rfl⟩ := Except.map_eq_ok.mp h
    simp [Step.pushes]

/-- Once the conditional is closed, every header and every close fails. -/
theorem attempt_closed (hc : c.closed = true) (hs : s.pushes = true ∨ s = .close) :
    ∃ e, (attempt mode limit c s).2 = .error e := by
  have hstate : c.state = .closed := (state_eq_closed_iff c).mpr hc
  cases s with
  | elsif m => simp [attempt, pushElsif, hstate]
  | otherwise m => simp [attempt, pushElse, hstate]
  | close =>
    obtain ⟨e, he⟩ := close_closed hc
    simp [attempt, he]
  | append n => simp [Step.pushes] at hs
  | render ctx => simp [Step.pushes] at hs

/-- An `else` reads no header, so it records no strict error. -/
theorem fallbacks_pushElse {m : String} : Notice.fallbacks (c.pushElse mode m).1 = [] := by
  unfold pushElse
  split
  · rfl
  · rfl
  · dsimp only
    split
    · rfl
    · split <;> rfl

/-- What a call that fails records: the strict error of an `elsif` header when warn mode
`Records` one, and nothing otherwise. -/
theorem fallbacks_of_attempt_error {err : Error} (h : (attempt mode limit c s).2 = .error err) :
    (Notice.fallbacks (attempt mode limit c s).1 = [] ∧ ∀ e, ¬ Records mode limit c s e) ∨
      ∃ e, Notice.fallbacks (attempt mode limit c s).1 = [e] ∧ Records mode limit c s e := by
  cases s with
  | elsif m =>
    simp only [attempt, pushElsif] at h ⊢
    cases hs : c.state with
    | otherwise => left; simp [Notice.fallbacks, Records, hs]
    | closed => left; simp [Notice.fallbacks, Records, hs]
    | awaitingBranch =>
      simp only [hs] at h ⊢
      -- only warn mode reads past a strict refusal, and only a refusal of the grammar
      cases mode with
      | lax => left; simp [Mode.read, Notice.fallbacks, Records]
      | strict => left; simp [Mode.read, Notice.fallbacks, Records]
      | warn =>
        cases hp : Strict.parse limit m with
        | ok g => simp [Mode.read, hp, Except.map] at h
        | error e =>
          cases hl : e.fault.isLimit
          · right
            exact ⟨e, by simp [Mode.read, hp, hl, Notice.fallbacks], rfl, hs, m, rfl, hp, hl⟩
          · left
            refine ⟨by simp [Mode.read, hp, hl, Notice.fallbacks], ?_⟩
            rintro e' ⟨-, -, m', hm, hp', hl'⟩
            cases hm
            rw [hp] at hp'
            cases hp'
            simp [hl] at hl'
  | otherwise m => left; exact ⟨fallbacks_pushElse, fun e ⟨_, _, m', hm, _⟩ => by cases hm⟩
  | close => left; exact ⟨rfl, fun e ⟨_, _, m', hm, _⟩ => by cases hm⟩
  | append n => cases h
  | render ctx => left; exact ⟨rfl, fun e ⟨_, _, m', hm, _⟩ => by cases hm⟩

end Attempt

/-! ### Runs -/

/-- A conditional being built, with the strict errors warn mode has recorded while reading its
headers. -/
structure Build where
  chain : Conditional Node
  warnings : List SyntaxError

namespace Build

variable (mode : Mode) (limit : Int)

/-- The build after a call: a call that fails keeps the conditional as it was; the strict errors
the call recorded are kept whether it fails or not. -/
def step (b : Build) (s : Step) : Build :=
  { chain :=
      match (attempt mode limit b.chain s).2 with
      | .ok c => c
      | .error _ => b.chain
    warnings := b.warnings ++ Notice.fallbacks (attempt mode limit b.chain s).1 }

/-- The build after a run of calls. -/
def run (b : Build) (ss : List Step) : Build := ss.foldl (step mode limit) b

/-- The calls of a run that succeed, in order. -/
def succeeded (b : Build) : List Step → List Step
  | [] => []
  | s :: ss =>
    (if (attempt mode limit b.chain s).2.isOk then [s] else []) ++ succeeded (b.step mode limit s) ss

variable {mode limit}

@[simp] theorem run_nil (b : Build) : b.run mode limit [] = b := rfl

@[simp] theorem run_cons (b : Build) (s : Step) (ss : List Step) :
    b.run mode limit (s :: ss) = (b.step mode limit s).run mode limit ss := rfl

theorem step_of_ok {b : Build} {s : Step} {c : Conditional Node}
    (h : (attempt mode limit b.chain s).2 = .ok c) : (b.step mode limit s).chain = c := by
  simp [step, h]

/-- A call that fails leaves the conditional as it was. -/
theorem step_of_error {b : Build} {s : Step} {e : Error}
    (h : (attempt mode limit b.chain s).2 = .error e) : (b.step mode limit s).chain = b.chain := by
  simp [step, h]

/-- The number of branches after a run: one more for each call that added a branch. -/
theorem arms_length_run (b : Build) (ss : List Step) :
    (b.run mode limit ss).chain.arms.length =
      b.chain.arms.length + (b.succeeded mode limit ss).countP Step.pushes := by
  induction ss generalizing b with
  | nil => rfl
  | cons s ss ih =>
    rw [run_cons, ih, succeeded]
    cases h : (attempt mode limit b.chain s).2 with
    | error e => simp [step_of_error h, Except.isOk, Except.toBool]
    | ok c =>
      have hlen := (attempt_ok h).1
      simp only [step_of_ok h, hlen, Except.isOk, Except.toBool, if_true, List.singleton_append,
        List.countP_cons]
      split <;> omega

/-- The conditional is closed after a run exactly when it was closed before or a close of the run
succeeded. -/
theorem closed_run (b : Build) (ss : List Step) :
    (b.run mode limit ss).chain.closed = true ↔
      b.chain.closed = true ∨ .close ∈ b.succeeded mode limit ss := by
  induction ss generalizing b with
  | nil => simp [succeeded]
  | cons s ss ih =>
    rw [run_cons, ih, succeeded]
    cases h : (attempt mode limit b.chain s).2 with
    | error e => simp [step_of_error h, Except.isOk, Except.toBool]
    | ok c =>
      have hclosed := (attempt_ok h).2
      simp only [step_of_ok h, Except.isOk, Except.toBool, if_true, List.singleton_append,
        List.mem_cons, hclosed]
      rw [or_assoc, @eq_comm _ s]

/-- A call that fails keeps the conditional, and adds to the recorded strict errors exactly the
error warn mode `Records` for it, if any. -/
theorem step_error {b : Build} {s : Step} {err : Error}
    (h : (attempt mode limit b.chain s).2 = .error err) :
    (b.step mode limit s).chain = b.chain ∧
      (((b.step mode limit s).warnings = b.warnings ∧ ∀ e, ¬ Records mode limit b.chain s e) ∨
        ∃ e, (b.step mode limit s).warnings = b.warnings ++ [e] ∧ Records mode limit b.chain s e) := by
  refine ⟨step_of_error h, ?_⟩
  rcases fallbacks_of_attempt_error h with ⟨hnone, hno⟩ | ⟨e, hone, hrec⟩
  · exact .inl ⟨by simp [step, hnone], hno⟩
  · exact .inr ⟨e, by simp [step, hone], hrec⟩

/-- The laws of a conditional built by the run `ss` from `b₀`, given the calls `done` of the run
that succeeded. -/
structure Lawful (mode : Mode) (limit : Int) (b : Build) (done : List Step) : Prop where
  /-- The first branch is the guarded `if` branch. -/
  head_guarded : ∃ g body rest, b.chain.arms = (some g, body) :: rest
  /-- Every branch but the last is guarded. -/
  guarded_but_last : ∀ a ∈ b.chain.arms.dropLast, a.1.isSome
  /-- The `else` state: the last branch is unconditional and no close succeeded. -/
  otherwise_iff :
    b.chain.state = .otherwise ↔ (∃ body, b.chain.arms.getLast? = some (none, body)) ∧ .close ∉ done
  /-- The closed state: a close succeeded. -/
  closed_iff : b.chain.state = .closed ↔ .close ∈ done
  /-- After the close every header and every close fails. -/
  refuses_after_close : b.chain.state = .closed →
    ∀ s, s.pushes = true ∨ s = .close → ∃ e, (attempt mode limit b.chain s).2 = .error e
  /-- One branch more than the calls that added a branch. -/
  arms_length : b.chain.arms.length = 1 + done.countP Step.pushes
  /-- A call that fails keeps the conditional and records only what warn mode `Records`. -/
  step_error : ∀ s err, (attempt mode limit b.chain s).2 = .error err →
    (b.step mode limit s).chain = b.chain ∧
      (((b.step mode limit s).warnings = b.warnings ∧ ∀ e, ¬ Records mode limit b.chain s e) ∨
        ∃ e, (b.step mode limit s).warnings = b.warnings ++ [e] ∧ Records mode limit b.chain s e)

/-- A conditional created from its `if` header has one branch and is open. -/
theorem start_shape {markup : String} {ns : List Notice} {c : Conditional Node}
    (h : Conditional.start mode limit markup = (ns, .ok c)) : c.arms.length = 1 ∧ c.closed = false := by
  unfold Conditional.start at h
  cases hr : (mode.read limit markup).2 with
  | error e => simp [hr, Except.map] at h
  | ok g =>
    simp only [hr, Except.map, Prod.mk.injEq, Except.ok.injEq] at h
    obtain ⟨-, rfl⟩ := h
    simp [arms]

/-- Over every run of calls from the conditional an `if` header creates, whatever the strict
errors recorded before: its first branch is the guarded `if` branch and every branch but the last
is guarded; it is in the `else` state exactly when its last branch is unconditional and no close
succeeded, and closed exactly when a close succeeded, after which every header and close fails; it
has one branch more than the calls that added one; and a call that fails keeps it as it was,
recording a strict error only where warn mode `Records` one. -/
theorem run_laws {markup : String} {ns : List Notice} {c : Conditional Node}
    (hstart : Conditional.start mode limit markup = (ns, .ok c)) (ws : List SyntaxError)
    (ss : List Step) :
    Lawful mode limit ((Build.mk c (ws ++ Notice.fallbacks ns)).run mode limit ss)
      ((Build.mk c (ws ++ Notice.fallbacks ns)).succeeded mode limit ss) := by
  obtain ⟨hone, hopen⟩ := start_shape hstart
  have hclosed := @closed_run mode limit ⟨c, ws ++ Notice.fallbacks ns⟩ ss
  simp only [hopen, Bool.false_eq_true, false_or] at hclosed
  refine ⟨⟨_, _, _, rfl⟩, guarded_of_mem_dropLast _, ?_, ?_, ?_, ?_, fun s err h => step_error h⟩
  · rw [state_eq_otherwise_iff, last_unconditional_iff, ← hclosed]
    simp
  · rw [state_eq_closed_iff, hclosed]
  · intro hc s hs
    exact attempt_closed ((state_eq_closed_iff _).mp hc) hs
  · rw [arms_length_run, hone]

/-- The conditional `if a` in warn mode, taken through an `elsif` header that reads in neither
grammar, an `else`, a second `else` and the close. -/
theorem run_laws_warn_if :
    Conditional.start (α := Node) .warn 50 "a" = ([], .ok { guard := ⟨⟨.path (.name "a") [], none⟩, []⟩ }) ∧
      Lawful .warn 50
        ((Build.mk { guard := ⟨⟨.path (.name "a") [], none⟩, []⟩ } ([] ++ Notice.fallbacks [])).run
          .warn 50 [.elsif "b ==", .otherwise "", .otherwise "", .close])
        ((Build.mk { guard := ⟨⟨.path (.name "a") [], none⟩, []⟩ } ([] ++ Notice.fallbacks [])).succeeded
          .warn 50 [.elsif "b ==", .otherwise "", .otherwise "", .close]) :=
  have hstart : Conditional.start (α := Node) .warn 50 "a" =
      ([], .ok { guard := ⟨⟨.path (.name "a") [], none⟩, []⟩ }) := by with_unfolding_all rfl
  ⟨hstart, run_laws hstart [] _⟩

end Build

end Conditional

end Branching
