import Branching.Proofs.LenientText

/-!
# Where the two header grammars agree

The strict and the lenient grammar cut a header in different places. The strict lexer reads it
character by character, so a keyword glued to the next character (`and(`) is still a keyword.
The lenient parser cuts the header into words at white space, so `and(b..c)` is one word, and its
chunk pattern takes a lower-case word as an operator. The header `a and(b..c)` is read by both:
as `a` and `(b..c)` joined by `and` in the strict mode, as the comparison of `a` with `(b..c)` by
the operator `and` in the lenient one.

On headers in printed form the two agree. Take a chain the strict parser reads whose words are no
keywords and whose operands print as runs of the lenient grammar's units; both parsers read its
text as that chain. The strict half is `Strict.parse_text`. For the lenient half every link must
print to words the lenient grammar reads back (`Lenient.Printable`): the strict parser's operands
are read from their markups, and its operators are lenient operators.

## Main statements

- `Strict.printable_of_parse`: the links of such a chain are printable in the lenient grammar.
- `Mode.read_printed_agree`: both modes read the text of such a chain as the chain.
-/

namespace Branching

namespace Lenient

open Operand

/-- Each operand of the link prints as a run of the lenient grammar's operand units: quoted
strings, bracket and parenthesis groups up to their first closing character, and lone characters
other than white space and `,|"'=!<>[(`. -/
def UnitOperands (l : Link) : Prop :=
  Run fragmentSingle l.left.markup.toList ∧
    ∀ op r, l.comparison = some (op, r) → Run fragmentSingle r.markup.toList

/-- A link whose operand markups have only lone units has its operands in units. -/
theorem unitOperands_of_singles {l : Link}
    (hl : ∀ c ∈ l.left.markup.toList, fragmentSingle c = true)
    (hr : ∀ op r, l.comparison = some (op, r) → ∀ c ∈ r.markup.toList, fragmentSingle c = true) :
    UnitOperands l :=
  ⟨run_of_singles hl, fun op r h => run_of_singles (hr op r h)⟩

end Lenient

namespace Strict

open Token Operand

/-- The comparison operators of the strict grammar are operators of the lenient grammar. -/
theorem isOperator_of_comparison {v : String} (h : v ∈ comparisonTexts) :
    Lenient.IsOperator v.toList := by
  simp only [comparisonTexts, List.mem_cons, List.not_mem_nil, or_false] at h
  -- the symbols are runs of `=!<>`, and `contains` a lower-case word
  rcases h with rfl | rfl | rfl | rfl | rfl | rfl | rfl
  all_goals refine ⟨by decide, ?_⟩
  iterate 6 exact .inl (Text.forall_mem_of_all (by decide))
  exact .inr (Text.forall_mem_of_all (by decide))

/-- An operand the strict parser reads is read back from its markup in the lenient grammar, once
that markup is a run of units. -/
theorem rereads_of_joined {toks : List Token} {o : Operand} (h : OperandToks toks o)
    (hsh : ∀ t ∈ toks, Shaped t) (hr : ReadsJoined toks)
    (hrun : Lenient.Run Lenient.fragmentSingle o.markup.toList) : Lenient.Rereads o := by
  obtain ⟨hm, hp⟩ := markup_of_readsJoined h hsh hr
  rw [← hm] at hp
  refine ⟨hrun, fun hnil => ?_, hp⟩
  -- a text that reads as an operand has something in it
  have hstrip := strip_ne_nil_of_parseChars hp
  rw [hnil] at hstrip
  exact hstrip rfl

/-- A link the strict parser reads, with its operands in units, is printable. -/
theorem printable_of_linkToks {toks : List Token} {l : Link} (h : LinkToks ReadsJoined toks l)
    (hsh : ∀ t ∈ toks, Shaped t) (hunits : Lenient.UnitOperands l) : Lenient.Printable l := by
  cases h with
  | single hder hr =>
    refine ⟨rereads_of_joined hder hsh hr hunits.1, fun op r hc => ?_⟩
    cases hc
  | @compare ts us t o p hder hr hk hder2 hr2 =>
    have hsh₁ : ∀ u ∈ ts, Shaped u := fun u hu => hsh u (List.mem_append_left _ hu)
    have hshk : Shaped t := hsh t (List.mem_append_right _ List.mem_cons_self)
    have hsh₂ : ∀ u ∈ us, Shaped u := fun u hu =>
      hsh u (List.mem_append_right _ (List.mem_cons_of_mem _ hu))
    refine ⟨rereads_of_joined hder hsh₁ hr hunits.1, fun op r hc => ?_⟩
    cases hc
    -- the operator token is one of the comparison texts
    have hv : t.value ∈ comparisonTexts := by
      unfold Shaped at hshk
      rw [hk] at hshk
      exact hshk
    exact ⟨isOperator_of_comparison hv, rereads_of_joined hder2 hsh₂ hr2 (hunits.2 _ _ rfl)⟩

/-- The links after the first of a chain the strict parser reads, with their operands in units,
are printable. -/
theorem printable_of_linksToks {ts : List Token} {rest : List (Combinator × Link)}
    (h : LinksToks ReadsJoined ts rest) (hsh : ∀ t ∈ ts, Shaped t)
    (hunits : ∀ p ∈ rest, Lenient.UnitOperands p.2) : ∀ p ∈ rest, Lenient.Printable p.2 := by
  induction h with
  | done => simp
  | more _ _ hlink _ ih =>
    intro p hp
    rcases List.mem_cons.1 hp with rfl | hp
    · exact printable_of_linkToks hlink (fun t ht => hsh t (by simp [ht]))
        (hunits _ List.mem_cons_self)
    · exact ih (fun t ht => hsh t (by simp [ht])) (fun q hq => hunits q (List.mem_cons_of_mem _ hq))
        p hp

/-- The links of a chain the strict parser reads are printable in the lenient grammar, once their
operands print as runs of units. -/
theorem printable_of_parse {limit : Int} (hlim : 1 ≤ limit) {markup : String} {c : Chain}
    (h : parse limit markup = .ok c) (hunits : ∀ l ∈ c.links, Lenient.UnitOperands l) :
    ∀ l ∈ c.links, Lenient.Printable l := by
  obtain ⟨ts, hscan, ⟨hs, rs, rfl, hlink, hrest⟩, -⟩ := chainToks_of_parse hlim h
  have hS := scanned_of_scan hscan
  obtain ⟨hlink', hSr⟩ := linkToks_joined hlink hS
  have hrest' := linksToks_joined hrest hSr
  intro l hl
  rcases List.mem_cons.1 hl with rfl | hl
  · exact printable_of_linkToks hlink' (fun t ht => hS.shaped t (by simp [ht]))
      (hunits _ List.mem_cons_self)
  · obtain ⟨p, hp, rfl⟩ := List.mem_map.1 hl
    exact printable_of_linksToks hrest' (fun t ht => hS.shaped t (by simp [ht]))
      (fun q hq => hunits q.2 (List.mem_cons_of_mem _ (List.mem_map_of_mem hq))) p hp

end Strict

/-- The two modes agree on headers in printed form: when the strict parser reads a chain whose
words are no keywords and whose operands print as runs of the lenient grammar's units, both the
strict and the lenient mode read the chain's text as that chain. -/
theorem Mode.read_printed_agree {limit : Int} (hlim : 1 ≤ limit) {markup : String} {c : Chain}
    (h : (Mode.strict.read limit markup).2 = .ok c)
    (hkw : ∀ l ∈ c.links, ∀ w ∈ l.words, w ≠ "and" ∧ w ≠ "or")
    (hunits : ∀ l ∈ c.links, Lenient.UnitOperands l) :
    (Mode.strict.read limit c.text).2 = .ok c ∧ (Mode.lax.read limit c.text).2 = .ok c := by
  obtain ⟨-, -, -, hlen⟩ := Strict.chainToks_of_parse hlim h
  exact ⟨Strict.parse_text hlim h,
    Lenient.parse_printed (Strict.printable_of_parse hlim h hunits) hkw hlen⟩

/-- Three links, a path with a lookup among them, read alike in both modes. -/
theorem Mode.read_printed_agree_three_links :
    (Mode.strict.read 50 (Chain.text ⟨⟨.path (.name "count") [], some ("==", .literal (.int 3) "3")⟩,
        [(.and, ⟨.path (.name "user") [.name "age"], some (">=", .literal (.int 42) "42")⟩),
          (.or, ⟨.path (.name "nothing") [], none⟩)]⟩)).2 =
      .ok ⟨⟨.path (.name "count") [], some ("==", .literal (.int 3) "3")⟩,
        [(.and, ⟨.path (.name "user") [.name "age"], some (">=", .literal (.int 42) "42")⟩),
          (.or, ⟨.path (.name "nothing") [], none⟩)]⟩ ∧
    (Mode.lax.read 50 (Chain.text ⟨⟨.path (.name "count") [], some ("==", .literal (.int 3) "3")⟩,
        [(.and, ⟨.path (.name "user") [.name "age"], some (">=", .literal (.int 42) "42")⟩),
          (.or, ⟨.path (.name "nothing") [], none⟩)]⟩)).2 =
      .ok ⟨⟨.path (.name "count") [], some ("==", .literal (.int 3) "3")⟩,
        [(.and, ⟨.path (.name "user") [.name "age"], some (">=", .literal (.int 42) "42")⟩),
          (.or, ⟨.path (.name "nothing") [], none⟩)]⟩ :=
  Mode.read_printed_agree (by decide)
    (show (Mode.strict.read 50 "count == 3 and user.age >= 42 or nothing").2 = .ok _ by
      with_unfolding_all rfl)
    (by decide)
    (by
      intro l hl
      simp only [Chain.links, List.map_cons, List.map_nil, List.mem_cons, List.not_mem_nil,
        or_false] at hl
      rcases hl with rfl | rfl | rfl <;>
        exact Lenient.unitOperands_of_singles (Text.forall_mem_of_all (by decide))
          (by rintro _ _ ⟨⟩ <;> exact Text.forall_mem_of_all (by decide)))

/-- The two modes read `a and(b..c)` as different chains: `a` and `(b..c)` joined by `and` in the
strict mode, the comparison of `a` with `(b..c)` by the operator `and` in the lenient mode. -/
theorem Mode.read_glued_keyword_differs :
    (Mode.strict.read 50 "a and(b..c)").2 =
        .ok ⟨⟨.path (.name "a") [], none⟩,
          [(.and, ⟨.range (.path (.name "b") []) (.path (.name "c") []), none⟩)]⟩ ∧
      (Mode.lax.read 50 "a and(b..c)").2 =
        .ok ⟨⟨.path (.name "a") [], some ("and", .range (.path (.name "b") []) (.path (.name "c") []))⟩,
          []⟩ :=
  ⟨by with_unfolding_all rfl, by with_unfolding_all rfl⟩

end Branching
