import Branching.Proofs.LenientSplit

/-!
# The chain bound cuts chains and changes none

A header is read with a bound on the number of comparisons in its chain. The lenient reader counts
the chunks of the split header before it reads any of them; the strict reader counts at each
keyword. Nothing else either reader does depends on the bound, so under a bound `n` a reader gives
what it gives under any larger bound `N`, or the bound error (`parse_limit_cases`). From there the
bound only cuts (`BoundCuts`): a header reads under `n` exactly when it reads under `N`, an
unbounded reading among them, to a chain of at most `n` links, the same chain, and a longer chain
is refused with the bound error.

Warn mode reads strictly and falls back to the lenient reader on a syntax error, the bound error
included. The law holds in warn mode whenever the strict reader does not stop at the bound; when it
does, the fallback reads the header leniently under the same bound, and the two grammars need not
count the same links.

## Main statements

- `Strict.parse_bound`, `Lenient.parse_bound`: each reader obeys the law.
- `Mode.read_bound`: the law in each mode, and the lenient fallback where the strict reader stops
  at the bound in warn mode.
-/

namespace Branching

/-- The law of a bound on a reader: against a larger bound `N`, the reading under `n` gives a chain
exactly when the reading under `N` gives it with at most `n` links, and a longer chain is refused
with the bound error. -/
def BoundCuts (read : Int → Except SyntaxError Chain) (markup : String) (n N : Nat) : Prop :=
  (∀ c, read n = .ok c ↔ read N = .ok c ∧ c.length ≤ n) ∧
  ∀ c, read N = .ok c → n < c.length →
    read n = .error { fault := .chainTooLong n, markup := some markup }

namespace BoundCuts

variable {read : Int → Except SyntaxError Chain} {markup : String} {n N : Nat}

/-- The law of a bound follows from three facts of a reader: under `n` it gives what it gives under
`N` or the bound error, a chain it reads under `n` has at most `n` links, and a chain read under `N`
that fits under `n` is read under `n` too. -/
theorem of_limit_cases
    (hcases : read n = read N ∨ read n = .error { fault := .chainTooLong n, markup := some markup })
    (hlen : ∀ {c}, read n = .ok c → c.length ≤ n)
    (hfit : ∀ {c}, read N = .ok c → c.length ≤ n → read n = .ok c) :
    BoundCuts read markup n N := by
  refine ⟨fun c => ⟨fun h => ?_, fun ⟨h, hle⟩ => hfit h hle⟩, fun c h hover => ?_⟩
  · rcases hcases with heq | hfail
    · exact ⟨heq ▸ h, hlen h⟩
    · rw [hfail] at h
      cases h
  · rcases hcases with heq | hfail
    · -- the chain would be read under `n` as well, where it cannot have more than `n` links
      have := hlen (heq.trans h)
      omega
    · exact hfail

/-- A reader that gives the same under both bounds, and under `n` no chain longer than `n`, obeys
the law. -/
theorem of_eq (heq : read n = read N) (hlen : ∀ {c}, read n = .ok c → c.length ≤ n) :
    BoundCuts read markup n N :=
  of_limit_cases (.inl heq) hlen fun h _ => heq ▸ h

end BoundCuts

namespace Strict

/-- The bound only stops the links: under a smaller bound they are read as under the larger one,
or refused with the bound error at the first keyword past it. -/
theorem links_limit_cases {markup : String} {n N : Int} (hnN : n ≤ N) (count : Nat)
    (ts : List Token) :
    links markup n count ts = links markup N count ts ∨
      links markup n count ts = fail markup (.chainTooLong n) := by
  fun_induction links markup n count ts with
  | case1 count t rest c hkw hlim => exact .inr rfl
  | case2 count t rest c hkw hlim e hcmp =>
    rw [dite_eq_ite] at hkw
    have hlim' : ¬ N < count + 1 := by omega
    exact .inl (by rw [links.eq_1]; simp only [hkw, if_neg hlim', hcmp])
  | case3 count t rest c hkw hlim link r hcmp hlen e hlinks ih =>
    rw [dite_eq_ite] at hkw
    rcases ih with heq | hfail
    · have hlim' : ¬ N < count + 1 := by omega
      exact .inl (by rw [links.eq_1]; simp only [hkw, if_neg hlim', hcmp, ← heq, hlinks])
    · -- the bound stopped the links further on
      rw [hlinks] at hfail
      cases hfail
      exact .inr rfl
  | case4 count t rest c hkw hlim link r hcmp hlen more left hlinks ih =>
    rw [dite_eq_ite] at hkw
    rcases ih with heq | hfail
    · have hlim' : ¬ N < count + 1 := by omega
      exact .inl (by rw [links.eq_1]; simp only [hkw, if_neg hlim', hcmp, ← heq, hlinks])
    · rw [hlinks] at hfail
      cases hfail
  | case5 count t rest hkw =>
    rw [dite_eq_ite] at hkw
    exact .inl (by rw [links.eq_1]; simp only [hkw])
  | case6 count => exact .inl (by rw [links.eq_2])

/-- Under a smaller bound the strict reader gives what it gives under a larger one, or the bound
error. -/
theorem parse_limit_cases {n N : Int} (hnN : n ≤ N) (markup : String) :
    parse n markup = parse N markup ∨
      parse n markup = .error { fault := .chainTooLong n, markup := some markup } := by
  unfold parse
  cases Token.scan markup with
  | error e => exact .inl rfl
  | ok ts =>
    simp only
    by_cases hend : (current ts).kind = .eof
    · exact .inl (by simp only [hend, if_true])
    · simp only [hend, if_false]
      cases comparison markup ts with
      | error e => exact .inl rfl
      | ok hr =>
        obtain ⟨head, r⟩ := hr
        simp only
        rcases links_limit_cases hnN 1 r.1 with heq | hfail
        · exact .inl (by rw [heq])
        · exact .inr (by rw [hfail]; rfl)

/-- The strict reader obeys the law of the bound. -/
theorem parse_bound (markup : String) {n N : Nat} (hn : 1 ≤ n) (hN : n ≤ N) :
    BoundCuts (parse · markup) markup n N := by
  refine BoundCuts.of_limit_cases (parse_limit_cases (by omega) markup) (fun h => ?_)
    (fun h hle => ?_)
  · obtain ⟨-, -, -, hlen⟩ := chainToks_of_parse (by omega) h
    omega
  · -- the tokens that derive the chain under `N` derive it under `n`
    obtain ⟨ts, hscan, hc, -⟩ := chainToks_of_parse (by omega) h
    exact parse_of_chainToks hscan hc (by omega)

end Strict

namespace Lenient

/-- Under a smaller bound the lenient reader gives what it gives under a larger one, or the bound
error. -/
theorem parse_limit_cases {n N : Int} (hnN : n ≤ N) (markup : String) :
    parse n markup = parse N markup ∨
      parse n markup = .error { fault := .chainTooLong n, markup := some markup } := by
  unfold parse
  cases split markup with
  | error e => exact .inl rfl
  | ok p =>
    simp only
    by_cases hn : n < p.count
    · exact .inr (by simp only [hn, if_true])
    · have hN : ¬ N < p.count := by omega
      exact .inl (by simp only [hn, hN, if_false])

/-- A chain whose keywords are those of the split header has one link per chunk. -/
theorem length_eq_count {c : Chain} {p : Pieces} (hkeys : c.rest.map Prod.fst = p.keywords) :
    c.length = p.count := by
  have hlen : c.rest.length = p.rest.length := by
    simpa [Pieces.keywords] using congrArg List.length hkeys
  simp only [Chain.length, Pieces.count, hlen]

/-- The lenient reader gives no more links than the bound. -/
theorem length_le_of_parse {limit : Int} {markup : String} {c : Chain}
    (h : parse limit markup = .ok c) : (c.length : Int) ≤ limit := by
  obtain ⟨p, -, hcount, -, hkeys⟩ := (parse_ok_iff_chunks limit markup c).1 h
  rwa [length_eq_count hkeys]

/-- The lenient reader obeys the law of the bound. -/
theorem parse_bound (markup : String) {n N : Nat} (hN : n ≤ N) :
    BoundCuts (parse · markup) markup n N := by
  refine BoundCuts.of_limit_cases (parse_limit_cases (by omega) markup)
    (fun h => by have := length_le_of_parse h; omega) (fun {c} h hlen => ?_)
  -- the chunks that read under `N` are few enough to read under `n`
  obtain ⟨p, hsplit, -, hmap, hkeys⟩ := (parse_ok_iff_chunks N markup c).1 h
  have hcount : (p.count : Int) ≤ n := by
    rw [← length_eq_count hkeys]
    omega
  exact (parse_ok_iff_chunks n markup c).2 ⟨p, hsplit, hcount, hmap, hkeys⟩

end Lenient

namespace Mode

/-- Warn mode where the strict reader gives the same under the two bounds: a strict chain, or a
refused integer text, stands under both, and any other strict error falls back to the lenient
reader under each bound. -/
theorem warn_bound_of_strict {markup : String} {n N : Nat} (hn : 1 ≤ n) (hN : n ≤ N)
    (heq : Strict.parse n markup = Strict.parse N markup) :
    BoundCuts (fun l => (Mode.warn.read l markup).2) markup n N := by
  cases hS : Strict.parse N markup with
  | ok c0 =>
    -- the strict chain stands under both bounds, and it fits the smaller one
    obtain ⟨-, -, -, hlen⟩ := Strict.chainToks_of_parse (by omega) (heq.trans hS)
    have hn' : (Mode.warn.read n markup).2 = .ok c0 := by simp [Mode.read, heq, hS]
    have hN' : (Mode.warn.read N markup).2 = .ok c0 := by simp [Mode.read, hS]
    refine BoundCuts.of_eq (hn'.trans hN'.symm) fun h => ?_
    rw [hn'] at h
    cases h
    omega
  | error e =>
    cases hlim : e.fault.isLimit
    · -- a grammar error: both readings are lenient
      have hn' : (Mode.warn.read n markup).2 = Lenient.parse n markup := by
        simp [Mode.read, heq, hS, hlim]
      have hN' : (Mode.warn.read N markup).2 = Lenient.parse N markup := by
        simp [Mode.read, hS, hlim]
      simpa only [BoundCuts, hn', hN'] using Lenient.parse_bound markup hN
    · have hn' : (Mode.warn.read n markup).2 = .error e := by simp [Mode.read, heq, hS, hlim]
      have hN' : (Mode.warn.read N markup).2 = .error e := by simp [Mode.read, hS, hlim]
      refine BoundCuts.of_eq (hn'.trans hN'.symm) fun h => ?_
      rw [hn'] at h
      cases h

/-- The bound on chains, mode by mode, against any larger bound `N` (an unbounded reading among
them). In lenient and strict mode it only cuts: a header reads under `n` exactly when it reads under
`N` to a chain of at most `n` links, the same chain, and a longer chain is refused with the bound
error. Warn mode obeys the same law unless the strict reader stops at the bound; then the bound
error is noted and the header is read leniently under the same bound. -/
theorem read_bound (markup : String) (n N : Nat) (hn : 1 ≤ n) (hN : n ≤ N) :
    BoundCuts (fun l => (Mode.lax.read l markup).2) markup n N ∧
    BoundCuts (fun l => (Mode.strict.read l markup).2) markup n N ∧
    (Strict.parse n markup ≠ .error { fault := .chainTooLong n, markup := some markup } →
      BoundCuts (fun l => (Mode.warn.read l markup).2) markup n N) ∧
    (Strict.parse n markup = .error { fault := .chainTooLong n, markup := some markup } →
      Mode.warn.read n markup =
        ([.fallback { fault := .chainTooLong n, markup := some markup }],
          (Mode.lax.read n markup).2)) := by
  refine ⟨Lenient.parse_bound markup hN, Strict.parse_bound markup hn hN, fun hstop => ?_,
    fun hstop => ?_⟩
  · exact warn_bound_of_strict hn hN ((Strict.parse_limit_cases (by omega) markup).resolve_right hstop)
  · simp [Mode.read, hstop, SyntaxFault.isLimit]

/-- The bound on chains at one link, for the header `a and(b..c)` against two links: lenient and
strict mode only cut; the strict reader stops at the bound, so warn mode notes the bound error and
reads the header leniently under the same bound. -/
theorem read_bound_one_link :
    (1 ≤ 1 ∧ 1 ≤ 2) ∧
      BoundCuts (fun l => (Mode.lax.read l "a and(b..c)").2) "a and(b..c)" 1 2 ∧
      BoundCuts (fun l => (Mode.strict.read l "a and(b..c)").2) "a and(b..c)" 1 2 ∧
      Strict.parse 1 "a and(b..c)" =
        .error { fault := .chainTooLong 1, markup := some "a and(b..c)" } ∧
      Mode.warn.read 1 "a and(b..c)" =
        ([.fallback { fault := .chainTooLong 1, markup := some "a and(b..c)" }],
          (Mode.lax.read 1 "a and(b..c)").2) := by
  have hstop : Strict.parse 1 "a and(b..c)" =
      .error { fault := .chainTooLong 1, markup := some "a and(b..c)" } := by
    with_unfolding_all rfl
  obtain ⟨hlax, hstrict, -, hwarn⟩ := read_bound "a and(b..c)" 1 2 (Nat.le_refl 1) (by decide)
  exact ⟨⟨Nat.le_refl 1, by decide⟩, hlax, hstrict, hstop, hwarn hstop⟩

/-- Under a bound of one, warn mode reads `a and(b..c)` as the lenient comparison of `a` with
`(b..c)` by `and`, while under any bound of two or more it reads the strict chain of two links. -/
theorem read_warn_cut_reads_leniently :
    (Mode.warn.read 1 "a and(b..c)").2 =
        .ok ⟨⟨.path (.name "a") [], some ("and", .range (.path (.name "b") []) (.path (.name "c") []))⟩,
          []⟩ ∧
      ∀ N : Nat, 2 ≤ N → (Mode.warn.read N "a and(b..c)").2 =
        .ok ⟨⟨.path (.name "a") [], none⟩,
          [(.and, ⟨.range (.path (.name "b") []) (.path (.name "c") []), none⟩)]⟩ := by
  refine ⟨by with_unfolding_all rfl, fun N hN => ?_⟩
  have h2 : Strict.parse 2 "a and(b..c)" = .ok ⟨⟨.path (.name "a") [], none⟩,
      [(.and, ⟨.range (.path (.name "b") []) (.path (.name "c") []), none⟩)]⟩ := by
    with_unfolding_all rfl
  -- the strict chain of two links stands under every larger bound
  have hN' := (((Strict.parse_bound "a and(b..c)" (n := 2) (N := N) (by decide) hN).1 _).1 h2).1
  simp [Mode.read, hN']

end Mode

end Branching
