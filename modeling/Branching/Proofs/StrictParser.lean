import Branching.Proofs.OperandTree

/-!
# The strict parser reads exactly its grammar

`Strict.parse` checks a header's tokens against the grammar of `OperandToks`, `LinkToks` and
`LinksToks`, and reads each operand from the header text its tokens span. This module ties both
halves to the grammar. The token half is exact: `skipOperand` and `skipLookups` take the tokens of
a derivation and nothing else, as long as no lookup could go on after it (`StopsLookups`); they are
greedy, and no token that may follow an operand in the grammar starts a lookup. The text half is
the tree theorem `parseChars_of_operandToks`: the spanned text, when it reads, reads as the tree of
the derivation. A derivation whose operand texts do not all read is refused, so the grammar alone
does not say what the parser accepts: `a . b` derives the path `a.b`, yet the text `a . b` is no
operand (`parse_refuses_spaced_point`).

All along the parse the tokens left are a suffix of the lexer's tokens (`Token.Scanned`), which
places each run of them in the text.

## Main statements

- `Strict.skipOperand_sound`, `Strict.skipOperand_complete`: skipping an operand is deriving one.
- `Strict.operand_sound`, `Strict.comparison_sound`, `Strict.links_sound` and their `complete`
  partners: each step of the parser against the grammar.
- `Strict.parse_eq_ok_iff`: the parser reads a header exactly when its tokens derive from the
  grammar, the text of each operand reads, and there are at most `limit` links; the chain is the
  derivation's.
-/
namespace Branching

namespace Token

/-- `ts` are the tokens the lexer gives for `markup` from some position on. -/
def Scanned (markup : String) (ts : List Token) : Prop :=
  ∃ p, Lexed p (markup.toList.drop p) ts

/-- The tokens of a header are scanned from its start. -/
theorem scanned_of_scan {markup : String} {ts : List Token} (h : scan markup = .ok ts) :
    Scanned markup ts :=
  ⟨0, by simpa using lexed_of_scan h⟩

theorem Scanned.shaped {markup : String} {ts : List Token} (h : Scanned markup ts) :
    ∀ t ∈ ts, Shaped t := by
  obtain ⟨p, hlex⟩ := h
  exact hlex.shaped

/-- The text the tokens of an operand span, from its first token's start to its last's end. -/
theorem span_eq {markup : String} {toks : List Token} {first last : Token}
    (hf : toks.head? = some first) (hl : toks.getLast? = some last) :
    span markup toks =
      (markup.toList.drop first.position).take (last.position + last.value.length - first.position) := by
  rw [span, hf, hl]

/-- A run of scanned tokens that holds no end token spans its own text, and the lexer goes on
after it. -/
theorem Scanned.split {markup : String} {toks rest : List Token} (h : Scanned markup (toks ++ rest))
    (hne : toks ≠ []) (heof : ∀ t ∈ toks, t.kind ≠ .eof) :
    Spans (span markup toks) toks ∧ Scanned markup rest := by
  obtain ⟨p, hlex⟩ := h
  obtain ⟨g, sa, more, hcs, -, hsa, hhead, hlast, hmore⟩ := hlex.split rfl hne heof
  obtain ⟨first, hf⟩ : ∃ t, toks.head? = some t := by
    cases toks with
    | nil => exact absurd rfl hne
    | cons t ts => exact ⟨t, rfl⟩
  obtain ⟨last, hl⟩ : ∃ t, toks.getLast? = some t := by
    cases hl : toks.getLast? with
    | none => exact absurd (List.getLast?_eq_none_iff.1 hl) hne
    | some t => exact ⟨t, rfl⟩
  have hdrop : ∀ k, markup.toList.drop (p + k) = (g ++ sa ++ more).drop k := by
    intro k
    rw [← hcs, List.drop_drop]
  refine ⟨?_, p + (g ++ sa).length, ?_⟩
  · have hlen : p + (g ++ sa).length - (p + g.length) = sa.length := by simp; omega
    rw [span_eq hf hl, hhead first hf, hlast last hl, hdrop, List.append_assoc, List.drop_left,
      hlen, List.take_left]
    exact hsa
  · rw [hdrop, List.drop_left]
    exact hmore

/-- In scanned tokens the end token comes last. -/
theorem Scanned.eq_nil_of_eof {markup : String} {t : Token} {rest : List Token}
    (h : Scanned markup (t :: rest)) (ht : t.kind = .eof) : rest = [] := by
  obtain ⟨p, hlex⟩ := h
  obtain ⟨body, e, heq, -, hbody⟩ := hlex.eq_append_eof
  cases body with
  | nil =>
    simp only [List.nil_append, List.cons.injEq] at heq
    exact heq.2
  | cons u body =>
    simp only [List.cons_append, List.cons.injEq] at heq
    obtain ⟨rfl, -⟩ := heq
    exact absurd ht (hbody t (by simp))

/-- The lexer always gives at least the end token. -/
theorem Scanned.ne_nil {markup : String} (h : Scanned markup []) : False := by
  obtain ⟨p, hlex⟩ := h
  obtain ⟨body, e, heq, -, -⟩ := hlex.eq_append_eof
  simp at heq

end Token

/-! ### Where an operand or a link may stop -/

/-- No lookup can go on before the tokens `ts`: the next token is neither `.` nor `[`. -/
def StopsLookups (ts : List Token) : Prop :=
  ∀ t, ts.head? = some t → t.kind ≠ .dot ∧ t.kind ≠ .lbracket

theorem stopsLookups_cons {t : Token} {ts : List Token} (hd : t.kind ≠ .dot)
    (hl : t.kind ≠ .lbracket) : StopsLookups (t :: ts) := by
  intro u hu
  simp only [List.head?_cons, Option.some.injEq] at hu
  subst hu
  exact ⟨hd, hl⟩

/-- Nothing can go on with a link before the tokens `ts`: the next token is no `.`, no `[` and no
comparison. -/
def StopsLink (ts : List Token) : Prop :=
  ∀ t, ts.head? = some t → t.kind ≠ .dot ∧ t.kind ≠ .lbracket ∧ t.kind ≠ .comparison

theorem StopsLink.lookups {ts : List Token} (h : StopsLink ts) : StopsLookups ts :=
  fun t ht => ⟨(h t ht).1, (h t ht).2.1⟩

/-- The tokens of a link: a first one that is not the end, and no end among them. -/
theorem LinkToks.no_eof {reads : List Token → Prop} {toks : List Token} {l : Link}
    (h : LinkToks reads toks l) : toks ≠ [] ∧ ∀ t ∈ toks, t.kind ≠ .eof := by
  cases h with
  | single hder _ =>
    obtain ⟨hc, t, us, rfl, -⟩ := Token.closed_of_operandToks hder
    exact ⟨by simp, fun u hu => (hc.inOperand u hu).2⟩
  | compare hder _ hk hder2 _ =>
    obtain ⟨hc, t, us, rfl, -⟩ := Token.closed_of_operandToks hder
    have hc2 := (Token.closed_of_operandToks hder2).1
    refine ⟨by simp, fun u hu => ?_⟩
    rcases List.mem_append.1 hu with hu | hu
    · exact (hc.inOperand u hu).2
    · rcases List.mem_cons.1 hu with rfl | hu
      · rw [hk]
        decide
      · exact (hc2.inOperand u hu).2

/-- After the links of a chain comes a keyword or the end, so nothing goes on with a link. -/
theorem LinksToks.stopsLink {reads : List Token → Prop} {ts : List Token}
    {more : List (Combinator × Link)} (h : LinksToks reads ts more) : StopsLink ts := by
  intro t ht
  cases h with
  | done he =>
    simp only [List.head?_cons, Option.some.injEq] at ht
    subst ht
    rw [he]
    decide
  | more hk _ _ _ =>
    simp only [List.cons_append, List.head?_cons, Option.some.injEq] at ht
    subst ht
    rw [hk]
    decide

namespace Strict

open Token

/-! ### Single tokens -/

theorem fail_ne_ok {α : Type} {markup : String} {f : SyntaxFault} {a : α} :
    fail markup f ≠ .ok a := by
  simp [fail]

theorem expect_ok {markup : String} {k : TokenKind} {ts : List Token} {t : Token} {r : Fewer ts}
    (h : expect markup k ts = .ok (t, r)) : t.kind = k ∧ ts = t :: r.1 := by
  cases ts with
  | nil => exact absurd h fail_ne_ok
  | cons u rest =>
    rw [expect] at h
    split at h
    · rename_i hk
      simp only [Except.ok.injEq, Prod.mk.injEq] at h
      obtain ⟨rfl, rfl⟩ := h
      exact ⟨hk, rfl⟩
    · exact absurd h fail_ne_ok

theorem expect_cons {markup : String} {k : TokenKind} {t : Token} {rest : List Token}
    (hk : t.kind = k) : expect markup k (t :: rest) = .ok (t, ⟨rest, Nat.lt_succ_self _⟩) := by
  simp [expect, hk]

theorem isKeyword_of_kind {t : Token} (hk : t.kind ≠ .identifier) : isKeyword t = false := by
  simp [isKeyword, hk]

/-! ### Skipping an operand is deriving one -/

mutual

/-- What `skipOperand` skips is an operand of the grammar, and it ends at the last token
skipped. -/
theorem skipOperand_sound {markup : String} {ts : List Token} {last : Token} {r : Fewer ts}
    (h : skipOperand markup ts = .ok (last, r)) :
    ∃ toks o, ts = toks ++ r.1 ∧ OperandToks toks o ∧ toks.getLast? = some last := by
  cases ts with
  | nil =>
    rw [skipOperand.eq_1] at h
    exact absurd h fail_ne_ok
  | cons t rest =>
    rw [skipOperand.eq_2] at h
    split at h
    · exact absurd h fail_ne_ok
    rename_i hkw
    split at h
    · -- a name, then its lookups
      rename_i hk
      split at h
      · cases h
      rename_i last' r' hl
      simp only [Except.ok.injEq, Prod.mk.injEq] at h
      obtain ⟨rfl, rfl⟩ := h
      obtain ⟨toks, ks, hrest, hks, hlast⟩ := skipLookups_sound hl
      exact ⟨t :: toks, _, by simp [hrest], .name hk (by simpa using hkw) hks, by simp [List.getLast?_cons, hlast]⟩
    · -- an operand in brackets, then lookups
      rename_i hk
      split at h
      · cases h
      rename_i fst r1 hin
      split at h
      · cases h
      rename_i close r2 hclose
      split at h
      · cases h
      rename_i last' r3 hl
      simp only [Except.ok.injEq, Prod.mk.injEq] at h
      obtain ⟨rfl, rfl⟩ := h
      obtain ⟨inner, o, hr1, hinner, -⟩ := skipOperand_sound hin
      obtain ⟨hck, hr2⟩ := expect_ok hclose
      obtain ⟨toks, ks, hr3, hks, hlast⟩ := skipLookups_sound hl
      exact ⟨t :: inner ++ close :: toks, _, by simp [hr1, hr2, hr3], .index hk hinner hck hks,
        by simp [List.getLast?_cons, hlast]⟩
    · -- a string
      rename_i hk
      simp only [Except.ok.injEq, Prod.mk.injEq] at h
      obtain ⟨rfl, rfl⟩ := h
      exact ⟨[t], _, rfl, .string hk, rfl⟩
    · -- a number
      rename_i hk
      simp only [Except.ok.injEq, Prod.mk.injEq] at h
      obtain ⟨rfl, rfl⟩ := h
      exact ⟨[t], _, rfl, .number hk, rfl⟩
    · -- a range
      rename_i hk
      split at h
      · cases h
      rename_i fst r1 ha
      split at h
      · cases h
      rename_i dots r2 hdots
      split at h
      · cases h
      rename_i fst' r3 hb
      split at h
      · cases h
      rename_i close r4 hclose
      simp only [Except.ok.injEq, Prod.mk.injEq] at h
      obtain ⟨rfl, rfl⟩ := h
      obtain ⟨a, oa, hr1, hda, -⟩ := skipOperand_sound ha
      obtain ⟨hdk, hr2⟩ := expect_ok hdots
      obtain ⟨b, ob, hr3, hdb, -⟩ := skipOperand_sound hb
      obtain ⟨hck, hr4⟩ := expect_ok hclose
      exact ⟨t :: a ++ dots :: b ++ [close], _, by simp [hr1, hr2, hr3, hr4],
        .range hk hda hdk hdb hck, by simp [List.getLast?_cons]⟩
    · exact absurd h fail_ne_ok
    · exact absurd h fail_ne_ok
termination_by ts.length
decreasing_by
  all_goals
    subst_vars
    simp only [List.length_cons]
    omega

/-- What `skipLookups` skips is lookups of the grammar. -/
theorem skipLookups_sound {markup : String} {prev : Token} {ts : List Token} {last : Token}
    {r : NoMore ts} (h : skipLookups markup prev ts = .ok (last, r)) :
    ∃ toks ks, ts = toks ++ r.1 ∧ LookupToks toks ks ∧ toks.getLast?.getD prev = last := by
  cases ts with
  | nil =>
    rw [skipLookups.eq_1] at h
    simp only [Except.ok.injEq, Prod.mk.injEq] at h
    obtain ⟨rfl, rfl⟩ := h
    exact ⟨[], [], rfl, .nil, rfl⟩
  | cons t rest =>
    rw [skipLookups.eq_2] at h
    split at h
    · -- an operand in brackets
      rename_i hk
      split at h
      · cases h
      rename_i fst r1 hin
      split at h
      · cases h
      rename_i close r2 hclose
      split at h
      · cases h
      rename_i last' r3 hl
      simp only [Except.ok.injEq, Prod.mk.injEq] at h
      obtain ⟨rfl, rfl⟩ := h
      obtain ⟨inner, o, hr1, hinner, -⟩ := skipOperand_sound hin
      obtain ⟨hck, hr2⟩ := expect_ok hclose
      obtain ⟨toks, ks, hr3, hks, hlast⟩ := skipLookups_sound hl
      exact ⟨t :: inner ++ close :: toks, _, by simp [hr1, hr2, hr3], .index hk hinner hck hks,
        by simp [List.getLast?_cons, hlast]⟩
    · -- a point and a name
      rename_i hk
      split at h
      · cases h
      rename_i name r1 hname
      split at h
      · cases h
      rename_i last' r2 hl
      simp only [Except.ok.injEq, Prod.mk.injEq] at h
      obtain ⟨rfl, rfl⟩ := h
      obtain ⟨hnk, hr1⟩ := expect_ok hname
      obtain ⟨toks, ks, hr2, hks, hlast⟩ := skipLookups_sound hl
      exact ⟨t :: name :: toks, _, by simp [hr1, hr2], .name hk hnk hks, by simp [List.getLast?_cons, hlast]⟩
    · -- no lookup follows
      simp only [Except.ok.injEq, Prod.mk.injEq] at h
      obtain ⟨rfl, rfl⟩ := h
      exact ⟨[], [], rfl, .nil, rfl⟩
termination_by ts.length
decreasing_by
  all_goals
    subst_vars
    simp only [List.length_cons]
    omega

end


mutual

/-- `skipOperand` skips exactly the tokens of a derivation when no lookup can go on after them.
The skip is greedy, so the condition is needed: after `a` it would also take `.b`. -/
theorem skipOperand_complete (markup : String) {toks : List Token} {o : Operand}
    (h : OperandToks toks o) {rest : List Token} (hr : StopsLookups rest) {ts : List Token}
    (hts : ts = toks ++ rest) :
    ∃ last hlt, toks.getLast? = some last ∧ skipOperand markup ts = .ok (last, ⟨rest, hlt⟩) := by
  match h with
  | @OperandToks.name t us _ hk hkw hl =>
    obtain ⟨_, h1⟩ := skipLookups_complete markup hl hr t rfl
    obtain rfl : ts = t :: (us ++ rest) := hts
    refine ⟨us.getLast?.getD t, by grind, by simp [List.getLast?_cons], ?_⟩
    rw [skipOperand.eq_2, if_neg (by simp [hkw])]
    simp only [hk, h1]
  | @OperandToks.index l r inner us _ _ hk hinner hck hl =>
    -- the inside's skip stops at the `]`, which no lookup goes on with
    have hr1 : StopsLookups (r :: (us ++ rest)) :=
      stopsLookups_cons (by rw [hck]; decide) (by rw [hck]; decide)
    obtain ⟨_, _, -, h1⟩ := skipOperand_complete markup hinner hr1 rfl
    obtain ⟨_, h3⟩ := skipLookups_complete markup hl hr r rfl
    obtain rfl : ts = l :: (inner ++ r :: (us ++ rest)) := by simp [hts]
    refine ⟨us.getLast?.getD r, by grind,
      by simp [List.getLast?_cons], ?_⟩
    rw [skipOperand.eq_2, if_neg (by simp [isKeyword_of_kind (t := l) (by rw [hk]; decide)])]
    simp only [hk, h1, expect_cons hck, h3]
  | @OperandToks.string t hk =>
    obtain rfl : ts = t :: rest := hts
    refine ⟨t, by simp, rfl, ?_⟩
    rw [skipOperand.eq_2, if_neg (by simp [isKeyword_of_kind (by rw [hk]; decide)])]
    simp only [hk]
  | @OperandToks.number t hk =>
    obtain rfl : ts = t :: rest := hts
    refine ⟨t, by simp, rfl, ?_⟩
    rw [skipOperand.eq_2, if_neg (by simp [isKeyword_of_kind (by rw [hk]; decide)])]
    simp only [hk]
  | @OperandToks.range l d r a b _ _ hk ha hdk hb hck =>
    -- the first end's skip stops at the `..` and the last end's at the `)`
    have hr1 : StopsLookups (d :: (b ++ r :: rest)) :=
      stopsLookups_cons (by rw [hdk]; decide) (by rw [hdk]; decide)
    have hr3 : StopsLookups (r :: rest) :=
      stopsLookups_cons (by rw [hck]; decide) (by rw [hck]; decide)
    obtain ⟨_, _, -, h1⟩ := skipOperand_complete markup ha hr1 rfl
    obtain ⟨_, _, -, h3⟩ := skipOperand_complete markup hb hr3 rfl
    obtain rfl : ts = l :: (a ++ d :: (b ++ r :: rest)) := by simp [hts]
    refine ⟨r, by grind,
      by simp [List.getLast?_cons], ?_⟩
    rw [skipOperand.eq_2, if_neg (by simp [isKeyword_of_kind (t := l) (by rw [hk]; decide)])]
    simp only [hk, h1, expect_cons hdk, h3, expect_cons hck]

/-- `skipLookups` skips exactly the tokens of lookups when no lookup can go on after them. -/
theorem skipLookups_complete (markup : String) {toks : List Token} {ks : List Key}
    (h : LookupToks toks ks) {rest : List Token} (hr : StopsLookups rest) (prev : Token)
    {ts : List Token} (hts : ts = toks ++ rest) :
    ∃ hle, skipLookups markup prev ts = .ok (toks.getLast?.getD prev, ⟨rest, hle⟩) := by
  match h with
  | .nil =>
    obtain rfl : ts = rest := hts
    refine ⟨Nat.le_refl _, ?_⟩
    cases ts with
    | nil => rw [skipLookups.eq_1]; rfl
    | cons u us =>
      obtain ⟨hd, hl⟩ := hr u rfl
      rw [skipLookups.eq_2]
      split
      · contradiction
      · contradiction
      · rfl
  | @LookupToks.name d t us _ hd ht hl =>
    obtain ⟨_, h2⟩ := skipLookups_complete markup hl hr t rfl
    obtain rfl : ts = d :: t :: (us ++ rest) := hts
    refine ⟨by grind, ?_⟩
    rw [skipLookups.eq_2]
    simp only [hd, expect_cons ht, h2, List.getLast?_cons]
    rfl
  | @LookupToks.index l r inner us _ _ hk hinner hck hl =>
    have hr1 : StopsLookups (r :: (us ++ rest)) :=
      stopsLookups_cons (by rw [hck]; decide) (by rw [hck]; decide)
    obtain ⟨_, _, -, h1⟩ := skipOperand_complete markup hinner hr1 rfl
    obtain ⟨_, h3⟩ := skipLookups_complete markup hl hr r rfl
    obtain rfl : ts = l :: (inner ++ r :: (us ++ rest)) := by simp [hts]
    refine ⟨by grind, ?_⟩
    rw [skipLookups.eq_2]
    simp only [hk, h1, expect_cons hck, h3]
    simp [List.getLast?_cons]

end

/-! ### Operands -/

/-- What `operand` reads is a derivation whose text reads, and the tree is the derivation's. -/
theorem operand_sound {markup : String} {ts : List Token} {o : Operand} {r : Fewer ts}
    (h : operand markup ts = .ok (o, r)) (hs : Scanned markup ts) :
    ∃ toks, ts = toks ++ r.1 ∧ OperandToks toks o ∧ Reads markup toks := by
  rw [operand] at h
  split at h
  · cases h
  rename_i last r' hskip
  obtain ⟨toks, o', hts, hder, hlast⟩ := skipOperand_sound hskip
  dsimp only at h
  split at h
  · exact absurd h fail_ne_ok
  rename_i o'' hread
  simp only [Except.ok.injEq, Prod.mk.injEq] at h
  obtain ⟨rfl, rfl⟩ := h
  obtain ⟨hclosed, t, us, rfl, -⟩ := Token.closed_of_operandToks hder
  rw [hts] at hs hread
  rw [show current (t :: us ++ r'.1) = t from rfl, ← span_eq rfl hlast] at hread
  -- the text read is the span of the tokens, which reads as the derivation's tree
  obtain ⟨hsp, -⟩ := hs.split (by simp) (fun u hu => (hclosed.inOperand u hu).2)
  have htree := parseChars_of_operandToks hder (fun u hu => hs.shaped u (List.mem_append_left _ hu)) hsp hread
  subst htree
  exact ⟨t :: us, hts, hder, _, hread⟩

/-- A derivation whose text reads, followed by no lookup, is read by `operand`. -/
theorem operand_complete {markup : String} {toks rest ts : List Token} {o : Operand}
    (h : OperandToks toks o) (hread : Reads markup toks) (hs : Scanned markup ts)
    (hr : StopsLookups rest) (hts : ts = toks ++ rest) :
    ∃ hlt, operand markup ts = .ok (o, ⟨rest, hlt⟩) := by
  obtain ⟨last, hlt, hlast, hskip⟩ := skipOperand_complete markup h hr hts
  obtain ⟨hclosed, t, us, rfl, -⟩ := closed_of_operandToks h
  subst hts
  obtain ⟨hsp, -⟩ := hs.split (by simp) (fun u hu => (hclosed.inOperand u hu).2)
  obtain ⟨o', ho'⟩ := hread
  have htree := parseChars_of_operandToks h (fun u hu => hs.shaped u (List.mem_append_left _ hu)) hsp ho'
  subst htree
  refine ⟨hlt, ?_⟩
  rw [operand]
  simp only [hskip]
  rw [show current (t :: us ++ rest) = t from rfl, ← span_eq rfl hlast, ho']

/-! ### Comparisons -/

/-- What `comparison` reads is a link of the grammar. -/
theorem comparison_sound {markup : String} {ts : List Token} {l : Link} {r : Fewer ts}
    (h : comparison markup ts = .ok (l, r)) (hs : Scanned markup ts) :
    ∃ toks, ts = toks ++ r.1 ∧ LinkToks (Reads markup) toks l := by
  rw [comparison] at h
  split at h
  · cases h
  rename_i left r1 hleft
  obtain ⟨toks, hts, hder, hread⟩ := operand_sound hleft hs
  split at h
  · rename_i t rest hr1
    split at h
    · -- an operator and a second operand follow
      rename_i hk
      split at h
      · cases h
      rename_i right r2 hright
      simp only [Except.ok.injEq, Prod.mk.injEq] at h
      obtain ⟨rfl, rfl⟩ := h
      obtain ⟨hc, u, us, rfl, -⟩ := Token.closed_of_operandToks hder
      rw [hts, hr1] at hs
      obtain ⟨-, hs1⟩ := hs.split (by simp) (fun v hv => (hc.inOperand v hv).2)
      have hs1' : Scanned markup ([t] ++ rest) := hs1
      obtain ⟨-, hs2⟩ := hs1'.split (by simp) (by simp [hk])
      obtain ⟨toks2, hrest, hder2, hread2⟩ := operand_sound hright hs2
      exact ⟨u :: us ++ t :: toks2, by dsimp only; rw [hts, hr1]; simpa using hrest,
        .compare hder hread hk hder2 hread2⟩
    · simp only [Except.ok.injEq, Prod.mk.injEq] at h
      obtain ⟨rfl, rfl⟩ := h
      exact ⟨toks, hts, .single hder hread⟩
  · simp only [Except.ok.injEq, Prod.mk.injEq] at h
    obtain ⟨rfl, rfl⟩ := h
    exact ⟨toks, hts, .single hder hread⟩

/-- A link of the grammar whose operands' texts read, followed by nothing that goes on with it,
is read by `comparison`. -/
theorem comparison_complete {markup : String} {toks rest ts : List Token} {l : Link}
    (h : LinkToks (Reads markup) toks l) (hs : Scanned markup ts) (hr : StopsLink rest)
    (hts : ts = toks ++ rest) : ∃ hlt, comparison markup ts = .ok (l, ⟨rest, hlt⟩) := by
  cases h with
  | single hder hread =>
    obtain ⟨hlt, hop⟩ := operand_complete hder hread hs hr.lookups hts
    refine ⟨hlt, ?_⟩
    rw [comparison]
    simp only [hop]
    split
    · -- the next token is no operator
      rename_i t rest
      rw [if_neg (hr t rfl).2.2]
    · rfl
  | @compare ts1 us t o p hder hread hk hder2 hread2 =>
    have hr1 : StopsLookups (t :: (us ++ rest)) :=
      stopsLookups_cons (by rw [hk]; decide) (by rw [hk]; decide)
    obtain ⟨hlt1, hop1⟩ := operand_complete hder hread hs hr1 (by rw [hts]; simp)
    obtain ⟨hc, u, vs, rfl, -⟩ := Token.closed_of_operandToks hder
    have hts' : ts = u :: vs ++ ([t] ++ (us ++ rest)) := by rw [hts]; simp
    rw [hts'] at hs
    obtain ⟨-, hs1⟩ := hs.split (by simp) (fun v hv => (hc.inOperand v hv).2)
    obtain ⟨-, hs2⟩ := hs1.split (by simp) (by simp [hk])
    obtain ⟨hlt2, hop2⟩ := operand_complete hder2 hread2 hs2 hr.lookups rfl
    refine ⟨by rw [hts]; simp; omega, ?_⟩
    rw [comparison]
    simp only [hop1]
    rw [if_pos hk]
    simp only [hop2]

/-! ### Keywords and the links they join -/

/-- What `links` reads, up to the end, is the keywords and links of the grammar, and the count
stays within the limit. -/
theorem links_sound {markup : String} {limit : Int} {count : Nat} {ts : List Token}
    {more : List (Combinator × Link)} {left : List Token}
    (h : links markup limit count ts = .ok (more, left)) (hs : Scanned markup ts)
    (hend : (current left).kind = .eof) (hc : (count : Int) ≤ limit) :
    LinksToks (Reads markup) ts more ∧ (count + more.length : Int) ≤ limit := by
  fun_induction links markup limit count ts generalizing more left with
  | case1 count t rest c hkw hlim => exact absurd h fail_ne_ok
  | case2 count t rest c hkw hlim e hcmp => cases h
  | case3 count t rest c hkw hlim link r hcmp hlen e hlinks ih => cases h
  | case4 count t rest c hkw hlim link r hcmp hlen more' left' hlinks ih =>
    simp only [Except.ok.injEq, Prod.mk.injEq] at h
    obtain ⟨rfl, rfl⟩ := h
    -- a keyword, a link, and the links after it
    have ⟨hid, hkey⟩ : t.kind = .identifier ∧ Combinator.ofKeyword? t.value = some c := by
      split at hkw
      · exact ⟨‹_›, hkw⟩
      · cases hkw
    have hs' : Scanned markup ([t] ++ rest) := hs
    obtain ⟨-, hs1⟩ := hs'.split (by simp) (by simp [hid])
    obtain ⟨toks, hrest, hlink⟩ := comparison_sound hcmp hs1
    obtain ⟨hne, heof⟩ := hlink.no_eof
    rw [hrest] at hs1
    obtain ⟨-, hs2⟩ := hs1.split hne heof
    obtain ⟨hmore, hcount⟩ := ih hlinks hs2 hend (by omega)
    refine ⟨?_, by simp only [List.length_cons]; omega⟩
    rw [hrest]
    exact .more hid hkey hlink hmore
  | case5 count t rest hkw =>
    simp only [Except.ok.injEq, Prod.mk.injEq] at h
    obtain ⟨rfl, rfl⟩ := h
    -- no keyword: the end must follow, and it is the last token
    have hrest := hs.eq_nil_of_eof hend
    subst hrest
    exact ⟨.done hend, by simpa using hc⟩
  | case6 count => exact absurd hs Scanned.ne_nil

/-- Keywords and links of the grammar whose operands' texts read, up to the end and within the
limit, are read by `links`. -/
theorem links_complete {markup : String} {limit : Int} {ts : List Token}
    {more : List (Combinator × Link)} (h : LinksToks (Reads markup) ts more)
    (hs : Scanned markup ts) (count : Nat) (hc : (count + more.length : Int) ≤ limit) :
    ∃ e, e.kind = .eof ∧ links markup limit count ts = .ok (more, [e]) := by
  induction h generalizing count with
  | @done t ht =>
    refine ⟨t, ht, ?_⟩
    rw [links.eq_1, if_neg (by rw [ht]; decide)]
  | @more t ls ts k l rest ht hk hlink hrest ih =>
    have hs' : Scanned markup ([t] ++ (ls ++ ts)) := by simpa using hs
    obtain ⟨-, hs1⟩ := hs'.split (by simp) (by simp [ht])
    obtain ⟨hne, heof⟩ := hlink.no_eof
    obtain ⟨-, hs2⟩ := hs1.split hne heof
    obtain ⟨hlt, hcmp⟩ := comparison_complete hlink hs1 hrest.stopsLink rfl
    obtain ⟨e, he, hl⟩ := ih hs2 (count + 1) (by simp only [List.length_cons] at hc; omega)
    refine ⟨e, he, ?_⟩
    have hlim : ¬ limit < count + 1 := by simp only [List.length_cons] at hc; omega
    rw [List.cons_append, links.eq_1, if_pos ht]
    simp only [hk, if_neg hlim, hcmp, hl]

/-! ### Headers -/

/-- A chain the strict parser reads is the chain of a derivation of the header's tokens, within
the limit. -/
theorem chainToks_of_parse {limit : Int} (hlim : 1 ≤ limit) {markup : String} {c : Chain}
    (h : parse limit markup = .ok c) :
    ∃ ts, scan markup = .ok ts ∧ ChainToks (Reads markup) ts c ∧ (c.length : Int) ≤ limit := by
  rw [parse] at h
  split at h
  · cases h
  rename_i ts hscan
  have hs := scanned_of_scan hscan
  split at h
  · exact absurd h fail_ne_ok
  split at h
  · cases h
  rename_i head r hhead
  split at h
  · cases h
  rename_i rest left hlinks
  dsimp only at h
  split at h
  · rename_i hend
    simp only [Except.ok.injEq] at h
    subst h
    -- the first link, then the keywords and links up to the end
    obtain ⟨toks, hts, hlink⟩ := comparison_sound hhead hs
    obtain ⟨hne, heof⟩ := hlink.no_eof
    rw [hts] at hs
    obtain ⟨-, hsr⟩ := hs.split hne heof
    obtain ⟨hrest, hcount⟩ := links_sound hlinks hsr hend (by simpa using hlim)
    refine ⟨ts, hscan, ⟨toks, r.1, hts, hlink, hrest⟩, ?_⟩
    simp only [Chain.length]
    omega
  · exact absurd h fail_ne_ok

/-- The strict parser reads the chain of a derivation of the header's tokens within the limit. -/
theorem parse_of_chainToks {limit : Int} {markup : String} {c : Chain} {ts : List Token}
    (hscan : scan markup = .ok ts) (hc : ChainToks (Reads markup) ts c)
    (hlen : (c.length : Int) ≤ limit) : parse limit markup = .ok c := by
  obtain ⟨toks, rs, rfl, hlink, hrest⟩ := hc
  have hs := scanned_of_scan hscan
  obtain ⟨hne, heof⟩ := hlink.no_eof
  obtain ⟨-, hsr⟩ := hs.split hne heof
  obtain ⟨hlt, hcmp⟩ := comparison_complete hlink hs hrest.stopsLink rfl
  have hcount : ((1 : Nat) + c.rest.length : Int) ≤ limit := by
    simp only [Chain.length] at hlen
    omega
  obtain ⟨e, he, hlinks⟩ := links_complete hrest hsr 1 hcount
  -- the header does not start with the end
  have hfirst : (current (toks ++ rs)).kind ≠ .eof := by
    obtain ⟨t, us, rfl⟩ := List.exists_cons_of_ne_nil hne
    exact heof t (by simp)
  rw [parse, hscan]
  simp only [if_neg hfirst, hcmp]
  rw [hlinks]
  simp only [show current [e] = e from rfl, he, if_true]

/-- The strict parser reads a header exactly when the header's tokens derive from the grammar,
the text of each operand reads, and the chain has at most `limit` links; the chain it gives is the
derivation's. -/
theorem parse_eq_ok_iff {limit : Int} (hlim : 1 ≤ limit) (markup : String) (c : Chain) :
    parse limit markup = .ok c ↔
      ∃ ts, scan markup = .ok ts ∧ ChainToks (Reads markup) ts c ∧ (c.length : Int) ≤ limit :=
  ⟨chainToks_of_parse hlim, fun ⟨_, hscan, hc, hlen⟩ => parse_of_chainToks hscan hc hlen⟩

/-- A comparison joined by `or` to a name, with room for two links. -/
theorem parse_eq_ok_iff_two_links :
    (1 : Int) ≤ 2 ∧
      (parse 2 "x.y >= 2 or z" =
          .ok ⟨⟨.path (.name "x") [.name "y"], some (">=", .literal (.int 2) "2")⟩,
            [(.or, ⟨.path (.name "z") [], none⟩)]⟩ ↔
        ∃ ts, scan "x.y >= 2 or z" = .ok ts ∧
          ChainToks (Reads "x.y >= 2 or z") ts
            ⟨⟨.path (.name "x") [.name "y"], some (">=", .literal (.int 2) "2")⟩,
              [(.or, ⟨.path (.name "z") [], none⟩)]⟩ ∧
          ((⟨⟨.path (.name "x") [.name "y"], some (">=", .literal (.int 2) "2")⟩,
            [(.or, ⟨.path (.name "z") [], none⟩)]⟩ : Chain).length : Int) ≤ 2) :=
  ⟨by decide, parse_eq_ok_iff (by decide) _ _⟩

example : parse 2 "x.y >= 2 or z" =
    .ok ⟨⟨.path (.name "x") [.name "y"], some (">=", .literal (.int 2) "2")⟩,
      [(.or, ⟨.path (.name "z") [], none⟩)]⟩ := by
  with_unfolding_all rfl

/-- The tokens of `a . b` derive the path `a.b`, but the text between its first and last token has
white space around the point, which no operand text has: the parser refuses the header. -/
theorem parse_refuses_spaced_point :
    (∃ ts, scan "a . b" = .ok ts ∧
      ChainToks (fun _ => True) ts ⟨⟨.path (.name "a") [.name "b"], none⟩, []⟩) ∧
      ∀ c, parse 50 "a . b" ≠ .ok c := by
  constructor
  · -- the name `a`, the lookup `.b`, and the end
    refine ⟨[⟨.identifier, "a", 0⟩, ⟨.dot, ".", 2⟩, ⟨.identifier, "b", 4⟩, ⟨.eof, "", 5⟩],
      by with_unfolding_all rfl, [⟨.identifier, "a", 0⟩, ⟨.dot, ".", 2⟩, ⟨.identifier, "b", 4⟩], [⟨.eof, "", 5⟩],
      rfl, ?_, .done rfl⟩
    exact .single (.name rfl (by decide) (.name rfl rfl .nil)) trivial
  · intro c h
    have hfail : (parse 50 "a . b").isOk = false := by with_unfolding_all rfl
    rw [h] at hfail
    cases hfail

end Strict

end Branching
