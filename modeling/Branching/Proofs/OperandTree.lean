import Branching.Proofs.OperandText

/-!
# The tree an operand's text reads as

The strict parser reads each operand from the header text its tokens span. This module shows
that this text, whenever it reads at all, reads as the tree of the tokens' derivation
(`parseChars_of_operandToks`).

The tokens of a derivation are `Closed`: read from any depth they close the parentheses and
brackets they open, keep every `..` inside parentheses and never end with a point. The first fact
makes a bracketed part end at its own `]`; the second keeps the cut of a range at the range's own
`..`, through `open_of_dots` and `balanced_of_parseChars`.
-/

namespace Branching.Token

open Text Operand

/-- A token's move of the bracket depth, as the reader of bracketed parts counts it. -/
def bstep (d : Nat) (t : Token) : Nat :=
  match t.kind with
  | .lbracket => d + 1
  | .rbracket => d - 1
  | _ => d

/-- `BracketsNested d ts`: read from bracket depth `d`, every `]` of `ts` stands at a depth of at
least two, so that none of them closes the bracketed part the tokens stand in. -/
def BracketsNested : Nat → List Token → Prop
  | _, [] => True
  | d, t :: ts => (t.kind = .rbracket → 2 ≤ d) ∧ BracketsNested (bstep d t) ts

/-- The parenthesis depth a run of tokens moves by. -/
def depths : List Token → Int
  | [] => 0
  | t :: ts => t.depth + depths ts

/-- The tokens of an operand or of lookups, as far as reading their text goes: they are made of
operand tokens, close the parentheses and brackets they open, keep `..` inside parentheses and
`]` above the depth they start at, follow each point by a token that is not one, and do not end
with a point. -/
structure Closed (ts : List Token) : Prop where
  inOperand : ∀ t ∈ ts, t.InOperand
  depths_eq : depths ts = 0
  dots : ∀ e, 0 ≤ e → DotsNested e ts
  brackets : ∀ d, 1 ≤ d → BracketsNested d ts ∧ ts.foldl bstep d = d
  last : ∀ t, ts.getLast? = some t → ¬ t.IsDots

theorem depths_append (a b : List Token) : depths (a ++ b) = depths a + depths b := by
  induction a with
  | nil => simp [depths]
  | cons t a ih =>
    simp only [List.cons_append, depths, ih]
    omega

theorem DotsNested.mono {e e' : Int} {ts : List Token} (h : DotsNested e ts) (hle : e ≤ e') :
    DotsNested e' ts := by
  induction ts generalizing e e' with
  | nil => trivial
  | cons t ts ih =>
    obtain ⟨hdd, hnext, hrest⟩ := h
    exact ⟨fun hk => Int.lt_of_lt_of_le (hdd hk) hle, hnext, ih hrest (by omega)⟩

theorem DotsNested.append {e : Int} {a b : List Token} (ha : DotsNested e a)
    (hb : DotsNested (e + depths a) b) (hlast : ∀ t, a.getLast? = some t → ¬ t.IsDots) :
    DotsNested e (a ++ b) := by
  induction a generalizing e with
  | nil => simpa [depths] using hb
  | cons t a ih =>
    obtain ⟨hdd, hnext, hrest⟩ := ha
    refine ⟨hdd, fun hd => ?_, ?_⟩
    · -- a point is followed inside `a`, since `a` does not end with one
      obtain ⟨u, us, rfl, hu⟩ := hnext hd
      exact ⟨u, us ++ b, rfl, hu⟩
    · refine ih hrest ?_ ?_
      · simpa [depths, Int.add_assoc] using hb
      · intro u hu
        cases a with
        | nil => cases hu
        | cons v vs => exact hlast u (by simpa using hu)

theorem BracketsNested.append {d : Nat} {a b : List Token} (ha : BracketsNested d a)
    (hb : BracketsNested (a.foldl bstep d) b) : BracketsNested d (a ++ b) := by
  induction a generalizing d with
  | nil => exact hb
  | cons t a ih => exact ⟨ha.1, ih ha.2 hb⟩

theorem not_isDots {t : Token} {k : TokenKind} (hk : t.kind = k) (hd : k ≠ .dot)
    (hdd : k ≠ .dotdot) : ¬ t.IsDots := by
  rintro (h | h)
  · exact hd (hk.symm.trans h)
  · exact hdd (hk.symm.trans h)

namespace Closed

variable {a b : List Token}

theorem append (ha : Closed a) (hb : Closed b) : Closed (a ++ b) := by
  refine ⟨?_, ?_, ?_, ?_, ?_⟩
  · intro t ht
    rcases List.mem_append.1 ht with ht | ht
    · exact ha.inOperand t ht
    · exact hb.inOperand t ht
  · rw [depths_append, ha.depths_eq, hb.depths_eq]
    rfl
  · intro e he
    refine DotsNested.append (ha.dots e he) ?_ ha.last
    rw [ha.depths_eq, Int.add_zero]
    exact hb.dots e he
  · intro d hd
    obtain ⟨ha1, ha2⟩ := ha.brackets d hd
    obtain ⟨hb1, hb2⟩ := hb.brackets d hd
    refine ⟨BracketsNested.append ha1 (by rw [ha2]; exact hb1), ?_⟩
    rw [List.foldl_append, ha2, hb2]
  · intro t ht
    rw [List.getLast?_append] at ht
    cases hl : b.getLast? with
    | none =>
      rw [hl, Option.none_or] at ht
      exact ha.last t ht
    | some u =>
      rw [hl, Option.some_or, Option.some.injEq] at ht
      subst ht
      exact hb.last _ hl

theorem nil : Closed [] :=
  ⟨by simp, rfl, fun _ _ => trivial, fun _ _ => ⟨trivial, rfl⟩, by simp⟩

/-- A name, a quoted text or a number. -/
theorem single {t : Token}
    (hk : t.kind = .identifier ∨ t.kind = .string ∨ t.kind = .number) : Closed [t] := by
  have hin : t.InOperand := by
    constructor <;> rcases hk with hk | hk | hk <;> rw [hk] <;> decide
  have hd : ¬ t.IsDots := by
    rintro (hd | hd) <;> rcases hk with hk | hk | hk <;> rw [hk] at hd <;> cases hd
  have hp : t.depth = 0 := by
    rcases hk with hk | hk | hk <;> simp [depth, hk]
  have hstep : ∀ d, bstep d t = d := by
    intro d
    rcases hk with hk | hk | hk <;> simp [bstep, hk]
  refine ⟨by simpa using hin, by simp [depths, hp], ?_, ?_, ?_⟩
  · intro e _
    exact ⟨fun hk => absurd (.inr hk) hd, fun h => absurd h hd, trivial⟩
  · intro d _
    refine ⟨⟨fun hr => ?_, trivial⟩, by simp [hstep]⟩
    rcases hk with hk | hk | hk <;> rw [hk] at hr <;> cases hr
  · intro u hu
    simp only [List.getLast?_singleton, Option.some.injEq] at hu
    subst hu
    exact hd

/-- A point and the name after it. -/
theorem dot_name {d t : Token} (hd : d.kind = .dot) (ht : t.kind = .identifier) :
    Closed [d, t] := by
  refine ⟨?_, by simp [depths, depth, hd, ht], ?_, ?_, ?_⟩
  · intro u hu
    simp only [List.mem_cons, List.not_mem_nil, or_false] at hu
    rcases hu with rfl | rfl
    · exact ⟨by rw [hd]; decide, by rw [hd]; decide⟩
    · exact ⟨by rw [ht]; decide, by rw [ht]; decide⟩
  · intro e _
    have htnd : ¬ t.IsDots := by rintro (h | h) <;> rw [ht] at h <;> cases h
    exact ⟨fun hk => absurd (hd.symm.trans hk) (by decide), fun _ => ⟨t, [], rfl, htnd⟩,
      fun hk => absurd (ht.symm.trans hk) (by decide), fun h => absurd h htnd, trivial⟩
  · intro n _
    refine ⟨⟨fun hk => absurd (hd.symm.trans hk) (by decide),
      fun hk => absurd (ht.symm.trans hk) (by decide), trivial⟩, ?_⟩
    simp [bstep, hd, ht]
  · intro u hu
    simp only [List.getLast?_cons_cons, List.getLast?_singleton, Option.some.injEq] at hu
    subst hu
    rintro (h | h) <;> rw [ht] at h <;> cases h

/-- An operand in brackets. -/
theorem bracket {l r : Token} {inner : List Token} (hl : l.kind = .lbracket)
    (hr : r.kind = .rbracket) (h : Closed inner) : Closed (l :: inner ++ [r]) := by
  refine ⟨?_, ?_, ?_, ?_, ?_⟩
  · intro u hu
    simp only [List.cons_append, List.mem_cons, List.mem_append, List.not_mem_nil,
      or_false] at hu
    rcases hu with rfl | hu | rfl
    · exact ⟨by rw [hl]; decide, by rw [hl]; decide⟩
    · exact h.inOperand u hu
    · exact ⟨by rw [hr]; decide, by rw [hr]; decide⟩
  · simp [depths, depths_append, h.depths_eq, depth, hl, hr]
  · intro e he
    have hlnd : ¬ l.IsDots := by rintro (h | h) <;> rw [hl] at h <;> cases h
    have hrnd : ¬ r.IsDots := by rintro (h | h) <;> rw [hr] at h <;> cases h
    refine ⟨fun hk => absurd (hl.symm.trans hk) (by decide), fun h => absurd h hlnd, ?_⟩
    refine DotsNested.append (h.dots _ (by simp [depth, hl]; exact he)) ?_ h.last
    exact ⟨fun hk => absurd (hr.symm.trans hk) (by decide), fun h => absurd h hrnd, trivial⟩
  · intro d hd
    obtain ⟨hin, hfold⟩ := h.brackets (d + 1) (by omega)
    have hstep : bstep d l = d + 1 := by simp [bstep, hl]
    refine ⟨⟨fun hk => absurd (hl.symm.trans hk) (by decide), ?_⟩, ?_⟩
    · rw [hstep]
      refine BracketsNested.append hin ?_
      rw [hfold]
      exact ⟨fun _ => by omega, trivial⟩
    · rw [List.cons_append, List.foldl_cons, List.foldl_append, hstep, hfold]
      simp [bstep, hr]
  · intro u hu
    simp only [List.getLast?_append, List.getLast?_singleton, Option.some_or,
      Option.some.injEq] at hu
    subst hu
    rintro (h | h) <;> rw [hr] at h <;> cases h

/-- A range: two operands between parentheses, with `..` between them. -/
theorem range {l d r : Token} {a b : List Token} (hl : l.kind = .lparen) (ha : Closed a)
    (hd : d.kind = .dotdot) (hb : Closed b) (hb0 : ∃ u us, b = u :: us ∧ ¬ u.IsDots)
    (hr : r.kind = .rparen) : Closed (l :: a ++ d :: b ++ [r]) := by
  have hrnd := not_isDots hr (by decide) (by decide)
  have hrdots : ∀ e, DotsNested e [r] := fun _ =>
    ⟨fun hk => absurd (hr.symm.trans hk) (by decide), fun h => absurd h hrnd, trivial⟩
  have hsteps : ∀ n, bstep n l = n ∧ bstep n d = n ∧ bstep n r = n := fun n => by
    simp [bstep, hl, hd, hr]
  have heq : l :: a ++ d :: b ++ [r] = l :: (a ++ d :: (b ++ [r])) := by simp
  rw [heq]
  refine ⟨?_, ?_, ?_, ?_, ?_⟩
  · intro u hu
    simp only [List.mem_cons, List.mem_append, List.not_mem_nil, or_false] at hu
    rcases hu with rfl | hu | rfl | hu | rfl
    · exact ⟨by rw [hl]; decide, by rw [hl]; decide⟩
    · exact ha.inOperand u hu
    · exact ⟨by rw [hd]; decide, by rw [hd]; decide⟩
    · exact hb.inOperand u hu
    · exact ⟨by rw [hr]; decide, by rw [hr]; decide⟩
  · simp [depths, depths_append, ha.depths_eq, hb.depths_eq, depth, hl, hd, hr]
  · -- inside the parentheses the depth is one more, so the range's own `..` is nested
    intro e he
    refine ⟨fun hk => absurd (hl.symm.trans hk) (by decide),
      fun h => absurd h (not_isDots hl (by decide) (by decide)), ?_⟩
    have hdepth : e + l.depth = e + 1 := by simp [depth, hl]
    rw [hdepth]
    refine DotsNested.append (ha.dots _ (by omega)) ?_ ha.last
    rw [ha.depths_eq, Int.add_zero]
    obtain ⟨u, us, rfl, hu⟩ := hb0
    refine ⟨fun _ => by omega, fun _ => ⟨u, us ++ [r], rfl, hu⟩, ?_⟩
    refine DotsNested.append (hb.dots _ (by simp [depth, hd]; omega)) ?_ hb.last
    exact hrdots _
  · intro n hn
    obtain ⟨hna, hfa⟩ := ha.brackets n hn
    obtain ⟨hnb, hfb⟩ := hb.brackets n hn
    obtain ⟨hsl, hsd, hsr⟩ := hsteps n
    refine ⟨⟨fun hk => absurd (hl.symm.trans hk) (by decide), ?_⟩, ?_⟩
    · rw [hsl]
      refine BracketsNested.append hna ?_
      rw [hfa]
      refine ⟨fun hk => absurd (hd.symm.trans hk) (by decide), ?_⟩
      rw [hsd]
      refine BracketsNested.append hnb ?_
      rw [hfb]
      exact ⟨fun hk => absurd (hr.symm.trans hk) (by decide), trivial⟩
    · simp only [List.foldl_cons, List.foldl_append, hsl, hfa, hsd, hfb, hsr, List.foldl_nil]
  · intro u hu
    rw [show l :: (a ++ d :: (b ++ [r])) = l :: a ++ d :: b ++ [r] by simp,
      List.getLast?_concat, Option.some.injEq] at hu
    subst hu
    exact hrnd

end Closed

mutual

/-- The tokens of an operand are `Closed` and do not start with a point. -/
theorem closed_of_operandToks {toks : List Token} {o : Operand} (h : OperandToks toks o) :
    Closed toks ∧ ∃ t ts, toks = t :: ts ∧ ¬ t.IsDots := by
  match h with
  | .name hk _ hl =>
    have hc := (Closed.single (.inl hk)).append (closed_of_lookupToks hl)
    exact ⟨by simpa using hc, _, _, rfl, not_isDots hk (by decide) (by decide)⟩
  | .index hl hin hr hts =>
    have hc := (Closed.bracket hl hr (closed_of_operandToks hin).1).append
      (closed_of_lookupToks hts)
    exact ⟨by simpa using hc, _, _, rfl, not_isDots hl (by decide) (by decide)⟩
  | .string hk =>
    exact ⟨Closed.single (.inr (.inl hk)), _, _, rfl, not_isDots hk (by decide) (by decide)⟩
  | .number hk =>
    exact ⟨Closed.single (.inr (.inr hk)), _, _, rfl, not_isDots hk (by decide) (by decide)⟩
  | .range hl ha hd hb hr =>
    have hc := Closed.range hl (closed_of_operandToks ha).1 hd (closed_of_operandToks hb).1
      (closed_of_operandToks hb).2 hr
    exact ⟨hc, _, _, rfl, not_isDots hl (by decide) (by decide)⟩

/-- The tokens of lookups are `Closed`. -/
theorem closed_of_lookupToks {ts : List Token} {ks : List Key} (h : LookupToks ts ks) :
    Closed ts := by
  match h with
  | .nil => exact Closed.nil
  | .name hd ht hts =>
    simpa using (Closed.dot_name hd ht).append (closed_of_lookupToks hts)
  | .index hl hin hr hts =>
    simpa using (Closed.bracket hl hr (closed_of_operandToks hin).1).append
      (closed_of_lookupToks hts)

end

/-! ### Bracketed parts -/

theorem bracketRest_plain {p : List Char} (hp : ∀ c ∈ p, c ≠ '"' ∧ c ≠ '\'' ∧ c ≠ '[' ∧ c ≠ ']')
    (d : Nat) (Y : List Char) :
    bracketRest d none (p ++ Y) = (bracketRest d none Y).map fun q => (p ++ q.1, q.2) := by
  induction p with
  | nil => simp
  | cons c p ih =>
    obtain ⟨h1, h2, h3, h4⟩ := hp c (by simp)
    rw [List.cons_append, bracketRest, if_neg (by simp [h1, h2]), if_neg h3, if_neg h4,
      ih (fun x hx => hp x (by simp [hx])), Option.map_map]
    rfl

theorem bracketRest_quoted {q : Char} {inner : List Char} (hq : q = '"' ∨ q = '\'')
    (hin : q ∉ inner) (d : Nat) (Y : List Char) :
    bracketRest d none (q :: inner ++ [q] ++ Y) =
      (bracketRest d none Y).map fun p => (q :: inner ++ [q] ++ p.1, p.2) := by
  -- inside the quotes nothing counts until the same quote
  have hstay : ∀ (cs : List Char), q ∉ cs → bracketRest d (some q) (cs ++ q :: Y) =
      (bracketRest d none Y).map fun p => (cs ++ q :: p.1, p.2) := by
    intro cs hcs
    induction cs with
    | nil => simp only [List.nil_append, bracketRest, if_true]
    | cons c cs ih =>
      have hc : c ≠ q := fun h => hcs (by simp [h])
      rw [List.cons_append, bracketRest, if_neg hc, ih (fun h => hcs (by simp [h])),
        Option.map_map]
      rfl
  have hform : q :: inner ++ [q] ++ Y = q :: (inner ++ q :: Y) := by simp
  rw [hform, bracketRest, if_pos hq, hstay inner hin, Option.map_map]
  congr 1
  funext p
  simp

theorem plain_of_space {c : Char} (h : isSpace c = true) :
    c ≠ '"' ∧ c ≠ '\'' ∧ c ≠ '[' ∧ c ≠ ']' := by
  obtain ⟨h1, h2, -, -, h5, h6, -⟩ := Text.ne_of_isSpace h
  exact ⟨h1, h2, h5, h6⟩

/-- How the reader of bracketed parts passes over one token's text. -/
theorem Shaped.bracketRest_value {t : Token} (h : Shaped t) (hin : t.InOperand) {d : Nat}
    (hr : t.kind = .rbracket → 2 ≤ d) (Y : List Char) :
    bracketRest d none (t.value.toList ++ Y) =
      (bracketRest (bstep d t) none Y).map fun q => (t.value.toList ++ q.1, q.2) := by
  obtain ⟨hcmp, heof⟩ := hin
  have hv := h.value_of_kind
  unfold Shaped at h
  cases hkind : t.kind <;> simp only [hkind] at h hcmp heof <;> simp only [bstep, hkind]
  case string =>
    obtain ⟨q, inner, hq, hin, hv⟩ := h
    rw [hv]
    exact bracketRest_quoted hq hin d Y
  case number =>
    refine bracketRest_plain (fun c hc => ?_) d Y
    rcases chars_of_isNumeral h c hc with rfl | rfl | hd
    · decide
    · decide
    · obtain ⟨-, -, h3, h4⟩ := of_isDigit hd
      obtain ⟨h1, h2, -, -⟩ := plain_of_isDigit hd
      exact ⟨h1, h2, h3, h4⟩
  case identifier =>
    refine bracketRest_plain (fun c hc => ?_) d Y
    rcases h.1.nameChar_or_question c hc with hname | rfl
    · obtain ⟨-, -, h3, h4⟩ := of_isNameChar hname
      obtain ⟨h1, h2, -, -⟩ := plain_of_isNameChar hname
      exact ⟨h1, h2, h3, h4⟩
    · decide
  case dotdot => rw [hv.2.1 hkind]; exact bracketRest_plain (Text.forall_mem_of_all (by decide)) d Y
  case dot => rw [hv.1 hkind]; exact bracketRest_plain (Text.forall_mem_of_all (by decide)) d Y
  case lparen => rw [hv.2.2.2.2.1 hkind]; exact bracketRest_plain (Text.forall_mem_of_all (by decide)) d Y
  case rparen => rw [hv.2.2.2.2.2 hkind]; exact bracketRest_plain (Text.forall_mem_of_all (by decide)) d Y
  case lbracket =>
    rw [hv.2.2.1 hkind]
    simp only [List.cons_append, List.nil_append, bracketRest]
    simp
  case rbracket =>
    rw [hv.2.2.2.1 hkind]
    have hd := hr hkind
    simp only [List.cons_append, List.nil_append, bracketRest]
    simp [show ¬ d ≤ 1 by omega]
  all_goals exact absurd rfl ‹_›

/-- The reader of bracketed parts passes over the text of tokens whose `]` stay above depth one. -/
theorem bracketRest_laid {x : List Char} {ts : List Token} (hx : Laid x ts)
    (hsh : ∀ t ∈ ts, Shaped t ∧ t.InOperand) {d : Nat} (hb : BracketsNested d ts) (Y : List Char) :
    bracketRest d none (x ++ Y) =
      (bracketRest (ts.foldl bstep d) none Y).map fun q => (x ++ q.1, q.2) := by
  induction hx generalizing d with
  | nil => simp
  | @cons g x' t ts hg _ ih =>
    obtain ⟨hsht, hint⟩ := hsh t (by simp)
    rw [List.append_assoc, List.append_assoc,
      bracketRest_plain (fun c hc => plain_of_space (hg c hc)),
      hsht.bracketRest_value hint hb.1, ih (fun u hu => hsh u (by simp [hu])) hb.2,
      Option.map_map, Option.map_map]
    simp only [Function.comp_def, List.foldl_cons, List.append_assoc]

/-! ### The ends of an operand's text -/

/-- The span of tokens starts with the first token's first character. -/
theorem Spans.head_char {y : List Char} {ts : List Token} (h : Spans y ts)
    (hsh : ∀ t ∈ ts, Shaped t ∧ t.InOperand) :
    ∃ t c cs, ts.head? = some t ∧ y = c :: cs ∧ isSpace c = false ∧ (c = '.' → t.IsDots) := by
  match ts, h with
  | t :: ts, ⟨rest, hy, _⟩ =>
    obtain ⟨c, cs, hv, hc, hdot⟩ := (hsh t (by simp)).1.head (hsh t (by simp)).2
    exact ⟨t, c, cs ++ rest, rfl, by rw [hy, hv]; rfl, hc, hdot⟩

/-- The text of a run of tokens ends with the last token's last character. -/
theorem Laid.last_char {y : List Char} {ts : List Token} (h : Laid y ts) (hne : ts ≠ [])
    (hsh : ∀ t ∈ ts, Shaped t ∧ t.InOperand) : ∃ ys c, y = ys ++ [c] ∧ isSpace c = false := by
  induction h with
  | nil => exact absurd rfl hne
  | @cons g x' t ts hg hx ih =>
    by_cases hts : ts = []
    · subst hts
      rw [hx.nil_inv]
      obtain ⟨cs, c, hv, hc⟩ := (hsh t (by simp)).1.last (hsh t (by simp)).2
      exact ⟨g ++ cs, c, by simp [hv], hc⟩
    · obtain ⟨ys, c, rfl, hc⟩ := ih hts (fun u hu => hsh u (by simp [hu]))
      exact ⟨g ++ t.value.toList ++ ys, c, by simp, hc⟩

theorem Spans.last_char {y : List Char} {ts : List Token} (h : Spans y ts)
    (hsh : ∀ t ∈ ts, Shaped t ∧ t.InOperand) : ∃ ys c, y = ys ++ [c] ∧ isSpace c = false := by
  match ts, h with
  | t :: ts, h => exact (h.laid (g := []) (by simp)).last_char (by simp) hsh

/-- Stripping a text padded with white space gives the text back when it neither starts nor ends
with white space. -/
theorem strip_pad {l y g : List Char} (hl : ∀ c ∈ l, isSpace c = true)
    (hg : ∀ c ∈ g, isSpace c = true) (hhead : ∃ c cs, y = c :: cs ∧ isSpace c = false)
    (hlast : ∃ ys c, y = ys ++ [c] ∧ isSpace c = false) : strip (l ++ y ++ g) = y := by
  obtain ⟨c, cs, hy, hc⟩ := hhead
  obtain ⟨ys, c', hy', hc'⟩ := hlast
  have hfront : dropSpace (l ++ y ++ g) = y ++ g := by
    rw [List.append_assoc, dropSpace_of_spaces hl, hy, List.cons_append, dropSpace_cons hc]
  have hback : dropSpace (y ++ g).reverse = y.reverse := by
    rw [List.reverse_append, dropSpace_of_spaces (fun x hx => hg x (List.mem_reverse.1 hx)), hy',
      List.reverse_append, List.reverse_singleton, List.singleton_append, dropSpace_cons hc']
  rw [strip, hfront, hback, List.reverse_reverse]

/-! ### What the reader's first tests make of a text -/

theorem reservedWord?_none {s : String} {c : Char} (hc : c ∈ s.toList)
    (hn : isNameStart c = false) : reservedWord? s = none := by
  cases h : reservedWord? s with
  | none => rfl
  | some o => rw [reservedWord?_some h c hc] at hn; cases hn

theorem quoted?_none {c : Char} {cs : List Char} (hc : c ≠ '"' ∧ c ≠ '\'') :
    quoted? (c :: cs) = none := by
  cases h : quoted? (c :: cs) with
  | none => rfl
  | some inside =>
    obtain ⟨q, hq, -, heq⟩ := quoted?_some h
    simp only [List.cons_append, List.cons.injEq] at heq
    rw [heq.1] at hc
    rcases hq with rfl | rfl
    · exact absurd rfl hc.1
    · exact absurd rfl hc.2

theorem integer?_none {cs : List Char} {c : Char} (hc : c ∈ cs) (h1 : c ≠ '-')
    (h2 : isDigit c = false) : integer? cs = none := by
  cases h : integer? cs with
  | none => rfl
  | some n =>
    rcases integer?_some h c hc with h | h
    · exact absurd h h1
    · rw [h] at h2; cases h2

theorem decimal?_none {cs : List Char} {c : Char} (hc : c ∈ cs) (h1 : c ≠ '-') (h2 : c ≠ '.')
    (h3 : isDigit c = false) : decimal? cs = none := by
  cases h : decimal? cs with
  | none => rfl
  | some x =>
    rcases decimal?_some h c hc with h | h | h
    · exact absurd h h1
    · exact absurd h h2
    · rw [h] at h3; cases h3

theorem rangeSplit_none {c : Char} {cs : List Char} (hc : c ≠ '(') : rangeSplit (c :: cs) = none := by
  unfold rangeSplit
  split
  · rename_i rest heq
    simp only [List.cons.injEq] at heq
    exact absurd heq.1 hc
  · rfl

theorem spanBracket_none {c : Char} {cs : List Char} (hc : c ≠ '[') :
    spanBracket (c :: cs) = none := by
  unfold spanBracket
  split
  · rename_i rest heq
    simp only [List.cons.injEq] at heq
    exact absurd heq.1 hc
  · rfl

theorem spanName_none {c : Char} {cs : List Char} (hc : isNameStart c = false) :
    spanName (c :: cs) = none := by
  simp [spanName, hc]

theorem parseLookups_space {c : Char} (hc : isSpace c = true) (whole : List Char) (root : Key)
    (done : List Key) (cs : List Char) :
    parseLookups whole root done (c :: cs) = .error (.invalidExpression (String.ofList whole)) := by
  obtain ⟨-, -, -, -, h5, -, h7, -⟩ := Text.ne_of_isSpace hc
  exact parseLookups.eq_4 _ _ _ _ _ h7 h5

/-! ### Where a range is cut -/

/-- `splitDots` cuts at the first place, one character on at least, where `..` and a last end
follow. -/
theorem splitDots_spec {taken rem a b : List Char} (h : splitDots taken rem = some (a, b)) :
    ∃ i, 1 ≤ i ∧ i ≤ rem.length ∧ a = taken ++ rem.take i ∧ afterDots (rem.drop i) = some b ∧
      ∀ j, 1 ≤ j → j < i → afterDots (rem.drop j) = none := by
  induction rem generalizing taken with
  | nil => simp [splitDots] at h
  | cons c tail ih =>
    simp only [splitDots] at h
    split at h
    · rename_i b' hb
      simp only [Option.some.injEq, Prod.mk.injEq] at h
      obtain ⟨rfl, rfl⟩ := h
      exact ⟨1, Nat.le_refl 1, by simp, by simp, by simpa using hb, fun j h1 h2 => by omega⟩
    · rename_i hnone
      obtain ⟨i, h1, hi, rfl, hb, hmin⟩ := ih h
      refine ⟨i + 1, by omega, by simp; omega, by simp, by simpa using hb, ?_⟩
      intro j hj1 hj2
      obtain ⟨j', rfl⟩ : ∃ j', j = j' + 1 := ⟨j - 1, by omega⟩
      by_cases hj' : j' = 0
      · subst hj'
        simpa using hnone
      · simpa using hmin j' (by omega) (by omega)

/-- White space, `..` and an end: the range end that follows. -/
theorem afterDots_dots {g r : List Char} (hg : ∀ c ∈ g, isSpace c = true) :
    afterDots (g ++ '.' :: '.' :: r) = rangeEnd r := by
  rw [afterDots, dropSpace_of_spaces hg, dropSpace_cons (by decide)]
  rfl

/-- A range end padded with white space is read without it. -/
theorem rangeEnd_pad {g0 y g : List Char} (hg0 : ∀ c ∈ g0, isSpace c = true)
    (hg : ∀ c ∈ g, isSpace c = true) (hhead : ∃ c cs, y = c :: cs ∧ isSpace c = false)
    (hlast : ∃ ys c, y = ys ++ [c] ∧ isSpace c = false) : rangeEnd (g0 ++ y ++ g) = some y := by
  obtain ⟨c, cs, hy, hc⟩ := hhead
  have hfront : dropSpace (g0 ++ y ++ g) = c :: (cs ++ g) := by
    rw [List.append_assoc, dropSpace_of_spaces hg0, hy, List.cons_append, dropSpace_cons hc]
  rw [rangeEnd, hfront, if_neg (by simp), strip_pad hg0 hg ⟨c, cs, hy, hc⟩ hlast]

/-- A range whose inside starts with white space `lead` and then `s`: its ends are the first cut of
`s`, or else one white space character. -/
theorem rangeSplit_paren {lead s a b : List Char} (hlead : ∀ c ∈ lead, isSpace c = true)
    (hs : ∃ c cs, s = c :: cs ∧ isSpace c = false)
    (h : rangeSplit ('(' :: (lead ++ s ++ [')'])) = some (a, b)) :
    splitDots [] s = some (a, b) ∨ ∃ c, a = [c] ∧ isSpace c = true := by
  obtain ⟨c, cs, rfl, hc⟩ := hs
  have hlead' : (lead ++ c :: cs).takeWhile isSpace = lead := by
    rw [List.takeWhile_append_of_pos hlead, List.takeWhile_cons_of_neg (by simp [hc]),
      List.append_nil]
  have hstart : (lead ++ c :: cs).dropWhile isSpace = c :: cs := by
    rw [List.dropWhile_append_of_pos hlead, List.dropWhile_cons_of_neg (by simp [hc])]
  simp only [rangeSplit, List.getLast?_concat, if_true, List.dropLast_concat, hlead',
    hstart] at h
  split at h
  · rename_i p hp
    simp only [Option.some.injEq] at h
    exact .inl (h ▸ hp)
  · split at h
    · rename_i c' b' hc' _
      simp only [Option.some.injEq, Prod.mk.injEq] at h
      obtain ⟨rfl, rfl⟩ := h
      exact .inr ⟨c', rfl, hlead c' (List.mem_of_getLast? hc')⟩
    · cases h

/-! ### Lookups -/

theorem lookupToks_eq_nil_iff {ts : List Token} {ks : List Key} (h : LookupToks ts ks) :
    ts = [] ↔ ks = [] := by
  cases h <;> simp

/-- A name may stop before the text of lookups. -/
theorem stopsName_of_lookupToks {ts : List Token} {ks : List Key} {y : List Char}
    (h : LookupToks ts ks) (hy : Laid y ts) (hsh : ∀ t ∈ ts, Shaped t) : StopsName y := by
  -- the text starts with white space, or with the `.` or `[` of the first lookup
  have hfirst : ∀ (t : Token) (us : List Token), Laid y (t :: us) → t ∈ ts →
      (t.value.toList = ['.'] ∨ t.value.toList = ['[']) → StopsName y := by
    intro t us hl _ hv x hx
    obtain ⟨g, y', rfl, hg, -⟩ := hl.cons_inv
    cases g with
    | nil =>
      rcases hv with hv | hv <;>
        simp only [hv, List.nil_append, List.cons_append, List.head?_cons,
          Option.some.injEq] at hx <;> subst hx <;> exact ⟨by decide, by decide⟩
    | cons c g =>
      simp only [List.cons_append, List.head?_cons, Option.some.injEq] at hx
      subst hx
      exact ⟨Text.isNameChar_of_isSpace (hg c (by simp)),
        (Text.ne_of_isSpace (hg c (by simp))).2.2.2.2.2.2.2.2⟩
  cases h with
  | nil =>
    rw [hy.nil_inv]
    intro x hx
    cases hx
  | name hd _ _ =>
    exact hfirst _ _ hy (by simp) (.inl ((hsh _ (by simp)).value_of_kind.1 hd))
  | index hl _ _ _ =>
    exact hfirst _ _ hy (by simp) (.inr ((hsh _ (by simp)).value_of_kind.2.2.1 hl))

/-- Where `..` follows in the span of an operand's tokens, the text before is not balanced. -/
theorem not_balanced_of_dots {toks : List Token} {o : Operand} {y : List Char}
    (h : OperandToks toks o) (hy : Spans y toks) (hsh : ∀ t ∈ toks, Shaped t) {Z w : List Char}
    {k : Nat} (hk : k < y.length) (hd : dropSpace ((y ++ Z).drop k) = '.' :: '.' :: w) :
    ¬ Balanced (y.take k) := by
  have hc := (closed_of_operandToks h).1
  have hlaid : Laid y toks := by simpa using hy.laid (g := []) (by simp)
  have hopen := open_of_dots hlaid (fun t ht => ⟨hsh t ht, hc.inOperand t ht⟩)
    (hc.dots 0 (Int.le_refl 0)) hk hd
  intro hbal
  rw [hbal 0] at hopen
  simp at hopen

/-! ### Reading the span of a derivation -/

/-- The reader only looks at the stripped text. -/
theorem parseChars_congr {cs cs' : List Char} (h : strip cs = strip cs') :
    parseChars cs = parseChars cs' := by
  rw [parseChars, parseChars]
  simp only
  rw [h]

/-- White space around a text that neither starts nor ends with it does not change its reading. -/
theorem parseChars_pad {g0 y g : List Char} (hg0 : ∀ c ∈ g0, isSpace c = true)
    (hg : ∀ c ∈ g, isSpace c = true) (hhead : ∃ c cs, y = c :: cs ∧ isSpace c = false)
    (hlast : ∃ ys c, y = ys ++ [c] ∧ isSpace c = false) :
    parseChars (g0 ++ y ++ g) = parseChars y := by
  refine parseChars_congr ?_
  rw [strip_pad hg0 hg hhead hlast]
  simpa using (strip_pad (l := []) (g := []) (by simp) (by simp) hhead hlast).symm

theorem quoted?_quote {q : Char} {inner : List Char} (hq : q = '"' ∨ q = '\'')
    (hin : q ∉ inner) : quoted? (q :: inner ++ [q]) = some inner := by
  simp [quoted?, hq, hin]

theorem spanKey_space {c : Char} {cs : List Char} (hc : isSpace c = true) :
    spanKey (c :: cs) = none := by
  simp [spanKey, Text.isNameChar_of_isSpace hc]

theorem pathOf_of_ne_nil {k : Key} {ks : List Key} (h : ks ≠ []) : pathOf k ks = .path k ks := by
  cases k with
  | name v =>
    cases ks with
    | nil => exact absurd rfl h
    | cons k ks => rfl
  | index o => rfl

/-- The text of an operand in brackets followed by lookups. -/
theorem Laid.bracket_inv {y : List Char} {l r : Token} {inner ts : List Token}
    (h : Laid y (l :: inner ++ r :: ts)) (hl : l.value.toList = ['['])
    (hr : r.value.toList = [']']) :
    ∃ g0 xi g2 y', y = g0 ++ '[' :: (xi ++ g2 ++ ']' :: y') ∧ (∀ c ∈ g0, isSpace c = true) ∧
      Laid xi inner ∧ (∀ c ∈ g2, isSpace c = true) ∧ Laid y' ts := by
  obtain ⟨ya, yb, rfl, ha, hb⟩ := h.append_inv
  obtain ⟨g0, xi, rfl, hg0, hxi⟩ := ha.cons_inv
  obtain ⟨g2, y', rfl, hg2, hy'⟩ := hb.cons_inv
  exact ⟨g0, xi, g2, y', by simp [hl, hr], hg0, hxi, hg2, hy'⟩

/-- A bracketed part holding the text of an operand ends at its own `]`. -/
theorem spanBracket_operand {inner : List Token} {o : Operand} (h : OperandToks inner o)
    (hsh : ∀ t ∈ inner, Shaped t) {xi g2 y' : List Char} (hxi : Laid xi inner)
    (hg2 : ∀ c ∈ g2, isSpace c = true) :
    spanBracket ('[' :: (xi ++ g2 ++ ']' :: y')) = some (xi ++ g2, y') := by
  have hc := (closed_of_operandToks h).1
  obtain ⟨hnest, hfold⟩ := hc.brackets 1 (Nat.le_refl 1)
  rw [spanBracket, List.append_assoc,
    bracketRest_laid hxi (fun t ht => ⟨hsh t ht, hc.inOperand t ht⟩) hnest, hfold,
    bracketRest_plain (fun c hc => plain_of_space (hg2 c hc))]
  simp [bracketRest]

/-- The span of the tokens `toks` reads, when it reads at all, as `o`; white space around it
included. -/
def ReadsAs (toks : List Token) (o : Operand) : Prop :=
  ∀ x g o', Laid x toks → (∀ c ∈ g, isSpace c = true) → parseChars (x ++ g) = .ok o' → o' = o

/-- The text of the lookups `ts` reads, after a root and the keys `done` read before, as the path
with the keys `ks` added. -/
def LookupsReadAs (ts : List Token) (ks : List Key) : Prop :=
  ∀ y whole root done o', Laid y ts → parseLookups whole root done y = .ok o' →
    o' = .path root (done.reverse ++ ks)

theorem Shaped.name {t : Token} (h : Shaped t) (hk : t.kind = .identifier) :
    IsName t.value.toList := by
  unfold Shaped at h
  simp only [hk] at h
  exact h.1

theorem Shaped.quoted {t : Token} (h : Shaped t) (hk : t.kind = .string) :
    IsQuoted t.value.toList := by
  unfold Shaped at h
  simp only [hk] at h
  exact h

theorem Shaped.numeral {t : Token} (h : Shaped t) (hk : t.kind = .number) :
    IsNumeral t.value.toList := by
  unfold Shaped at h
  simp only [hk] at h
  exact h

/-! ### Lookups read as their keys -/

theorem lookupsReadAs_nil : LookupsReadAs [] [] := by
  intro y whole root done o' hy hp
  rw [hy.nil_inv, parseLookups.eq_1, Except.ok.injEq] at hp
  rw [← hp, List.append_nil]

/-- A point and a name: no white space may stand before the point or after it. -/
theorem lookupsReadAs_name {d t : Token} {ts : List Token} {ks : List Key} (hd : d.kind = .dot)
    (ht : t.kind = .identifier) (hl : LookupToks ts ks) (hsh : ∀ u ∈ d :: t :: ts, Shaped u)
    (ih : LookupsReadAs ts ks) : LookupsReadAs (d :: t :: ts) (.name t.value :: ks) := by
  intro y whole root done o' hy hp
  obtain ⟨g0, y1, rfl, hg0, hy1⟩ := hy.cons_inv
  obtain ⟨g1, y', rfl, hg1, hy'⟩ := hy1.cons_inv
  have hdv : d.value.toList = ['.'] := (hsh d (by simp)).value_of_kind.1 hd
  cases g0 with
  | cons c g0 =>
    rw [List.cons_append, List.cons_append, parseLookups_space (hg0 c (by simp))] at hp
    cases hp
  | nil =>
    rw [List.nil_append, hdv, List.singleton_append, parseLookups.eq_2] at hp
    split at hp
    · rename_i key after hkey
      cases g1 with
      | cons c g1 =>
        rw [List.cons_append, List.cons_append, spanKey_space (hg1 c (by simp))] at hkey
        cases hkey
      | nil =>
        have hstop := stopsName_of_lookupToks hl hy' (fun u hu => hsh u (by simp [hu]))
        rw [List.nil_append, spanKey_append ((hsh t (by simp)).name ht) hstop] at hkey
        simp only [Option.some.injEq, Prod.mk.injEq] at hkey
        obtain ⟨rfl, rfl⟩ := hkey
        simp only [String.ofList_toList] at hp
        rw [ih _ whole root _ o' hy' hp]
        simp
    · cases hp

/-- An operand in brackets: no white space may stand before the bracket. -/
theorem lookupsReadAs_index {l r : Token} {inner ts : List Token} {o : Operand} {ks : List Key}
    (hl : l.kind = .lbracket) (hin : OperandToks inner o) (hr : r.kind = .rbracket)
    (hsh : ∀ u ∈ l :: inner ++ r :: ts, Shaped u) (ihin : ReadsAs inner o)
    (ih : LookupsReadAs ts ks) : LookupsReadAs (l :: inner ++ r :: ts) (.index o :: ks) := by
  intro y whole root done o' hy hp
  obtain ⟨g0, xi, g2, y', rfl, hg0, hxi, hg2, hy'⟩ :=
    hy.bracket_inv ((hsh l (by simp)).value_of_kind.2.2.1 hl)
      ((hsh r (by simp)).value_of_kind.2.2.2.1 hr)
  cases g0 with
  | cons c g0 =>
    rw [List.cons_append, parseLookups_space (hg0 c (by simp))] at hp
    cases hp
  | nil =>
    rw [List.nil_append, parseLookups.eq_3] at hp
    split at hp
    · rename_i inside after hspan
      rw [spanBracket_operand hin (fun u hu => hsh u (by simp [hu])) hxi hg2,
        Option.some.injEq, Prod.mk.injEq] at hspan
      obtain ⟨rfl, rfl⟩ := hspan
      split at hp
      · cases hp
      rename_i key hkey
      rw [ihin xi g2 key hxi hg2 hkey] at hp
      rw [ih _ whole root _ o' hy' hp]
      simp
    · cases hp

/-! ### The reader's course on a stripped text -/

/-- Past the literal tests, a text reads as a range or as a path. -/
theorem parseChars_past_literals {t : List Char} {o : Operand} (hstrip : strip t = t)
    (hne : t ≠ []) (hres : reservedWord? (String.ofList t) = none) (hq : quoted? t = none)
    (hi : integer? t = none) (hd : decimal? t = none) (hp : parseChars t = .ok o) :
    (∃ a b first last, rangeSplit t = some (a, b) ∧ parseChars a = .ok first ∧
      parseChars b = .ok last ∧ o = .range first last) ∨
      (rangeSplit t = none ∧ parsePath t = .ok o) := by
  rw [parseChars] at hp
  simp only at hp
  rw [hstrip, if_neg (by simpa using hne)] at hp
  simp only [hres, hq, hi, hd] at hp
  split at hp
  · rename_i a b hsplit
    split at hp
    · cases hp
    rename_i first hfirst
    split at hp
    · cases hp
    rename_i last hlast
    exact .inl ⟨a, b, first, last, hsplit, hfirst, hlast, (Except.ok.inj hp).symm⟩
  · rename_i hsplit
    exact .inr ⟨hsplit, hp⟩

/-- A text whose first character starts neither a bracketed root nor a name is no path. -/
theorem parsePath_of_head {c : Char} {cs : List Char} (h1 : c ≠ '[') (h2 : isNameStart c = false) :
    parsePath (c :: cs) = .error (.invalidExpression (String.ofList (c :: cs))) := by
  rw [parsePath]
  split
  · rename_i inside after h
    rw [spanBracket_none h1] at h
    cases h
  · rw [if_neg (by simpa using h1)]
    split
    · rename_i name rest h
      rw [spanName_none h2] at h
      cases h
    · rfl

theorem parsePath_of_spanName {t name rest : List Char} (hb : spanBracket t = none)
    (hh : t.head? ≠ some '[') (hn : spanName t = some (name, rest)) :
    parsePath t = parseLookups t (.name (String.ofList name)) [] rest := by
  rw [parsePath]
  split
  · rename_i inside after h
    rw [hb] at h
    cases h
  · rw [if_neg hh]
    split
    · rename_i name' rest' h
      rw [hn, Option.some.injEq, Prod.mk.injEq] at h
      obtain ⟨rfl, rfl⟩ := h
      rfl
    · rename_i h
      rw [hn] at h
      cases h

theorem parsePath_of_spanBracket {t inside rest : List Char} {o : Operand}
    (hb : spanBracket t = some (inside, rest)) (hp : parsePath t = .ok o) :
    ∃ root, parseChars inside = .ok root ∧ parseLookups t (.index root) [] rest = .ok o := by
  rw [parsePath] at hp
  split at hp
  · rename_i inside' rest' h
    rw [hb, Option.some.injEq, Prod.mk.injEq] at h
    obtain ⟨rfl, rfl⟩ := h
    split at hp
    · cases hp
    rename_i root hroot
    exact ⟨root, hroot, hp⟩
  · rename_i h
    rw [hb] at h
    cases h

/-! ### Operands read as their trees -/

/-- To read the padded text of a run of tokens is to read their span, which strips to itself. -/
theorem ReadsAs.of_spans {toks : List Token} {o : Operand} (hne : toks ≠ [])
    (hsh : ∀ t ∈ toks, Shaped t ∧ t.InOperand)
    (h : ∀ y o', Spans y toks → strip y = y → parseChars y = .ok o' → o' = o) :
    ReadsAs toks o := by
  intro x g o' hx hg hp
  match toks, hx, hne with
  | t :: ts, hx, _ =>
    obtain ⟨g0, y, rfl, hg0, hy⟩ := hx.spans
    have hhead := hy.head_char hsh
    obtain ⟨_, c, cs, -, hc, hcs, -⟩ := hhead
    have hlast := hy.last_char hsh
    rw [parseChars_pad hg0 hg ⟨c, cs, hc, hcs⟩ hlast] at hp
    refine h y o' hy ?_ hp
    simpa using strip_pad (l := []) (g := []) (by simp) (by simp) ⟨c, cs, hc, hcs⟩ hlast

theorem readsAs_string {t : Token} (hk : t.kind = .string) (hsh : Shaped t) :
    ReadsAs [t] (ofString t.value) := by
  have hin : t.InOperand := ⟨by rw [hk]; decide, by rw [hk]; decide⟩
  refine ReadsAs.of_spans (by simp) (by simpa using ⟨hsh, hin⟩) fun y o' hy hstrip hp => ?_
  obtain ⟨rest, rfl, hrest⟩ := hy
  obtain ⟨q, inner, hq, hinner, hv⟩ := hsh.quoted hk
  rw [hrest.nil_inv, List.append_nil] at hstrip hp
  have hqs : isNameStart q = false := by rcases hq with rfl | rfl <;> decide
  rw [parseChars] at hp
  simp only at hp
  rw [hstrip, hv, reservedWord?_none (c := q) (by simp) hqs, quoted?_quote hq hinner] at hp
  rw [if_neg (by simp), Except.ok.injEq] at hp
  have htail : t.value.toList.tail.dropLast = inner := by
    rw [hv]
    simp
  rw [← hp, ofString, htail, ← hv, String.ofList_toList]

theorem readsAs_number {t : Token} (hk : t.kind = .number) (hsh : Shaped t) :
    ReadsAs [t] (ofNumber t.value) := by
  have hin : t.InOperand := ⟨by rw [hk]; decide, by rw [hk]; decide⟩
  refine ReadsAs.of_spans (by simp) (by simpa using ⟨hsh, hin⟩) fun y o' hy hstrip hp => ?_
  obtain ⟨rest, rfl, hrest⟩ := hy
  rw [hrest.nil_inv, List.append_nil] at hstrip hp
  obtain ⟨c, cs, hv, -, hdot⟩ := hsh.head hin
  -- a number starts with a sign or a digit
  have hc : c = '-' ∨ isDigit c = true := by
    rcases chars_of_isNumeral (hsh.numeral hk) c (by simp [hv]) with h | h | h
    · exact .inl h
    · exact absurd (hdot h) (not_isDots hk (by decide) (by decide))
    · exact .inr h
  have hc' : isNameStart c = false ∧ c ≠ '"' ∧ c ≠ '\'' ∧ c ≠ '(' ∧ c ≠ '[' := by
    rcases hc with rfl | hd
    · decide
    · obtain ⟨h1, h2, h3, -⟩ := plain_of_isDigit hd
      refine ⟨?_, h1, h2, h3, (of_isDigit hd).2.2.1⟩
      cases hn : isNameStart c
      · rfl
      · rw [(of_isNameStart hn).2.1] at hd
        cases hd
  have hres : reservedWord? (String.ofList t.value.toList) = none :=
    reservedWord?_none (c := c) (by rw [String.toList_ofList, hv]; simp) hc'.1
  have hq : quoted? t.value.toList = none := by
    rw [hv]
    exact quoted?_none ⟨hc'.2.1, hc'.2.2.1⟩
  have hp0 := hp
  rw [parseChars] at hp
  simp only at hp
  rw [hstrip, if_neg (by simp [hv])] at hp
  simp only [hres, hq] at hp
  cases hi : integer? t.value.toList with
  | some n =>
    -- an integer within the digit limit
    simp only [hi] at hp
    have hlim : ∀ (e : SyntaxFault) (b : Prop) [Decidable b],
        (if b then .error e else .ok (literal (.int n) (String.ofList t.value.toList))) =
          Except.ok o' → o' = literal (.int n) (String.ofList t.value.toList) := by
      intro e b _ h
      split at h
      · cases h
      · exact (Except.ok.inj h).symm
    rw [hlim _ _ hp, ofNumber, hi, String.ofList_toList]
  | none =>
    cases hd : decimal? t.value.toList with
    | some x =>
      simp only [hi, hd, Except.ok.injEq] at hp
      rw [← hp, ofNumber, hi, hd, String.ofList_toList]
      rfl
    | none =>
      -- no literal: neither a range nor a path starts with a sign or a digit
      rcases parseChars_past_literals hstrip (by simp [hv]) hres hq hi hd hp0 with
        ⟨a, b, -, -, hsplit, -⟩ | ⟨-, hpath⟩
      · rw [hv, rangeSplit_none hc'.2.2.2.1] at hsplit
        cases hsplit
      · rw [hv, parsePath_of_head hc'.2.2.2.2 hc'.1] at hpath
        cases hpath

/-- A name and its lookups: a reserved word when it stands alone, else a path. -/
theorem readsAs_name {t : Token} {ts : List Token} {ks : List Key} (hk : t.kind = .identifier)
    (hl : LookupToks ts ks) (hsh : ∀ u ∈ t :: ts, Shaped u ∧ u.InOperand)
    (ih : LookupsReadAs ts ks) : ReadsAs (t :: ts) (pathOf (.name t.value) ks) := by
  refine ReadsAs.of_spans (by simp) hsh fun y o' hy hstrip hp => ?_
  obtain ⟨y', rfl, hy'⟩ := hy
  have hname := (hsh t (by simp)).1.name hk
  have hstop := stopsName_of_lookupToks hl hy' (fun u hu => (hsh u (by simp [hu])).1)
  obtain ⟨c, cs, hv, hc⟩ : ∃ c cs, t.value.toList = c :: cs ∧ isNameStart c = true := by
    obtain ⟨c, body, hc, -, hv | hv⟩ := hname
    · exact ⟨c, body, hv, hc⟩
    · exact ⟨c, body ++ ['?'], by simp [hv], hc⟩
  obtain ⟨-, -, -, hq1, hq2, hminus, hdot, hparen, hbr, -⟩ := of_isNameStart hc
  have hdigit : isDigit c = false := (of_isNameStart hc).2.1
  have hcy : t.value.toList ++ y' = c :: (cs ++ y') := by rw [hv]; rfl
  have hcmem : c ∈ t.value.toList ++ y' := by simp [hcy]
  -- unless the whole text is a reserved word, it is a path: its root name, then the lookups
  have hpath : reservedWord? (String.ofList (t.value.toList ++ y')) = none →
      o' = .path (.name t.value) ks := by
    intro hres
    rcases parseChars_past_literals hstrip (by simp [hcy]) hres
      (by rw [hcy]; exact quoted?_none ⟨hq1, hq2⟩) (integer?_none hcmem hminus hdigit)
      (decimal?_none hcmem hminus hdot hdigit) hp with ⟨a, b, -, -, hsplit, -⟩ | ⟨-, hpath⟩
    · rw [hcy, rangeSplit_none hparen] at hsplit
      cases hsplit
    · rw [parsePath_of_spanName (by rw [hcy]; exact spanBracket_none hbr) (by simp [hcy, hbr])
        (spanName_append hname hstop), String.ofList_toList] at hpath
      rw [ih y' _ _ [] o' hy' hpath, List.reverse_nil, List.nil_append]
  cases ts with
  | nil =>
    -- a lone name: a reserved word or a path with no lookups
    have hks : ks = [] := (lookupToks_eq_nil_iff hl).1 rfl
    subst hks
    have hy0 : y' = [] := hy'.nil_inv
    subst hy0
    rw [List.append_nil, String.ofList_toList] at hpath
    cases hres : reservedWord? t.value with
    | some w =>
      rw [parseChars] at hp
      simp only at hp
      rw [hstrip, if_neg (by simp [hcy]), List.append_nil, String.ofList_toList, hres] at hp
      simp only [Except.ok.injEq] at hp
      rw [← hp, pathOf, hres]
      rfl
    | none => rw [hpath hres, pathOf, hres]; rfl
  | cons u us =>
    -- lookups follow, and their text starts with a character no name has
    have hks : ks ≠ [] := fun h => by cases (lookupToks_eq_nil_iff hl).2 h
    obtain ⟨g, z, rfl, -, -⟩ := hy'.cons_inv
    obtain ⟨x, xs, hx, -, -⟩ := (hsh u (by simp)).1.head (hsh u (by simp)).2
    obtain ⟨x0, hx0⟩ : ∃ x0, (g ++ u.value.toList ++ z).head? = some x0 := by
      cases g <;> simp [hx]
    have hxs : isNameStart x0 = false := by
      cases hn : isNameStart x0
      · rfl
      · have hnc := (hstop x0 hx0).1
        rw [(of_isNameStart hn).1] at hnc
        cases hnc
    have hxmem : x0 ∈ (t.value.toList ++ (g ++ u.value.toList ++ z)) :=
      List.mem_append_right _ (List.mem_of_mem_head? hx0)
    rw [hpath (reservedWord?_none (by simpa using hxmem) hxs), pathOf_of_ne_nil hks]

/-- An operand in brackets and its lookups: the bracketed text reads as the root. -/
theorem readsAs_index {l r : Token} {inner ts : List Token} {o : Operand} {ks : List Key}
    (hl : l.kind = .lbracket) (hin : OperandToks inner o) (hr : r.kind = .rbracket)
    (hsh : ∀ u ∈ l :: inner ++ r :: ts, Shaped u ∧ u.InOperand) (ihin : ReadsAs inner o)
    (ih : LookupsReadAs ts ks) : ReadsAs (l :: inner ++ r :: ts) (.path (.index o) ks) := by
  refine ReadsAs.of_spans (by simp) hsh fun y o' hy hstrip hp => ?_
  obtain ⟨rest, rfl, hrest⟩ := hy
  obtain ⟨xi, yb, rfl, hxi, hyb⟩ := hrest.append_inv
  obtain ⟨g2, y', rfl, hg2, hy'⟩ := hyb.cons_inv
  have hlv : l.value.toList = ['['] := (hsh l (by simp)).1.value_of_kind.2.2.1 hl
  have hrv : r.value.toList = [']'] := (hsh r (by simp)).1.value_of_kind.2.2.2.1 hr
  have hy : l.value.toList ++ (xi ++ (g2 ++ r.value.toList ++ y')) =
      '[' :: (xi ++ g2 ++ ']' :: y') := by simp [hlv, hrv]
  rw [hy] at hstrip hp
  have hmem : '[' ∈ '[' :: (xi ++ g2 ++ ']' :: y') := List.mem_cons_self
  rcases parseChars_past_literals hstrip (by simp)
      (reservedWord?_none (c := '[') (by simp) (by decide)) (quoted?_none (by decide))
      (integer?_none hmem (by decide) (by decide)) (decimal?_none hmem (by decide) (by decide)
        (by decide)) hp with ⟨a, b, -, -, hsplit, -⟩ | ⟨-, hpath⟩
  · rw [rangeSplit_none (by decide)] at hsplit
    cases hsplit
  -- the root is the bracketed text, and the lookups follow the closing bracket
  have hinsh : ∀ u ∈ inner, Shaped u := fun u hu => (hsh u (by simp [hu])).1
  obtain ⟨root, hroot, hlook⟩ :=
    parsePath_of_spanBracket (spanBracket_operand hin hinsh hxi hg2) hpath
  rw [ihin xi g2 root hxi hg2 hroot] at hlook
  rw [ih y' _ _ [] o' hy' hlook, List.reverse_nil, List.nil_append]

/-- A range: the reader cuts it at the `..` between the two ends, since before that `..` every
place where `..` follows lies inside brackets, parentheses or quotes of the first end. -/
theorem readsAs_range {l d r : Token} {a b : List Token} {oa ob : Operand}
    (hl : l.kind = .lparen) (ha : OperandToks a oa) (hd : d.kind = .dotdot)
    (hb : OperandToks b ob) (hr : r.kind = .rparen)
    (hsh : ∀ u ∈ l :: a ++ d :: b ++ [r], Shaped u ∧ u.InOperand) (iha : ReadsAs a oa)
    (ihb : ReadsAs b ob) : ReadsAs (l :: a ++ d :: b ++ [r]) (.range oa ob) := by
  refine ReadsAs.of_spans (by simp) hsh fun y o' hy hstrip hp => ?_
  have hlist : l :: a ++ d :: b ++ [r] = l :: (a ++ d :: b ++ [r]) := by simp
  rw [hlist] at hy
  obtain ⟨rest, rfl, hrest⟩ := hy
  obtain ⟨x12, x3, rfl, h12, h3⟩ := hrest.append_inv
  obtain ⟨xa, x2, rfl, hxa, h2⟩ := h12.append_inv
  obtain ⟨g1, xb, rfl, hg1, hxb⟩ := h2.cons_inv
  obtain ⟨g3, x4, rfl, hg3, h4⟩ := h3.cons_inv
  rw [h4.nil_inv] at hstrip hp
  -- each end is white space, then the span of its tokens
  have hsha : ∀ u ∈ a, Shaped u ∧ u.InOperand := fun u hu => hsh u (by simp [hu])
  have hshb : ∀ u ∈ b, Shaped u ∧ u.InOperand := fun u hu => hsh u (by simp [hu])
  obtain ⟨ta, tas, rfl, -⟩ := (closed_of_operandToks ha).2
  obtain ⟨tb, tbs, rfl, -⟩ := (closed_of_operandToks hb).2
  obtain ⟨ga, ya, rfl, hga, hya⟩ := hxa.spans
  obtain ⟨gb, yb, rfl, hgb, hyb⟩ := hxb.spans
  obtain ⟨-, c, cs, -, hca, hc, -⟩ := hya.head_char hsha
  have hheadb := hyb.head_char hshb
  obtain ⟨-, cb, csb, -, hcb, hcb', -⟩ := hheadb
  have hlaida : Laid ya (ta :: tas) := by simpa using hya.laid (g := []) (by simp)
  have hlaidb : Laid yb (tb :: tbs) := by simpa using hyb.laid (g := []) (by simp)
  have hlv : l.value.toList = ['('] := (hsh l (by simp)).1.value_of_kind.2.2.2.2.1 hl
  have hdv : d.value.toList = ['.', '.'] := (hsh d (by simp)).1.value_of_kind.2.1 hd
  have hrv : r.value.toList = [')'] := (hsh r (by simp)).1.value_of_kind.2.2.2.2.2 hr
  obtain ⟨s, hs⟩ : ∃ s, s = ya ++ (g1 ++ '.' :: '.' :: (gb ++ yb ++ g3)) := ⟨_, rfl⟩
  have hy : l.value.toList ++ (ga ++ ya ++ (g1 ++ d.value.toList ++ (gb ++ yb)) ++
      (g3 ++ r.value.toList ++ [])) = '(' :: (ga ++ s ++ [')']) := by simp [hlv, hdv, hrv, hs]
  rw [hy] at hstrip hp
  have hmem : '(' ∈ '(' :: (ga ++ s ++ [')']) := List.mem_cons_self
  rcases parseChars_past_literals hstrip (by simp)
      (reservedWord?_none (c := '(') (by simp) (by decide)) (quoted?_none (by decide))
      (integer?_none hmem (by decide) (by decide)) (decimal?_none hmem (by decide) (by decide)
        (by decide)) hp with ⟨A, B, first, last, hsplit, hfirst, hlast, rfl⟩ | ⟨-, hpath⟩
  case inr =>
    rw [parsePath_of_head (by decide) (by decide)] at hpath
    cases hpath
  rcases rangeSplit_paren hga ⟨c, cs ++ (g1 ++ '.' :: '.' :: (gb ++ yb ++ g3)),
      by rw [hs, hca]; rfl, hc⟩ hsplit with hdots | ⟨c, rfl, hc⟩
  case inr =>
    -- a lone white space character reads as nothing
    exact absurd (strip_space hc) (strip_ne_nil_of_parseChars hfirst)
  obtain ⟨i, hi1, -, hA, hB, hmin⟩ := splitDots_spec hdots
  -- the cut after the first end is a place where `..` and a last end follow
  have hcut : afterDots (s.drop ya.length) = some yb := by
    rw [hs, List.drop_left, afterDots_dots hg1, rangeEnd_pad hgb hg3 ⟨cb, csb, hcb, hcb'⟩
      (hyb.last_char hshb)]
  have hya1 : 1 ≤ ya.length := by rw [hca]; simp
  -- and it is the first such place
  have hile : i ≤ ya.length := by
    refine Nat.le_of_not_lt fun hlt => ?_
    rw [hmin ya.length hya1 hlt] at hcut
    cases hcut
  have hige : ¬ i < ya.length := by
    intro hlt
    obtain ⟨g, w, hsw, hg, -⟩ := afterDots_some hB
    have hdrop : dropSpace ((ya ++ (g1 ++ '.' :: '.' :: (gb ++ yb ++ g3))).drop i) =
        '.' :: '.' :: w := by
      rw [← hs, hsw, dropSpace_of_spaces hg, dropSpace_cons (by decide)]
    refine not_balanced_of_dots ha hya (fun u hu => (hsha u hu).1) hlt hdrop ?_
    have hbal := balanced_of_parseChars hfirst
    rwa [hA, List.nil_append, hs, List.take_append_of_le_length hile] at hbal
  have hi : i = ya.length := by omega
  subst hi
  rw [hB, Option.some.injEq] at hcut
  subst hcut
  rw [hA, List.nil_append, hs, List.take_left] at hfirst
  rw [iha ya [] first hlaida (by simp) (by simpa using hfirst),
    ihb B [] last hlaidb (by simp) (by simpa using hlast)]

mutual

/-- The padded span of a derivation's tokens reads, when it reads, as the derivation's tree. -/
theorem readsAs_of_operandToks {toks : List Token} {o : Operand} (h : OperandToks toks o)
    (hsh : ∀ t ∈ toks, Shaped t) : ReadsAs toks o := by
  have hin := (closed_of_operandToks h).1.inOperand
  have hsh' : ∀ t ∈ toks, Shaped t ∧ t.InOperand := fun t ht => ⟨hsh t ht, hin t ht⟩
  match h with
  | .name hk _ hl =>
    exact readsAs_name hk hl hsh'
      (lookupsReadAs_of_lookupToks hl fun u hu => hsh u (by simp [hu]))
  | .index hl hinner hr hts =>
    exact readsAs_index hl hinner hr hsh'
      (readsAs_of_operandToks hinner fun u hu => hsh u (by simp [hu]))
      (lookupsReadAs_of_lookupToks hts fun u hu => hsh u (by simp [hu]))
  | .string hk => exact readsAs_string hk (hsh _ (by simp))
  | .number hk => exact readsAs_number hk (hsh _ (by simp))
  | .range hl ha hd hb hr =>
    exact readsAs_range hl ha hd hb hr hsh'
      (readsAs_of_operandToks ha fun u hu => hsh u (by simp [hu]))
      (readsAs_of_operandToks hb fun u hu => hsh u (by simp [hu]))

/-- The text of lookups reads, when it reads, as their keys. -/
theorem lookupsReadAs_of_lookupToks {ts : List Token} {ks : List Key} (h : LookupToks ts ks)
    (hsh : ∀ t ∈ ts, Shaped t) : LookupsReadAs ts ks := by
  match h with
  | .nil => exact lookupsReadAs_nil
  | .name hd ht hl =>
    exact lookupsReadAs_name hd ht hl hsh
      (lookupsReadAs_of_lookupToks hl fun u hu => hsh u (by simp [hu]))
  | .index hl hinner hr hts =>
    exact lookupsReadAs_index hl hinner hr hsh
      (readsAs_of_operandToks hinner fun u hu => hsh u (by simp [hu]))
      (lookupsReadAs_of_lookupToks hts fun u hu => hsh u (by simp [hu]))

end

/-- The span of a derivation's tokens reads, when it reads, as the derivation's tree. -/
theorem parseChars_of_operandToks {toks : List Token} {o o' : Operand} {y : List Char}
    (h : OperandToks toks o) (hsh : ∀ t ∈ toks, Shaped t) (hy : Spans y toks)
    (hp : parseChars y = .ok o') : o' = o := by
  match toks, hy with
  | t :: ts, hy =>
    have hlaid : Laid y (t :: ts) := by simpa using hy.laid (g := []) (by simp)
    exact readsAs_of_operandToks h hsh y [] o' hlaid (by simp) (by simpa using hp)

end Branching.Token
