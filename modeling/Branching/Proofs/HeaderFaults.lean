import Branching.Proofs.TemplateErrors
import Branching.Proofs.LenientSplit

/-!
# What reading a header fails with

Reading a header, in any mode and under any bound, either gives a chain or refuses the header.
A chain is finite and its links well formed by construction: a link compares exactly when it has
both an operator and a right operand, and every link after the first has its keyword. The refusals
are faults of the grammar, reported as syntax errors naming the header, with one exception: an
integer literal with more than `integerDigitLimit` digits is refused by the limit on integer
texts, which is no syntax error. That refusal is raised only when the header holds more than
`integerDigitLimit` digits in a row (`Mode.read_fails_by_grammar`); in warn mode it is not read
again leniently.

The limit reaches every mode: in strict mode a header whose first operand is such a literal is
refused by the limit even where the rest of the header would be a fault of the grammar
(`Strict.parse_long_integer`).

## Main definitions

- `SyntaxFault.FromText`: a fault of the grammar, or the integer limit reached by a run of digits
  of a given text.

## Main statements

- `Operand.parseChars_fromText`: the faults of reading an operand.
- `Strict.parse_fromText`, `Lenient.parse_fromText`: the faults of the two grammars.
- `Mode.read_fails_by_grammar`: what reading a header in any mode fails with.
-/

namespace Branching

open Text

namespace SyntaxFault

/-- A fault that reading the text `cs` may give: a fault of the grammar, or the refusal of an
integer literal whose digits, more than `integerDigitLimit` of them, stand together in `cs`. -/
def FromText (cs : List Char) (f : SyntaxFault) : Prop :=
  f.isLimit = false ∨ ∃ ds, f = .integerTooLong ds.length ∧ integerDigitLimit < ds.length ∧
    (∀ c ∈ ds, isDigit c = true) ∧ ds <:+: cs

namespace FromText

variable {a b : List Char} {f : SyntaxFault}

theorem of_isLimit (h : f.isLimit = false) : f.FromText a := .inl h

/-- A fault of a piece of a text is a fault of the text. -/
theorem mono (h : f.FromText a) (hab : a <:+: b) : f.FromText b := by
  rcases h with h | ⟨ds, hf, hlen, hd, hin⟩
  · exact .inl h
  · exact .inr ⟨ds, hf, hlen, hd, hin.trans hab⟩

end FromText

end SyntaxFault

open SyntaxFault

/-! ### Operands -/

namespace Operand

theorem infix_of_rangeEnd {r b : List Char} (h : rangeEnd r = some b) : b <:+: r := by
  unfold rangeEnd at h
  split at h
  · obtain ⟨c, hc, rfl⟩ := Option.map_eq_some_iff.1 h
    obtain ⟨front, rfl⟩ := List.getLast?_eq_some_iff.1 hc
    exact List.infix_append_right
  · cases h
    exact strip_inside r

theorem infix_of_afterDots {m b : List Char} (h : afterDots m = some b) : b <:+: m := by
  obtain ⟨g, r, rfl, -, hr⟩ := afterDots_some h
  exact (infix_of_rangeEnd hr).trans ⟨g ++ ['.', '.'], [], by simp⟩

/-- Both ends of a range are pieces of its text. -/
theorem infix_of_rangeSplit {t a b : List Char} (h : rangeSplit t = some (a, b)) :
    a <:+: t ∧ b <:+: t := by
  unfold rangeSplit at h
  split at h
  · rename_i rest
    split at h
    · -- the body between the parentheses, and what follows its leading white space
      have hbody : rest.dropLast <:+: '(' :: rest :=
        (List.dropLast_prefix rest).isInfix.trans (List.suffix_cons _ rest).isInfix
      have hstart : rest.dropLast.dropWhile isSpace <:+: '(' :: rest :=
        (List.dropWhile_suffix _).isInfix.trans hbody
      simp only at h
      split at h
      · rename_i p hp
        cases h
        obtain ⟨m, hm, hb⟩ := splitDots_some hp
        rw [List.nil_append] at hm
        refine ⟨?_, ?_⟩
        · exact (List.prefix_append a m).isInfix.trans (hm ▸ hstart)
        · exact (infix_of_afterDots hb).trans ((List.suffix_append a m).isInfix.trans (hm ▸ hstart))
      · split at h
        · rename_i c b' hc hb
          cases h
          obtain ⟨front, hfront⟩ := List.getLast?_eq_some_iff.1 hc
          have hlead : rest.dropLast.takeWhile isSpace <:+: '(' :: rest :=
            (List.takeWhile_prefix _).isInfix.trans hbody
          refine ⟨?_, (infix_of_afterDots hb).trans hstart⟩
          rw [hfront] at hlead
          exact List.infix_append_right.trans hlead
        · cases h
    · cases h
  · cases h

/-- The digits of an integer text, after its sign. -/
theorem signedDigits?_eq_some {cs ds : List Char} {neg : Bool} (h : signedDigits? cs = some (neg, ds)) :
    cs = (if neg then ['-'] else []) ++ ds ∧ ∀ c ∈ ds, isDigit c = true := by
  unfold signedDigits? isDigits at h
  split at h
  · rename_i rest
    split at h
    · rename_i hds
      cases h
      simp only [Bool.and_eq_true, Bool.not_eq_true', List.all_eq_true] at hds
      exact ⟨rfl, hds.2⟩
    · cases h
  · split at h
    · rename_i hds
      cases h
      simp only [Bool.and_eq_true, Bool.not_eq_true', List.all_eq_true] at hds
      exact ⟨rfl, hds.2⟩
    · cases h

/-- An integer text too long for the limit holds that many digits in a row. -/
theorem integer?_fromText {t : List Char} {n : Int} (h : integer? t = some n)
    (hlong : integerDigitLimit < t.length - (if t.head? = some '-' then 1 else 0)) :
    (integerTooLong (t.length - (if t.head? = some '-' then 1 else 0))).FromText t := by
  cases hs : signedDigits? t with
  | none => simp [integer?, hs] at h
  | some p =>
    obtain ⟨neg, ds⟩ := p
    obtain ⟨rfl, hd⟩ := signedDigits?_eq_some hs
    -- the sign, when there is one, is the only character that is not a digit
    have hcount : ((if neg then ['-'] else []) ++ ds).length -
        (if ((if neg then ['-'] else []) ++ ds).head? = some '-' then 1 else 0) = ds.length := by
      cases neg with
      | true => simp
      | false =>
        cases ds with
        | nil => simp
        | cons d ds' =>
          have hdigit := hd d (by simp)
          have hne : d ≠ '-' := by
            rintro rfl
            exact absurd hdigit (by decide +kernel)
          simp [hne]
    rw [hcount] at hlong ⊢
    exact .inr ⟨ds, rfl, hlong, hd, List.infix_append_right⟩

mutual

/-- Reading an operand from a text fails only with a fault of that text. -/
theorem parseChars_fromText {cs : List Char} {f : SyntaxFault} (h : parseChars cs = .error f) :
    f.FromText cs := by
  have hstrip := strip_inside cs
  have hlen := length_strip_le cs
  rw [parseChars] at h
  simp only at h
  split at h
  · cases h
    exact .of_isLimit rfl
  split at h
  · cases h
  split at h
  · cases h
  split at h
  · -- an integer literal, refused when it has too many digits
    rename_i n hn
    by_cases hlong : integerDigitLimit < (strip cs).length - (if (strip cs).head? = some '-' then 1 else 0)
    · rw [if_pos hlong] at h
      cases h
      exact (integer?_fromText hn hlong).mono hstrip
    · rw [if_neg hlong] at h
      cases h
  split at h
  · cases h
  split at h
  · -- a range: a fault of either end
    rename_i a b hsplit
    have hab := length_rangeSplit hsplit
    obtain ⟨ha, hb⟩ := infix_of_rangeSplit hsplit
    split at h
    · cases h
      exact (parseChars_fromText ‹_›).mono (ha.trans hstrip)
    split at h
    · cases h
      exact (parseChars_fromText ‹_›).mono (hb.trans hstrip)
    · cases h
  · exact (parsePath_fromText h).mono hstrip
termination_by 2 * cs.length + 1

/-- Reading a path fails only with a fault of its text. -/
theorem parsePath_fromText {t : List Char} {f : SyntaxFault} (h : parsePath t = .error f) :
    f.FromText t := by
  rw [parsePath] at h
  split at h
  · rename_i inside rest hspan
    have hlen := length_spanBracket hspan
    have ht := spanBracket_some hspan
    split at h
    · cases h
      refine (parseChars_fromText ‹_›).mono ?_
      rw [ht]
      exact ⟨['['], ']' :: rest, by simp⟩
    · refine (parseLookups_fromText h).mono ?_
      rw [ht]
      exact ⟨'[' :: inside ++ [']'], [], by simp⟩
  · split at h
    · cases h
      exact .of_isLimit rfl
    split at h
    · rename_i name rest hspan
      have hlen := length_spanName hspan
      obtain ⟨rfl, -, -⟩ := spanName_some hspan
      exact (parseLookups_fromText h).mono List.infix_append_right
    · cases h
      exact .of_isLimit rfl
termination_by 2 * t.length

/-- Reading the lookups of a path fails only with a fault of their text. -/
theorem parseLookups_fromText {whole : List Char} {root : Key} {done : List Key} {cs : List Char}
    {f : SyntaxFault} (h : parseLookups whole root done cs = .error f) : f.FromText cs := by
  cases cs with
  | nil =>
    rw [parseLookups.eq_1] at h
    cases h
  | cons c rest =>
    by_cases hdot : c = '.'
    · -- a key after a point
      subst hdot
      rw [parseLookups.eq_2] at h
      split at h
      · rename_i key after hkey
        have hlen := length_spanKey hkey
        obtain ⟨rfl, -⟩ := spanKey_some hkey
        exact (parseLookups_fromText h).mono
          (List.infix_append_right.trans (List.suffix_cons _ _).isInfix)
      · cases h
        exact .of_isLimit rfl
    by_cases hbr : c = '['
    · -- an operand in brackets
      subst hbr
      rw [parseLookups.eq_3] at h
      split at h
      · rename_i inside after hspan
        have hlen : inside.length < rest.length + 1 ∧ after.length < rest.length + 1 := by
          simpa using length_spanBracket hspan
        have ht := spanBracket_some hspan
        split at h
        · cases h
          refine (parseChars_fromText ‹_›).mono ?_
          rw [ht]
          exact ⟨['['], ']' :: after, by simp⟩
        · refine (parseLookups_fromText h).mono ?_
          rw [ht]
          exact ⟨'[' :: inside ++ [']'], [], by simp⟩
      · cases h
        exact .of_isLimit rfl
    · rw [parseLookups.eq_4 _ _ _ _ _ hdot hbr] at h
      cases h
      exact .of_isLimit rfl
termination_by 2 * cs.length
decreasing_by
  all_goals
    subst_vars
    simp only [List.length_cons]
    omega

end

end Operand

/-! ### The strict grammar -/

namespace Strict

variable {markup : String} {e : SyntaxError}

theorem fail_grammar {α : Type} {f : SyntaxFault} (hf : f.isLimit = false)
    (h : (fail markup f : Except SyntaxError α) = .error e) : e.fault.isLimit = false := by
  cases h
  exact hf

theorem expect_grammar {k : TokenKind} {ts : List Token} (h : expect markup k ts = .error e) :
    e.fault.isLimit = false := by
  unfold expect at h
  split at h
  · split at h
    · cases h
    · exact fail_grammar rfl h
  · exact fail_grammar rfl h

mutual

/-- Skipping an operand's tokens fails only with a fault of the grammar. -/
theorem skipOperand_grammar {ts : List Token} (h : skipOperand markup ts = .error e) :
    e.fault.isLimit = false := by
  cases ts with
  | nil =>
    rw [skipOperand.eq_1] at h
    exact fail_grammar rfl h
  | cons t rest =>
    rw [skipOperand.eq_2] at h
    split at h
    · exact fail_grammar rfl h
    -- each failure below is a refusal of the grammar or the failure of a part, passed on
    split at h
    · split at h
      · cases h
        exact skipLookups_grammar ‹_›
      · cases h
    · split at h
      · cases h
        exact skipOperand_grammar ‹_›
      split at h
      · cases h
        exact expect_grammar ‹_›
      split at h
      · cases h
        exact skipLookups_grammar ‹_›
      · cases h
    · cases h
    · cases h
    · split at h
      · cases h
        exact skipOperand_grammar ‹_›
      split at h
      · cases h
        exact expect_grammar ‹_›
      split at h
      · cases h
        exact skipOperand_grammar ‹_›
      split at h
      · cases h
        exact expect_grammar ‹_›
      · cases h
    · exact fail_grammar rfl h
    · exact fail_grammar rfl h
termination_by ts.length
decreasing_by
  all_goals
    subst_vars
    simp only [List.length_cons]
    omega

/-- Skipping lookups fails only with a fault of the grammar. -/
theorem skipLookups_grammar {prev : Token} {ts : List Token} (h : skipLookups markup prev ts = .error e) :
    e.fault.isLimit = false := by
  cases ts with
  | nil =>
    rw [skipLookups.eq_1] at h
    cases h
  | cons t rest =>
    rw [skipLookups.eq_2] at h
    split at h
    · split at h
      · cases h
        exact skipOperand_grammar ‹_›
      split at h
      · cases h
        exact expect_grammar ‹_›
      split at h
      · cases h
        exact skipLookups_grammar ‹_›
      · cases h
    · split at h
      · cases h
        exact expect_grammar ‹_›
      split at h
      · cases h
        exact skipLookups_grammar ‹_›
      · cases h
    · cases h
termination_by ts.length
decreasing_by
  all_goals
    subst_vars
    simp only [List.length_cons]
    omega

end

/-- Reading an operand fails with a fault of the grammar or of the header text its tokens span. -/
theorem operand_fromText {ts : List Token} (h : operand markup ts = .error e) :
    e.fault.FromText markup.toList := by
  unfold operand at h
  split at h
  · cases h
    exact .of_isLimit (skipOperand_grammar ‹_›)
  · dsimp only at h
    split at h
    · -- the operand's text is a slice of the header
      cases h
      exact (Operand.parseChars_fromText ‹_›).mono
        ((List.take_prefix _ _).isInfix.trans (List.drop_suffix _ _).isInfix)
    · cases h

theorem comparison_fromText {ts : List Token} (h : comparison markup ts = .error e) :
    e.fault.FromText markup.toList := by
  unfold comparison at h
  split at h
  · cases h
    exact operand_fromText ‹_›
  · split at h
    · split at h
      · split at h
        · cases h
          exact operand_fromText ‹_›
        · cases h
      · cases h
    · cases h

theorem links_fromText {limit : Int} {count : Nat} {ts : List Token}
    (h : links markup limit count ts = .error e) : e.fault.FromText markup.toList := by
  fun_induction links markup limit count ts with
  | case1 => exact .of_isLimit (fail_grammar rfl h)
  | case2 => cases h; exact comparison_fromText ‹_›
  | case3 _ _ _ _ _ _ _ _ _ _ _ hrest ih =>
    cases h
    exact ih hrest
  | case4 => cases h
  | case5 => cases h
  | case6 => cases h

/-- The strict grammar refuses a header only with a fault of the grammar or the integer limit
reached by digits of the header. -/
theorem parse_fromText {limit : Int} (h : parse limit markup = .error e) :
    e.fault.FromText markup.toList := by
  unfold parse at h
  split at h
  · -- a character no token starts with
    rename_i e' hscan
    obtain rfl : e' = e := Except.error.inj h
    have hfrom : Token.scanFrom markup 0 markup.toList [] = .error _ := hscan
    obtain ⟨q, c, -, rfl⟩ := Token.scanFrom_eq_error_iff.1 hfrom
    exact .of_isLimit rfl
  · split at h
    · exact .of_isLimit (fail_grammar rfl h)
    · split at h
      · cases h
        exact comparison_fromText ‹_›
      · split at h
        · cases h
          exact links_fromText ‹_›
        · dsimp only at h
          split at h
          · cases h
          · exact .of_isLimit (fail_grammar rfl h)

end Strict

/-! ### Words and chunks -/

namespace Lenient

/-- A word of a text is a piece of it. -/
theorem infix_of_mem_words (cs : List Char) : ∀ w ∈ words cs, w <:+: cs := by
  cases hd : dropSpace cs with
  | nil => simp [words_of_dropSpace_nil hd]
  | cons c rest =>
    have hsuf : c :: rest <:+: cs := hd ▸ (List.dropWhile_suffix _).isInfix
    have hle : (c :: rest).length ≤ cs.length := hd ▸ length_dropSpace_le cs
    have hpos : 1 ≤ wordLength (c :: rest) := Nat.le_max_right _ _
    rw [words_of_dropSpace hd]
    intro w hw
    rcases List.mem_cons.1 hw with rfl | hw
    · exact (List.take_prefix _ _).isInfix.trans hsuf
    · -- the later words are words of what follows the first
      exact (infix_of_mem_words _ w hw).trans ((List.drop_suffix _ _).isInfix.trans hsuf)
termination_by cs.length
decreasing_by
  simp only [List.length_drop, List.length_cons] at hle ⊢
  omega

/-- The members of a run cut out by `splitOnP` are members of the list. -/
theorem mem_of_mem_splitOnP {α : Type} {p : α → Bool} {xs run : List α} {x : α}
    (hrun : run ∈ xs.splitOnP p) (hx : x ∈ run) : x ∈ xs := by
  induction xs generalizing run with
  | nil =>
    rw [List.splitOnP_nil, List.mem_singleton] at hrun
    subst hrun
    cases hx
  | cons y ys ih =>
    rw [List.splitOnP_cons_eq_if_modifyHead] at hrun
    split at hrun
    · -- `y` divides: the runs are an empty one and those of `ys`
      rcases List.mem_cons.1 hrun with rfl | hrun
      · cases hx
      · exact List.mem_cons_of_mem _ (ih hrun hx)
    · -- `y` joins the first run of `ys`
      obtain ⟨r, rs, hrs⟩ := List.exists_cons_of_ne_nil (List.splitOnP_ne_nil p ys)
      rw [hrs, List.modifyHead_cons] at hrun
      rcases List.mem_cons.1 hrun with rfl | hrun
      · rcases List.mem_cons.1 hx with rfl | hx
        · exact List.mem_cons_self
        · exact List.mem_cons_of_mem _ (ih (hrs ▸ List.mem_cons_self) hx)
      · exact List.mem_cons_of_mem _ (ih (hrs ▸ List.mem_cons_of_mem _ hrun) hx)

/-- A piece of `a ++ c :: b` that does not hold `c` is a piece of `a` or of `b`. -/
theorem infix_append_cons {ds a b : List Char} {c : Char} (h : ds <:+: a ++ c :: b) (hc : c ∉ ds) :
    ds <:+: a ∨ ds <:+: b := by
  obtain ⟨s, t, hst⟩ := h
  rcases List.append_eq_append_iff.1 hst with ⟨front, ha, -⟩ | ⟨mid, hs, hb⟩
  · exact .inl ⟨s, front, ha.symm⟩
  · cases mid with
    | nil => exact .inl ⟨s, [], by simpa using hs⟩
    | cons c₁ mid =>
      simp only [List.cons_append, List.cons.injEq] at hb
      obtain ⟨rfl, rfl⟩ := hb
      -- where `c` falls: before the piece, in it, or after it
      rcases List.append_eq_append_iff.1 hs with ⟨front, -, hds⟩ | ⟨back, -, hbs⟩
      · exact absurd (hds ▸ by simp) hc
      · cases back with
        | nil =>
          simp only [List.nil_append] at hbs
          exact absurd (hbs ▸ List.mem_cons_self) hc
        | cons c₂ back =>
          simp only [List.cons_append, List.cons.injEq] at hbs
          exact .inr ⟨back, t, by rw [hbs.2]⟩

/-- A piece without spaces of words joined by spaces lies within one of the words. -/
theorem infix_joinWords {ds : List Char} {ws : List (List Char)} (h : ds <:+: joinWords ws)
    (hsp : ' ' ∉ ds) (hne : ds ≠ []) : ∃ w ∈ ws, ds <:+: w := by
  induction ws with
  | nil => exact absurd (List.eq_nil_of_infix_nil h) hne
  | cons w ws ih =>
    cases ws with
    | nil => exact ⟨w, List.mem_singleton_self w, by simpa [joinWords] using h⟩
    | cons w' ws =>
      have hjoin : joinWords (w :: w' :: ws) = w ++ ' ' :: joinWords (w' :: ws) := by
        simp [joinWords, List.intercalate_cons_cons]
      rw [hjoin] at h
      rcases infix_append_cons h hsp with hw | hrest
      · exact ⟨w, List.mem_cons_self, hw⟩
      · obtain ⟨v, hv, hdv⟩ := ih hrest
        exact ⟨v, List.mem_cons_of_mem _ hv, hdv⟩

end Lenient

/-- A fault of a chunk of a split header is a fault of the header: a run of digits, having no
space, lies within one word of the chunk, and each word is a piece of the header. -/
theorem SyntaxFault.FromText.of_chunk {markup : String} {p : Lenient.Pieces}
    (hp : Lenient.split markup = .ok p) {chunk : List Char} (hc : chunk ∈ p.chunks) {f : SyntaxFault}
    (hf : f.FromText chunk) : f.FromText markup.toList := by
  rcases hf with hf | ⟨ds, rfl, hlen, hd, hin⟩
  · exact .inl hf
  obtain ⟨-, hchunks, -⟩ := (Lenient.split_eq_ok_iff markup p).1 hp
  rw [hchunks] at hc
  obtain ⟨run, hrun, rfl⟩ := List.mem_map.1 hc
  have hsp : ' ' ∉ ds := fun h => absurd (hd ' ' h) (by decide +kernel)
  have hne : ds ≠ [] := by
    rintro rfl
    simp at hlen
  obtain ⟨w, hw, hdw⟩ := Lenient.infix_joinWords hin hsp hne
  exact .inr ⟨ds, rfl, hlen, hd,
    hdw.trans (Lenient.infix_of_mem_words _ w (Lenient.mem_of_mem_splitOnP hrun hw))⟩

/-! ### The lenient grammar -/

namespace Lenient

variable {markup : String} {e : SyntaxError}

theorem group_grammar {ws pending : List (List Char)} {closed : List (List Char × Combinator)}
    (h : group markup ws pending closed = .error e) : e.fault.isLimit = false := by
  induction ws generalizing pending closed with
  | nil =>
    unfold group at h
    split at h
    · split at h <;> (cases h; rfl)
    · cases h
  | cons w ws ih =>
    unfold group at h
    split at h
    · split at h
      · cases h
        rfl
      · exact ih h
    · exact ih h

/-- The operands a chunk is matched into are pieces of it. -/
theorem infix_of_shape? {chunk : List Char} {sh : Shape} (h : shape? chunk = some sh) :
    sh.left <:+: chunk ∧ ∀ r, sh.right = some r → r <:+: chunk := by
  -- each piece is taken from what is left of the chunk after the pieces before it
  have hs : dropSpace chunk <:+: chunk := (List.dropWhile_suffix _).isInfix
  have hleft : ∀ n, (dropSpace chunk).take n <:+: chunk :=
    fun n => (List.take_prefix _ _).isInfix.trans hs
  have hright : ∀ n m k,
      (dropSpace ((dropSpace ((dropSpace chunk).drop n)).drop m)).take k <:+: chunk := by
    intro n m k
    exact (List.take_prefix _ _).isInfix.trans <| (List.dropWhile_suffix _).isInfix.trans <|
      (List.drop_suffix _ _).isInfix.trans <| (List.dropWhile_suffix _).isInfix.trans <|
        (List.drop_suffix _ _).isInfix.trans hs
  unfold shape? at h
  simp only at h
  split at h
  · cases h
  split at h
  · cases h
    exact ⟨hleft _, fun r hr => by cases hr⟩
  split at h
  · cases h
    exact ⟨hleft _, fun r hr => by cases hr⟩
  · cases h
    exact ⟨hleft _, fun r hr => by cases hr; exact hright _ _ _⟩

/-- Reading a chunk fails with a fault of the grammar or of the chunk's text. -/
theorem link_fromText {chunk : List Char} (h : link markup chunk = .error e) :
    e.fault.FromText chunk := by
  unfold link at h
  split at h
  · cases h
    exact .of_isLimit rfl
  · rename_i sh hsh
    obtain ⟨hl, hr⟩ := infix_of_shape? hsh
    split at h
    · -- a lone operand, with nothing after it
      split at h
      · split at h
        · cases h
          exact (Operand.parseChars_fromText ‹_›).mono hl
        · cases h
      · cases h
        exact .of_isLimit rfl
    · cases h
      exact .of_isLimit rfl
    · -- a comparison: a fault of either operand
      rename_i op right _ hright
      split at h
      · cases h
        exact (Operand.parseChars_fromText ‹_›).mono hl
      · split at h
        · cases h
          exact (Operand.parseChars_fromText ‹_›).mono (hr right hright)
        · cases h

/-- The lenient grammar refuses a header only with a fault of the grammar or the integer limit
reached by digits of the header. -/
theorem parse_fromText {limit : Int} (h : parse limit markup = .error e) :
    e.fault.FromText markup.toList := by
  unfold parse at h
  split at h
  · cases h
    exact .of_isLimit (group_grammar ‹_›)
  · rename_i pieces hsplit
    split at h
    · cases h
      exact .of_isLimit rfl
    · split at h
      · -- a chunk after the first, read last first
        cases h
        obtain ⟨⟨k, chunk⟩, hmem, hx⟩ := mapM_eq_error ‹_›
        cases hl : link markup chunk with
        | error e' =>
          simp only [hl, Except.map, Except.error.injEq] at hx
          subst hx
          refine SyntaxFault.FromText.of_chunk hsplit ?_ (link_fromText hl)
          exact List.mem_cons_of_mem _ (List.mem_map.2 ⟨(k, chunk), List.mem_reverse.1 hmem, rfl⟩)
        | ok l => simp [hl, Except.map] at hx
      · split at h
        · cases h
          exact SyntaxFault.FromText.of_chunk hsplit List.mem_cons_self (link_fromText ‹_›)
        · cases h

end Lenient

/-! ### Every mode -/

/-- Reading a header in any mode fails only with a fault of the grammar or the integer limit
reached by digits of the header. -/
theorem Mode.read_fromText {mode : Mode} {limit : Int} {markup : String} {e : SyntaxError}
    (h : (mode.read limit markup).2 = .error e) : e.fault.FromText markup.toList := by
  cases mode with
  | lax => exact Lenient.parse_fromText h
  | strict => exact Strict.parse_fromText h
  | warn =>
    simp only [Mode.read] at h
    split at h
    · cases h
    · split at h
      · cases h
        exact Strict.parse_fromText ‹_›
      · exact Lenient.parse_fromText h

/-- Reading a header, in any mode and under any bound, fails only by refusing the header: the
error names the header and no line, and its fault is a fault of the grammar, or the integer limit
reached by a literal whose digits, more than `integerDigitLimit` of them, stand together in the
header. -/
theorem Mode.read_fails_by_grammar (mode : Mode) (limit : Int) (markup : String) (e : SyntaxError)
    (h : (mode.read limit markup).2 = .error e) :
    e.markup = some markup ∧ e.line = none ∧
      (e.fault.isLimit = false ∨ ∃ ds, e.fault = .integerTooLong ds.length ∧
        integerDigitLimit < ds.length ∧ (∀ c ∈ ds, isDigit c = true) ∧ ds <:+: markup.toList) :=
  ⟨(Mode.read_error h).1, (Mode.read_error h).2, Mode.read_fromText h⟩

/-- Lenient mode refuses the empty header, naming it. -/
theorem Mode.read_fails_by_grammar_empty :
    (Mode.lax.read 50 "").2 = .error { fault := .emptyCondition, markup := some "" } ∧
    ({ fault := .emptyCondition, markup := some "" } : SyntaxError).markup = some "" ∧
    ({ fault := .emptyCondition, markup := some "" } : SyntaxError).line = none ∧
    ((SyntaxFault.emptyCondition).isLimit = false ∨ ∃ ds, SyntaxFault.emptyCondition = .integerTooLong ds.length ∧
      integerDigitLimit < ds.length ∧ (∀ c ∈ ds, isDigit c = true) ∧ ds <:+: "".toList) := by
  have h : (Mode.lax.read 50 "").2 = .error { fault := .emptyCondition, markup := some "" } := by
    have hwords : Lenient.words [] = [] := Lenient.words_of_dropSpace_nil rfl
    simp [Mode.read, Lenient.parse, Lenient.split, hwords, Lenient.group]
  exact ⟨h, Mode.read_fails_by_grammar .lax 50 "" _ h⟩

/-! ### The limit in strict mode -/

/-- Digits always have a value in base ten, whatever value comes before them. -/
theorem Text.foldlM_digitValue {cs : List Char} (hd : ∀ c ∈ cs, isDigit c = true) (acc : Nat) :
    ∃ n, cs.foldlM (fun acc c => (digitValue? c).map (acc * 10 + ·)) acc = some n := by
  induction cs generalizing acc with
  | nil => exact ⟨acc, rfl⟩
  | cons c cs ih =>
    obtain ⟨v, hv⟩ := Option.isSome_iff_exists.1 (hd c List.mem_cons_self)
    obtain ⟨n, hn⟩ := ih (fun x hx => hd x (List.mem_cons_of_mem _ hx)) (acc * 10 + v)
    exact ⟨n, by simp [List.foldlM_cons, hv, hn]⟩

namespace Operand

/-- A run of digits is an integer literal. -/
theorem integer?_of_digits {d : Char} {rest : List Char} (hd : ∀ c ∈ d :: rest, isDigit c = true) :
    ∃ n, integer? (d :: rest) = some n := by
  have hd0 := hd d List.mem_cons_self
  have hminus : d ≠ '-' := by
    rintro rfl
    exact absurd hd0 (by decide +kernel)
  have hsigned : signedDigits? (d :: rest) = some (false, d :: rest) := by
    have hrest : rest.all isDigit = true :=
      List.all_eq_true.2 fun x hx => hd x (List.mem_cons_of_mem _ hx)
    simp [signedDigits?, isDigits, hminus, hd0, hrest]
  obtain ⟨n, hn⟩ := Text.foldlM_digitValue hd 0
  exact ⟨n, by simp [integer?, hsigned, digitsValue?, hn]⟩

/-- A run of more than `integerDigitLimit` digits reads as no operand: the limit refuses it. -/
theorem parseChars_long_digits {ds : List Char} (hd : ∀ c ∈ ds, isDigit c = true)
    (hlong : integerDigitLimit < ds.length) : parseChars ds = .error (.integerTooLong ds.length) := by
  obtain ⟨d, rest, rfl⟩ := List.exists_cons_of_ne_nil (List.ne_nil_of_length_pos (l := ds) (by omega))
  obtain ⟨init, l, hlast⟩ := (List.eq_nil_or_concat (d :: rest)).resolve_left (by simp)
  rw [List.concat_eq_append] at hlast
  have hd0 := hd d List.mem_cons_self
  have hstrip : strip (d :: rest) = d :: rest := by
    have hl := hd l (by rw [hlast]; simp)
    simpa using Token.strip_pad (l := []) (g := []) (by simp) (by simp) ⟨d, rest, rfl, (of_isDigit hd0).1⟩
      ⟨init, l, hlast, (of_isDigit hl).1⟩
  -- a digit starts no reserved word, no quoted text and no sign
  have hname : isNameStart d = false := by
    cases hn : isNameStart d
    · rfl
    · rw [(of_isNameStart hn).2.1] at hd0
      cases hd0
  have hminus : d ≠ '-' := by
    rintro rfl
    exact absurd hd0 (by decide +kernel)
  have hres : reservedWord? (String.ofList (d :: rest)) = none :=
    Token.reservedWord?_none (c := d) (by simp) hname
  have hq : quoted? (d :: rest) = none :=
    Token.quoted?_none ⟨fun h => by subst h; exact absurd hd0 (by decide +kernel),
      fun h => by subst h; exact absurd hd0 (by decide +kernel)⟩
  obtain ⟨n, hn⟩ := integer?_of_digits hd
  rw [parseChars]
  simp only
  rw [hstrip, if_neg (by simp)]
  simp only [hres, hq, hn, List.head?_cons, Option.some.injEq, hminus, if_false, Nat.sub_zero]
  rw [if_pos hlong]

end Operand

namespace Strict

/-- Strict mode refuses a header that starts with an integer literal of more than
`integerDigitLimit` digits by the integer limit, whatever the tokens after it: the literal is
read as soon as its tokens are skipped, before anything after it is looked at. -/
theorem parse_long_integer {ds w : List Char} {ts : List Token} (hd : ∀ c ∈ ds, isDigit c = true)
    (hlong : integerDigitLimit < ds.length) (hw : Token.StopsOperand w)
    (hlex : Token.Lexed ds.length w ts) (limit : Int) :
    parse limit (String.ofList (ds ++ w)) =
      .error { fault := .integerTooLong ds.length, markup := some (String.ofList (ds ++ w)) } := by
  have hne : ds ≠ [] := List.ne_nil_of_length_pos (by omega)
  have hnum : Operand.IsNumeral ds := ⟨[], ds, [], by simp, .inl rfl, hne, hd, .inl rfl⟩
  have hscan : Token.scan (String.ofList (ds ++ w)) =
      .ok (⟨.number, String.ofList ds, 0⟩ :: ts) := by
    apply Token.scan_of_lexed
    rw [String.toList_ofList]
    have h := Token.Lexed.token (p := 0) (Token.tokenAt_number hnum hw) (by simpa using hlex)
    simpa using h
  -- the literal is read from the header text its one token spans
  have hop : operand (String.ofList (ds ++ w)) (⟨.number, String.ofList ds, 0⟩ :: ts) =
      fail (String.ofList (ds ++ w)) (.integerTooLong ds.length) := by
    unfold operand
    rw [skipOperand.eq_2]
    simp [isKeyword, current, String.toList_ofList, String.length_ofList,
      Operand.parseChars_long_digits hd hlong]
  unfold parse
  rw [hscan]
  simp only [current, List.headD]
  unfold comparison
  rw [hop]
  rfl

end Strict

/-- In strict mode the header of 4301 sevens followed by ` ==` is refused by the integer limit,
which is no fault of the grammar, rather than as a comparison missing its right operand. -/
theorem Mode.read_strict_long_integer :
    (Mode.strict.read 50 (String.ofList (List.replicate 4301 '7' ++ [' ', '=', '=']))).2 =
      .error { fault := .integerTooLong 4301,
               markup := some (String.ofList (List.replicate 4301 '7' ++ [' ', '=', '='])) } ∧
    (SyntaxFault.integerTooLong 4301).isLimit = true := by
  refine ⟨?_, rfl⟩
  have hlex : Token.Lexed 4301 [' ', '=', '=']
      [⟨.comparison, "==", 4302⟩, ⟨.eof, "", 4304⟩] :=
    .space (n := 1) (by decide) (.token (n := 2) (by decide) (.done _))
  have h := @Strict.parse_long_integer (List.replicate 4301 '7') [' ', '=', '='] _
    (fun c hc => by rw [List.eq_of_mem_replicate hc]; decide +kernel)
    (by rw [List.length_replicate]; decide)
    (fun c r h => by cases h; exact .inl (by decide)) (by rw [List.length_replicate]; exact hlex) 50
  rw [List.length_replicate] at h
  exact h

end Branching
