import Branching.Proofs.Grammar

/-!
# Reading an operand's text

`Operand.parseChars` reads an operand from text, and the strict parser hands it the text that an
operand's tokens span. This module shows that whenever that text reads at all, it reads as the
tree of the tokens' derivation.

The only place the two can part is a range `(a..b)`: the reader cuts the text at the first `..`
after which a last end follows, not at the `..` token of the derivation. A cut further left lies
inside a quoted text or inside a nested range, and the piece before it is not `Balanced`: it
leaves a quote or a parenthesis open. No text that reads as an operand does that.

## Main statements

- `balanced_of_parseChars`: a text that reads as an operand is balanced.
- `parseChars_of_operandToks`: the text an operand's tokens span, when it reads, reads as the tree
  of the derivation.
-/

namespace Branching.Operand

open Text

/-- One character of the nesting of an operand's text: a quote opens a quoted part that only the
same quote closes, and outside quotes `(` and `)` move the depth. -/
def nestStep : Option Char × Int → Char → Option Char × Int
  | (some q, d), c => if c = q then (none, d) else (some q, d)
  | (none, d), c =>
    if c = '"' ∨ c = '\'' then (some c, d)
    else if c = '(' then (none, d + 1)
    else if c = ')' then (none, d - 1)
    else (none, d)

/-- The nesting after a text, from the state `s`. -/
def nesting (s : Option Char × Int) (cs : List Char) : Option Char × Int := cs.foldl nestStep s

/-- A text is balanced when it closes every quote it opens and leaves the depth where it found
it. -/
def Balanced (cs : List Char) : Prop := ∀ d, nesting (none, d) cs = (none, d)

/-- A character that neither quotes nor moves the depth. -/
def Plain (c : Char) : Prop := c ≠ '"' ∧ c ≠ '\'' ∧ c ≠ '(' ∧ c ≠ ')'

@[simp] theorem nesting_nil (s : Option Char × Int) : nesting s [] = s := rfl

@[simp] theorem nesting_cons (s : Option Char × Int) (c : Char) (cs : List Char) :
    nesting s (c :: cs) = nesting (nestStep s c) cs := rfl

theorem nesting_append (s : Option Char × Int) (a b : List Char) :
    nesting s (a ++ b) = nesting (nesting s a) b :=
  List.foldl_append

theorem nestStep_plain {c : Char} (h : Plain c) (d : Int) : nestStep (none, d) c = (none, d) := by
  obtain ⟨h1, h2, h3, h4⟩ := h
  simp [nestStep, h1, h2, h3, h4]

/-- Inside a quote, a text without that quote changes nothing. -/
theorem nesting_in_quote {q : Char} {cs : List Char} (hin : q ∉ cs) (d : Int) :
    nesting (some q, d) cs = (some q, d) := by
  induction cs with
  | nil => rfl
  | cons c cs ih =>
    have hc : c ≠ q := fun h => hin (by simp [h])
    rw [nesting_cons]
    simp only [nestStep, if_neg hc]
    exact ih (fun h => hin (by simp [h]))

namespace Balanced

theorem nil : Balanced [] := fun _ => rfl

theorem append {a b : List Char} (ha : Balanced a) (hb : Balanced b) : Balanced (a ++ b) := by
  intro d
  rw [nesting_append, ha d, hb d]

theorem of_plain {cs : List Char} (h : ∀ c ∈ cs, Plain c) : Balanced cs := by
  induction cs with
  | nil => exact nil
  | cons c cs ih =>
    intro d
    rw [nesting_cons, nestStep_plain (h c (by simp)) d]
    exact ih (fun x hx => h x (by simp [hx])) d

/-- A quoted text: once the quote is open, only the same quote closes it. -/
theorem quoted {q : Char} {inner : List Char} (hq : q = '"' ∨ q = '\'') (hin : q ∉ inner) :
    Balanced (q :: inner ++ [q]) := by
  intro d
  rw [List.cons_append, nesting_cons, nesting_append]
  simp only [nestStep, hq, if_true]
  rw [nesting_in_quote hin d]
  simp [nestStep]

/-- Wrapping a balanced text in parentheses keeps it balanced. -/
theorem paren {cs : List Char} (h : Balanced cs) : Balanced ('(' :: cs ++ [')']) := by
  intro d
  rw [List.cons_append, nesting_cons, nesting_append]
  simp only [nestStep]
  simp only [show ¬ ('(' = '"' ∨ '(' = '\'') by decide, if_false, if_true]
  rw [h (d + 1)]
  simp [nestStep]

end Balanced

/-! ### Characters that never quote or nest -/

theorem plain_of_isSpace {c : Char} (h : isSpace c = true) : Plain c := by
  obtain ⟨h1, h2, h3, h4, -⟩ := Text.ne_of_isSpace h
  exact ⟨h1, h2, h3, h4⟩

theorem plain_of_isNameChar {c : Char} (h : isNameChar c = true) : Plain c := by
  refine ⟨?_, ?_, ?_, ?_⟩ <;> (rintro rfl; revert h; decide)

theorem plain_of_isDigit {c : Char} (h : isDigit c = true) : Plain c := by
  refine ⟨?_, ?_, ?_, ?_⟩ <;> (rintro rfl; revert h; decide +kernel)

theorem plain_of_mem {c : Char} (h : c ∈ ['.', '-', '[', ']', '?']) : Plain c := by
  simp only [List.mem_cons, List.not_mem_nil, or_false] at h
  rcases h with rfl | rfl | rfl | rfl | rfl <;> exact ⟨by decide, by decide, by decide, by decide⟩

theorem Balanced.of_marks {cs : List Char} (h : ∀ c ∈ cs, c ∈ ['.', '-', '[', ']', '?']) :
    Balanced cs :=
  Balanced.of_plain fun c hc => plain_of_mem (h c hc)

theorem balanced_spaces {cs : List Char} (h : ∀ c ∈ cs, isSpace c = true) : Balanced cs :=
  Balanced.of_plain fun c hc => plain_of_isSpace (h c hc)

theorem Balanced.cons_plain {c : Char} {cs : List Char} (hc : Plain c) (h : Balanced cs) :
    Balanced (c :: cs) := by
  intro d
  rw [nesting_cons, nestStep_plain hc d]
  exact h d

/-! ### The pieces the reader cuts a text into -/

/-- A text is its stripped form with white space on either side. -/
theorem strip_spec (cs : List Char) :
    ∃ l r, cs = l ++ strip cs ++ r ∧ (∀ c ∈ l, isSpace c = true) ∧ (∀ c ∈ r, isSpace c = true) := by
  have hfront := List.takeWhile_append_dropWhile (p := isSpace) (l := cs)
  have hback := List.takeWhile_append_dropWhile (p := isSpace) (l := (dropSpace cs).reverse)
  have hdrop : dropSpace cs = strip cs ++ ((dropSpace cs).reverse.takeWhile isSpace).reverse := by
    have := congrArg List.reverse hback
    rw [List.reverse_append, List.reverse_reverse] at this
    rw [strip, dropSpace]
    exact this.symm
  refine ⟨cs.takeWhile isSpace, ((dropSpace cs).reverse.takeWhile isSpace).reverse, ?_, ?_, ?_⟩
  · rw [List.append_assoc, ← hdrop]
    exact hfront.symm
  · intro c hc
    exact Text.isSpace_of_mem_takeWhile hc
  · intro c hc
    exact Text.isSpace_of_mem_takeWhile (List.mem_reverse.1 hc)

/-- A text that reads as an operand is not white space only. -/
theorem strip_ne_nil_of_parseChars {cs : List Char} {o : Operand} (h : parseChars cs = .ok o) :
    strip cs ≠ [] := by
  intro hnil
  rw [parseChars] at h
  simp [hnil] at h

theorem strip_space {c : Char} (hc : isSpace c = true) : strip [c] = [] := by
  simp [strip, dropSpace, hc]

theorem reservedWord?_some {s : String} {o : Operand} (h : reservedWord? s = some o) :
    ∀ c ∈ s.toList, isNameStart c = true := by
  unfold reservedWord? at h
  split at h
  · rename_i h1
    rcases h1 with rfl | rfl <;> exact Text.forall_mem_of_all (by decide)
  split at h
  · rename_i h2
    subst h2
    exact Text.forall_mem_of_all (by decide)
  split at h
  · rename_i h3
    subst h3
    exact Text.forall_mem_of_all (by decide)
  split at h
  · rename_i h4
    subst h4
    exact Text.forall_mem_of_all (by decide)
  split at h
  · rename_i h5
    subst h5
    exact Text.forall_mem_of_all (by decide)
  · cases h

theorem quoted?_some {t inside : List Char} (h : quoted? t = some inside) :
    ∃ q, (q = '"' ∨ q = '\'') ∧ q ∉ inside ∧ t = q :: inside ++ [q] := by
  match t, h with
  | q :: rest, h =>
    simp only [quoted?] at h
    split at h
    · rename_i hc
      obtain ⟨hq, hlast, hnot⟩ := hc
      simp only [Option.some.injEq] at h
      subst h
      obtain ⟨ys, rfl⟩ := List.getLast?_eq_some_iff.1 hlast
      refine ⟨q, hq, ?_, ?_⟩
      · simpa using hnot
      · simp
    · cases h

theorem signedDigits?_some {cs ds : List Char} {neg : Bool} (h : signedDigits? cs = some (neg, ds)) :
    ∀ c ∈ cs, c = '-' ∨ isDigit c = true := by
  unfold signedDigits? isDigits at h
  split at h
  · split at h
    · rename_i rest hds
      simp only [Bool.and_eq_true, Bool.not_eq_true', List.all_eq_true] at hds
      intro c hc
      rcases List.mem_cons.1 hc with rfl | hc
      · exact .inl rfl
      · exact .inr (hds.2 c hc)
    · cases h
  · split at h
    · rename_i hds
      simp only [Bool.and_eq_true, Bool.not_eq_true', List.all_eq_true] at hds
      exact fun c hc => .inr (hds.2 c hc)
    · cases h

theorem integer?_some {cs : List Char} {n : Int} (h : integer? cs = some n) :
    ∀ c ∈ cs, c = '-' ∨ isDigit c = true := by
  cases hs : signedDigits? cs with
  | none => simp [integer?, hs] at h
  | some p => exact signedDigits?_some hs

/-- A decimal text is a sign, digits, a point and digits. -/
theorem decimal?_some {cs : List Char} {x : Binary64} (h : decimal? cs = some x) :
    ∀ c ∈ cs, c = '-' ∨ c = '.' ∨ isDigit c = true := by
  -- the body after the sign: digits before the first point, then the point and digits
  have hbody : ∀ body : List Char, (isDigits (body.takeWhile (· != '.')) &&
      body.drop (body.takeWhile (· != '.')).length != [] &&
      isDigits (body.drop ((body.takeWhile (· != '.')).length + 1))) = true →
      ∀ c ∈ body, c = '.' ∨ isDigit c = true := by
    intro body hb c hc
    simp only [isDigits, Bool.and_eq_true, Bool.not_eq_true', List.all_eq_true, bne_iff_ne,
      ne_eq] at hb
    obtain ⟨⟨⟨-, hwhole⟩, -⟩, -, hfrac⟩ := hb
    have hsplit := List.takeWhile_append_dropWhile (p := (· != '.')) (l := body)
    rw [← hsplit] at hc
    rcases List.mem_append.1 hc with hc | hc
    · exact .inr (hwhole c hc)
    · have hdrop : body.dropWhile (· != '.') = body.drop (body.takeWhile (· != '.')).length := by
        calc body.dropWhile (· != '.')
            = (body.takeWhile (· != '.') ++ body.dropWhile (· != '.')).drop
                (body.takeWhile (· != '.')).length := List.drop_left.symm
          _ = body.drop (body.takeWhile (· != '.')).length := by rw [hsplit]
      cases hd : body.dropWhile (· != '.') with
      | nil => simp [hd] at hc
      | cons x rest =>
        rw [hd] at hc
        have hx : x = '.' := by
          have := List.head_dropWhile_not (· != '.') (l := body) (by simp [hd])
          simpa [hd] using this
        rcases List.mem_cons.1 hc with rfl | hc
        · exact .inl hx
        · have hrest : rest = body.drop ((body.takeWhile (· != '.')).length + 1) := by
            rw [← List.drop_drop, ← hdrop, hd]
            rfl
          rw [hrest] at hc
          exact .inr (hfrac c hc)
  unfold decimal? at h
  simp only [Option.pure_def, Option.bind_eq_bind] at h
  split at h
  · rename_i rest
    simp only [Option.bind_some] at h
    split at h
    · rename_i hb
      intro c hc
      rcases List.mem_cons.1 hc with rfl | hc
      · exact .inl rfl
      · exact .inr (hbody rest hb c hc)
    · cases h
  · simp only [Option.bind_some] at h
    split at h
    · rename_i hb
      exact fun c hc => .inr (hbody cs hb c hc)
    · cases h

/-- A bracketed part ends at a `]`. -/
theorem bracketRest_some {d : Nat} {q : Option Char} {cs inner rest : List Char}
    (h : bracketRest d q cs = some (inner, rest)) : cs = inner ++ ']' :: rest := by
  induction cs generalizing d q inner rest with
  | nil => simp [bracketRest] at h
  | cons c tail ih =>
    -- every branch but the closing bracket puts `c` in front of the inside
    have step : ∀ d' q', (bracketRest d' q' tail).map (fun p => (c :: p.1, p.2)) = some (inner, rest) →
        c :: tail = inner ++ ']' :: rest := by
      intro d' q' hmap
      obtain ⟨⟨i, r⟩, hp, he⟩ := Option.map_eq_some_iff.1 hmap
      simp only [Prod.mk.injEq] at he
      obtain ⟨rfl, rfl⟩ := he
      rw [ih hp]
      rfl
    cases q with
    | some q => exact step _ _ h
    | none =>
      simp only [bracketRest] at h
      split at h
      · exact step _ _ h
      split at h
      · exact step _ _ h
      split at h
      · rename_i hc
        split at h
        · simp only [Option.some.injEq, Prod.mk.injEq] at h
          obtain ⟨rfl, rfl⟩ := h
          rw [hc]
          rfl
        · exact step _ _ h
      · exact step _ _ h

theorem spanBracket_some {t inner rest : List Char} (h : spanBracket t = some (inner, rest)) :
    t = '[' :: inner ++ ']' :: rest := by
  unfold spanBracket at h
  split at h
  · rw [bracketRest_some h]
    rfl
  · cases h

theorem spanKey_some {cs key rest : List Char} (h : spanKey cs = some (key, rest)) :
    cs = key ++ rest ∧ ∀ c ∈ key, isNameChar c = true ∨ c = '?' := by
  have hsplit := List.takeWhile_append_dropWhile (p := isNameChar) (l := cs)
  have hname : ∀ c ∈ cs.takeWhile isNameChar, isNameChar c = true ∨ c = '?' :=
    fun c hc => .inl (List.all_eq_true.1 List.all_takeWhile c hc)
  unfold spanKey at h
  split at h
  · cases h
  split at h
  · rename_i after hd
    simp only [Option.some.injEq, Prod.mk.injEq] at h
    obtain ⟨rfl, rfl⟩ := h
    refine ⟨?_, ?_⟩
    · rw [hd] at hsplit
      simpa using hsplit.symm
    · intro c hc
      rcases List.mem_append.1 hc with hc | hc
      · exact hname c hc
      · exact .inr (by simpa using hc)
  · simp only [Option.some.injEq, Prod.mk.injEq] at h
    obtain ⟨rfl, rfl⟩ := h
    exact ⟨hsplit.symm, hname⟩

theorem plain_of_isName {v : List Char} (hv : IsName v) : ∀ c ∈ v, Plain c := by
  obtain ⟨c, body, hc, hbody, hv⟩ := hv
  have hstart : Plain c := plain_of_isNameChar (of_isNameStart hc).1
  intro x hx
  rcases hv with rfl | rfl
  · rcases List.mem_cons.1 hx with rfl | hx
    · exact hstart
    · exact plain_of_isNameChar (hbody x hx)
  · rcases List.mem_append.1 hx with hx | hx
    · rcases List.mem_cons.1 hx with rfl | hx
      · exact hstart
      · exact plain_of_isNameChar (hbody x hx)
    · simp only [List.mem_singleton] at hx
      exact plain_of_mem (by simp [hx])

/-- After the first end of a range: white space, `..`, and the text holding the last end. -/
theorem afterDots_some {m b : List Char} (h : afterDots m = some b) :
    ∃ g r, m = g ++ '.' :: '.' :: r ∧ (∀ c ∈ g, isSpace c = true) ∧ rangeEnd r = some b := by
  unfold afterDots at h
  split at h
  · rename_i r hd
    refine ⟨m.takeWhile isSpace, r, ?_, fun c hc => Text.isSpace_of_mem_takeWhile hc, h⟩
    rw [← hd, dropSpace, List.takeWhile_append_dropWhile]
  · cases h

theorem rangeEnd_some {r b : List Char} (h : rangeEnd r = some b) :
    b = strip r ∨ ∃ c, b = [c] ∧ isSpace c = true := by
  unfold rangeEnd at h
  split at h
  · rename_i hall
    obtain ⟨c, hc, rfl⟩ := Option.map_eq_some_iff.1 h
    refine .inr ⟨c, rfl, ?_⟩
    have hmem : c ∈ r := List.mem_of_getLast? hc
    have hnil : r.dropWhile isSpace = [] := by simpa [dropSpace] using hall
    have hsplit := List.takeWhile_append_dropWhile (p := isSpace) (l := r)
    rw [hnil, List.append_nil] at hsplit
    rw [← hsplit] at hmem
    exact Text.isSpace_of_mem_takeWhile hmem
  · simp only [Option.some.injEq] at h
    exact .inl h.symm

theorem splitDots_some {taken rem a b : List Char} (h : splitDots taken rem = some (a, b)) :
    ∃ m, taken ++ rem = a ++ m ∧ afterDots m = some b := by
  induction rem generalizing taken with
  | nil => simp [splitDots] at h
  | cons c tail ih =>
    simp only [splitDots] at h
    split at h
    · rename_i b' hb
      simp only [Option.some.injEq, Prod.mk.injEq] at h
      obtain ⟨rfl, rfl⟩ := h
      exact ⟨tail, by simp, hb⟩
    · obtain ⟨m, hm, hb⟩ := ih h
      exact ⟨m, by simpa using hm, hb⟩

/-- The two ends a range is split into: a first end between the opening white space and `..`,
or, failing that, one white space character. -/
theorem rangeSplit_some {t a b : List Char} (h : rangeSplit t = some (a, b)) :
    (∃ lead m, t = '(' :: (lead ++ a ++ m) ++ [')'] ∧ (∀ c ∈ lead, isSpace c = true) ∧
      afterDots m = some b) ∨ ∃ c, a = [c] ∧ isSpace c = true := by
  unfold rangeSplit at h
  split at h
  · rename_i rest
    split at h
    · rename_i hlast
      obtain ⟨body, rfl⟩ := List.getLast?_eq_some_iff.1 hlast
      have hbody := List.takeWhile_append_dropWhile (p := isSpace) (l := (body ++ [')']).dropLast)
      have hlead : ∀ c ∈ (body ++ [')']).dropLast.takeWhile isSpace, isSpace c = true :=
        fun c hc => Text.isSpace_of_mem_takeWhile hc
      simp only at h
      split at h
      · rename_i p hp
        simp only [Option.some.injEq] at h
        subst h
        obtain ⟨m, hm, hb⟩ := splitDots_some hp
        refine .inl ⟨_, m, ?_, hlead, hb⟩
        rw [List.nil_append] at hm
        rw [List.append_assoc, ← hm, hbody, List.dropLast_concat]
        rfl
      · split at h
        · rename_i c b' hc _
          simp only [Option.some.injEq, Prod.mk.injEq] at h
          obtain ⟨rfl, rfl⟩ := h
          exact .inr ⟨c, rfl, hlead c (List.mem_of_getLast? hc)⟩
        · cases h
    · cases h
  · cases h

theorem Balanced.bracket {inner rest : List Char} (hin : Balanced inner) (hrest : Balanced rest) :
    Balanced ('[' :: inner ++ ']' :: rest) :=
  (hin.cons_plain (plain_of_mem (by simp))).append (hrest.cons_plain (plain_of_mem (by simp)))

/-! ### Texts that read are balanced -/

mutual

/-- A text that reads as an operand closes every quote and parenthesis it opens. -/
theorem balanced_of_parseChars {cs : List Char} {o : Operand} (h : parseChars cs = .ok o) :
    Balanced cs := by
  obtain ⟨l, r, hcs, hl, hr⟩ := strip_spec cs
  suffices hs : Balanced (strip cs) by
    rw [hcs]
    exact ((balanced_spaces hl).append hs).append (balanced_spaces hr)
  have hlen := length_strip_le cs
  rw [parseChars] at h
  simp only at h
  split at h
  · cases h
  split at h
  · -- a reserved word: letters only
    rename_i w hw
    have hchars := reservedWord?_some hw
    rw [String.toList_ofList] at hchars
    exact Balanced.of_plain fun c hc => plain_of_isNameChar (of_isNameStart (hchars c hc)).1
  split at h
  · rename_i inside hq
    obtain ⟨q, hq, hin, heq⟩ := quoted?_some hq
    rw [heq]
    exact Balanced.quoted hq hin
  split at h
  · rename_i n hn
    refine Balanced.of_plain fun c hc => ?_
    rcases integer?_some hn c hc with rfl | hd
    · exact plain_of_mem (by simp)
    · exact plain_of_isDigit hd
  split at h
  · rename_i x hx
    refine Balanced.of_plain fun c hc => ?_
    rcases decimal?_some hx c hc with rfl | rfl | hd
    · exact plain_of_mem (by simp)
    · exact plain_of_mem (by simp)
    · exact plain_of_isDigit hd
  split at h
  · -- a range: both ends read, so both are balanced, and the rest is white space and `..`
    rename_i a b hsplit
    have hab := length_rangeSplit hsplit
    split at h
    · cases h
    rename_i first hfirst
    split at h
    · cases h
    rename_i last hlast
    have ha := balanced_of_parseChars hfirst
    have hb := balanced_of_parseChars hlast
    rcases rangeSplit_some hsplit with ⟨lead, m, ht, hlead, hm⟩ | ⟨c, rfl, hc⟩
    · obtain ⟨g, r', rfl, hg, hend⟩ := afterDots_some hm
      rcases rangeEnd_some hend with rfl | ⟨c, rfl, hc⟩
      · obtain ⟨l', r'', hr', hl', hr''⟩ := strip_spec r'
        have hdots : Balanced ('.' :: '.' :: r') := by
          rw [hr']
          exact ((((balanced_spaces hl').append hb).append (balanced_spaces hr'')).cons_plain
            (plain_of_mem (by simp))).cons_plain (plain_of_mem (by simp))
        rw [ht]
        exact Balanced.paren (((balanced_spaces hlead).append ha).append
          ((balanced_spaces hg).append hdots))
      · exact absurd (strip_ne_nil_of_parseChars hlast) (by simp [strip_space hc])
    · exact absurd (strip_ne_nil_of_parseChars hfirst) (by simp [strip_space hc])
  · exact balanced_of_parsePath h
termination_by 2 * cs.length + 1

/-- A path that reads is balanced. -/
theorem balanced_of_parsePath {t : List Char} {o : Operand} (h : parsePath t = .ok o) :
    Balanced t := by
  rw [parsePath] at h
  split at h
  · rename_i inside rest hspan
    have hlen := length_spanBracket hspan
    split at h
    · cases h
    rename_i root hroot
    rw [spanBracket_some hspan]
    exact Balanced.bracket (balanced_of_parseChars hroot) (balanced_of_parseLookups h)
  · split at h
    · cases h
    split at h
    · rename_i name rest hspan
      have hlen := length_spanName hspan
      obtain ⟨rfl, hv, -⟩ := spanName_some hspan
      exact (Balanced.of_plain (plain_of_isName hv)).append (balanced_of_parseLookups h)
    · cases h
termination_by 2 * t.length

/-- Lookups that read are balanced. -/
theorem balanced_of_parseLookups {whole : List Char} {root : Key} {done : List Key}
    {cs : List Char} {o : Operand} (h : parseLookups whole root done cs = .ok o) : Balanced cs := by
  cases cs with
  | nil => exact Balanced.nil
  | cons c rest =>
    by_cases hdot : c = '.'
    · -- a key after a point
      subst hdot
      rw [parseLookups.eq_2] at h
      split at h
      · rename_i key after hkey
        have hlen := length_spanKey hkey
        obtain ⟨rfl, hk⟩ := spanKey_some hkey
        refine Balanced.cons_plain (plain_of_mem (by simp)) ?_
        refine Balanced.append (Balanced.of_plain fun c hc => ?_) (balanced_of_parseLookups h)
        rcases hk c hc with hc | rfl
        · exact plain_of_isNameChar hc
        · exact plain_of_mem (by simp)
      · cases h
    by_cases hbr : c = '['
    · -- an operand in brackets
      subst hbr
      rw [parseLookups.eq_3] at h
      split at h
      · rename_i inside after hspan
        have hlen : inside.length < rest.length + 1 ∧ after.length < rest.length + 1 := by
          simpa using length_spanBracket hspan
        split at h
        · cases h
        rename_i key hkey
        rw [spanBracket_some hspan]
        exact Balanced.bracket (balanced_of_parseChars hkey) (balanced_of_parseLookups h)
      · cases h
    · rw [parseLookups.eq_4 _ _ _ _ _ hdot hbr] at h
      cases h
termination_by 2 * cs.length
decreasing_by
  all_goals
    subst_vars
    simp only [List.length_cons]
    omega

end

/-! ### Token texts -/

theorem of_isNameChar {c : Char} (h : isNameChar c = true) :
    isSpace c = false ∧ c ≠ '.' ∧ c ≠ '[' ∧ c ≠ ']' := by
  refine ⟨?_, ?_, ?_, ?_⟩
  · cases hs : isSpace c
    · rfl
    · rw [Text.isNameChar_of_isSpace hs] at h
      cases h
  all_goals (rintro rfl; revert h; decide)

theorem of_isDigit {c : Char} (h : isDigit c = true) :
    isSpace c = false ∧ c ≠ '.' ∧ c ≠ '[' ∧ c ≠ ']' := by
  refine ⟨?_, ?_, ?_, ?_⟩
  · cases hs : isSpace c
    · rfl
    · rw [Text.isDigit_of_isSpace hs] at h
      cases h
  all_goals (rintro rfl; revert h; decide +kernel)

/-- A text with no white space in which a point is always followed, within the text, by a
character other than a point. -/
def Solid (v : List Char) : Prop :=
  (∀ c ∈ v, isSpace c = false) ∧ ∀ a r, v = a ++ '.' :: r → ∃ c r', r = c :: r' ∧ c ≠ '.'

theorem Solid.of_no_dot {v : List Char} (h : ∀ c ∈ v, isSpace c = false ∧ c ≠ '.') : Solid v := by
  refine ⟨fun c hc => (h c hc).1, ?_⟩
  intro a r hv
  exact absurd rfl (h '.' (by simp [hv])).2

theorem solid_of_isName {v : List Char} (hv : IsName v) : Solid v := by
  refine Solid.of_no_dot fun x hx => ?_
  rcases hv.nameChar_or_question x hx with hname | rfl
  · exact ⟨(of_isNameChar hname).1, (of_isNameChar hname).2.1⟩
  · exact ⟨by decide, by decide⟩

theorem solid_of_isNumeral {v : List Char} (hv : IsNumeral v) : Solid v := by
  obtain ⟨sign, whole, fraction, rfl, hsign, -, hwhole, hfrac⟩ := hv
  -- the sign and the whole part hold no point
  have hsw : ∀ c ∈ sign ++ whole, isSpace c = false ∧ c ≠ '.' := by
    intro c hc
    rcases List.mem_append.1 hc with hc | hc
    · rcases hsign with rfl | rfl
      · cases hc
      · simp only [List.mem_singleton] at hc
        subst hc
        exact ⟨by decide, by decide⟩
    · exact ⟨(of_isDigit (hwhole c hc)).1, (of_isDigit (hwhole c hc)).2.1⟩
  rcases hfrac with rfl | ⟨ds, rfl, hne, hds⟩
  · exact Solid.of_no_dot (by simpa using hsw)
  · refine ⟨?_, ?_⟩
    · intro c hc
      rcases List.mem_append.1 hc with hc | hc
      · exact (hsw c hc).1
      · rcases List.mem_cons.1 hc with rfl | hc
        · decide
        · exact (of_isDigit (hds c hc)).1
    · intro a r heq
      rcases List.append_eq_append_iff.1 heq.symm with ⟨m, hpre, hm⟩ | ⟨m, -, hm⟩
      · cases m with
        | nil =>
          simp only [List.nil_append, List.cons.injEq, true_and] at hm
          subst hm
          obtain ⟨d, ds', rfl⟩ := List.exists_cons_of_ne_nil hne
          exact ⟨d, ds', rfl, (of_isDigit (hds d (by simp))).2.1⟩
        | cons x m =>
          -- a point before the fraction's would lie in the sign or the whole part
          simp only [List.cons_append, List.cons.injEq] at hm
          obtain ⟨rfl, -⟩ := hm
          exact absurd rfl (hsw '.' (by simp [hpre])).2
      · cases m with
        | nil =>
          simp only [List.nil_append, List.cons.injEq, true_and] at hm
          subst hm
          obtain ⟨d, ds', rfl⟩ := List.exists_cons_of_ne_nil hne
          exact ⟨d, ds', rfl, (of_isDigit (hds d (by simp))).2.1⟩
        | cons x m =>
          -- a point after it would lie among the fraction's digits
          simp only [List.cons_append, List.cons.injEq] at hm
          obtain ⟨-, rfl⟩ := hm
          exact absurd rfl (of_isDigit (hds '.' (by simp))).2.1

theorem chars_of_isNumeral {v : List Char} (hv : IsNumeral v) :
    ∀ c ∈ v, c = '-' ∨ c = '.' ∨ isDigit c = true := by
  obtain ⟨sign, whole, fraction, rfl, hsign, -, hwhole, hfrac⟩ := hv
  intro c hc
  rcases List.mem_append.1 hc with hc | hc
  · rcases List.mem_append.1 hc with hc | hc
    · rcases hsign with rfl | rfl
      · cases hc
      · exact .inl (by simpa using hc)
    · exact .inr (.inr (hwhole c hc))
  · rcases hfrac with rfl | ⟨ds, rfl, -, hds⟩
    · cases hc
    · rcases List.mem_cons.1 hc with rfl | hc
      · exact .inr (.inl rfl)
      · exact .inr (.inr (hds c hc))

theorem plain_of_isNumeral {v : List Char} (hv : IsNumeral v) : ∀ c ∈ v, Plain c := by
  intro c hc
  rcases chars_of_isNumeral hv c hc with rfl | rfl | hd
  · exact plain_of_mem (by simp)
  · exact plain_of_mem (by simp)
  · exact plain_of_isDigit hd

end Branching.Operand

namespace Branching.Token

open Text Operand

/-- How a token moves the parenthesis depth. -/
def depth (t : Token) : Int :=
  match t.kind with
  | .lparen => 1
  | .rparen => -1
  | _ => 0

/-- Whether a token is `.` or `..`. -/
def IsDots (t : Token) : Prop := t.kind = .dot ∨ t.kind = .dotdot

/-- A token of a kind operands are made of: neither a comparison nor the end. -/
def InOperand (t : Token) : Prop := t.kind ≠ .comparison ∧ t.kind ≠ .eof

namespace Shaped

variable {t : Token}

theorem value_of_kind (h : Shaped t) :
    (t.kind = .dot → t.value.toList = ['.']) ∧ (t.kind = .dotdot → t.value.toList = ['.', '.']) ∧
      (t.kind = .lbracket → t.value.toList = ['[']) ∧ (t.kind = .rbracket → t.value.toList = [']']) ∧
      (t.kind = .lparen → t.value.toList = ['(']) ∧ (t.kind = .rparen → t.value.toList = [')']) := by
  unfold Shaped at h
  refine ⟨fun hk => ?_, fun hk => ?_, fun hk => ?_, fun hk => ?_, fun hk => ?_, fun hk => ?_⟩ <;>
    simp only [hk] at h <;> rw [h] <;> rfl

/-- A token's text starts with no white space, and with a point only when it is `.` or `..`. -/
theorem head (h : Shaped t) (hk : t.InOperand) :
    ∃ c cs, t.value.toList = c :: cs ∧ isSpace c = false ∧ (c = '.' → t.IsDots) := by
  obtain ⟨hcmp, heof⟩ := hk
  have hv := h.value_of_kind
  unfold Shaped at h
  cases hkind : t.kind <;> simp only [hkind] at h hcmp heof
  case string =>
    obtain ⟨q, inner, hq, -, hv⟩ := h
    refine ⟨q, inner ++ [q], by simp [hv], ?_, ?_⟩
    · rcases hq with rfl | rfl <;> decide
    · rintro rfl
      rcases hq with h | h <;> cases h
  case number =>
    obtain ⟨sign, whole, fraction, hv, hsign, hne, hwhole, -⟩ := h
    obtain ⟨d, ds, rfl⟩ := List.exists_cons_of_ne_nil hne
    have hd := of_isDigit (hwhole d (by simp))
    rcases hsign with rfl | rfl
    · exact ⟨d, ds ++ fraction, by simp [hv], hd.1, fun h => absurd h hd.2.1⟩
    · exact ⟨'-', d :: ds ++ fraction, by simp [hv], by decide, fun h => absurd h (by decide)⟩
  case identifier =>
    obtain ⟨⟨c, body, hc, -, hv⟩, -⟩ := h
    have hc' := of_isNameStart hc
    rcases hv with hv | hv
    · exact ⟨c, body, hv, hc'.2.2.1, fun h => absurd h hc'.2.2.2.2.2.2.1⟩
    · exact ⟨c, body ++ ['?'], by simp [hv], hc'.2.2.1, fun h => absurd h hc'.2.2.2.2.2.2.1⟩
  case dotdot => exact ⟨'.', ['.'], hv.2.1 hkind, by decide, fun _ => .inr hkind⟩
  case dot => exact ⟨'.', [], hv.1 hkind, by decide, fun _ => .inl hkind⟩
  case lbracket => exact ⟨'[', [], hv.2.2.1 hkind, by decide, fun h => absurd h (by decide)⟩
  case rbracket => exact ⟨']', [], hv.2.2.2.1 hkind, by decide, fun h => absurd h (by decide)⟩
  case lparen => exact ⟨'(', [], hv.2.2.2.2.1 hkind, by decide, fun h => absurd h (by decide)⟩
  case rparen => exact ⟨')', [], hv.2.2.2.2.2 hkind, by decide, fun h => absurd h (by decide)⟩
  all_goals exact absurd rfl ‹_›

/-- Apart from quoted texts and the points, a token's text is `Solid`. -/
theorem solid (h : Shaped t) (hk : t.InOperand) (hs : t.kind ≠ .string) (hd : ¬ t.IsDots) :
    Solid t.value.toList := by
  obtain ⟨hcmp, heof⟩ := hk
  have hv := h.value_of_kind
  unfold Shaped at h
  cases hkind : t.kind <;> simp only [hkind] at h hcmp heof hs
  case number => exact solid_of_isNumeral h
  case identifier => exact solid_of_isName h.1
  case dotdot => exact absurd (.inr hkind) hd
  case dot => exact absurd (.inl hkind) hd
  case lbracket => rw [hv.2.2.1 hkind]; exact Solid.of_no_dot (Text.forall_mem_of_all (by decide))
  case rbracket => rw [hv.2.2.2.1 hkind]; exact Solid.of_no_dot (Text.forall_mem_of_all (by decide))
  case lparen => rw [hv.2.2.2.2.1 hkind]; exact Solid.of_no_dot (Text.forall_mem_of_all (by decide))
  case rparen => rw [hv.2.2.2.2.2 hkind]; exact Solid.of_no_dot (Text.forall_mem_of_all (by decide))
  all_goals exact absurd rfl ‹_›

/-- Outside quotes, a token's text moves the depth by the token's `depth`. -/
theorem nesting_value (h : Shaped t) (hk : t.InOperand) (d : Int) :
    nesting (none, d) t.value.toList = (none, d + t.depth) := by
  obtain ⟨hcmp, heof⟩ := hk
  have hv := h.value_of_kind
  unfold Shaped at h
  cases hkind : t.kind <;> simp only [hkind] at h hcmp heof <;> simp only [depth, hkind, Int.add_zero]
  case string =>
    obtain ⟨q, inner, hq, hin, hv⟩ := h
    rw [hv]
    exact Balanced.quoted hq hin d
  case number => exact Balanced.of_plain (plain_of_isNumeral h) d
  case identifier => exact Balanced.of_plain (plain_of_isName h.1) d
  case dotdot => rw [hv.2.1 hkind]; exact Balanced.of_marks (Text.forall_mem_of_all (by decide)) d
  case dot => rw [hv.1 hkind]; exact Balanced.of_marks (Text.forall_mem_of_all (by decide)) d
  case lbracket => rw [hv.2.2.1 hkind]; exact Balanced.of_marks (Text.forall_mem_of_all (by decide)) d
  case rbracket => rw [hv.2.2.2.1 hkind]; exact Balanced.of_marks (Text.forall_mem_of_all (by decide)) d
  case lparen => rw [hv.2.2.2.2.1 hkind]; simp [nestStep]
  case rparen => rw [hv.2.2.2.2.2 hkind]; simp [nestStep]; omega
  all_goals exact absurd rfl ‹_›

/-- Inside a quoted text the quote is open. -/
theorem string_open (h : Shaped t) (hs : t.kind = .string) {j : Nat} (hj : 1 ≤ j)
    (hlt : j < t.value.toList.length) (d : Int) :
    (nesting (none, d) (t.value.toList.take j)).1 ≠ none := by
  unfold Shaped at h
  simp only [hs] at h
  obtain ⟨q, inner, hq, hin, hv⟩ := h
  rw [hv] at hlt ⊢
  obtain ⟨i, rfl⟩ : ∃ i, j = i + 1 := ⟨j - 1, by omega⟩
  have hi : i ≤ inner.length := by simp at hlt; omega
  rw [List.cons_append, List.take_succ_cons, List.take_append_of_le_length hi, nesting_cons]
  simp only [nestStep, hq, if_true]
  rw [nesting_in_quote (fun hm => hin (List.mem_of_mem_take hm)) d]
  simp

/-- A token's text ends with no white space. -/
theorem last (h : Shaped t) (hk : t.InOperand) :
    ∃ cs c, t.value.toList = cs ++ [c] ∧ isSpace c = false := by
  obtain ⟨hcmp, heof⟩ := hk
  have hv := h.value_of_kind
  unfold Shaped at h
  cases hkind : t.kind <;> simp only [hkind] at h hcmp heof
  case string =>
    obtain ⟨q, inner, hq, -, hv⟩ := h
    refine ⟨q :: inner, q, hv, ?_⟩
    rcases hq with rfl | rfl <;> decide
  case number =>
    obtain ⟨sign, whole, fraction, hv, -, hne, hwhole, hfrac⟩ := h
    rcases hfrac with rfl | ⟨ds, rfl, hds, hdig⟩
    · rw [← List.dropLast_concat_getLast hne] at hv hwhole
      exact ⟨sign ++ whole.dropLast, whole.getLast hne, by simp [hv],
        (of_isDigit (hwhole _ (by simp))).1⟩
    · rw [← List.dropLast_concat_getLast hds] at hv hdig
      exact ⟨sign ++ whole ++ '.' :: ds.dropLast, ds.getLast hds, by simp [hv],
        (of_isDigit (hdig _ (by simp))).1⟩
  case identifier =>
    obtain ⟨⟨c, body, hc, hbody, hv⟩, -⟩ := h
    rcases hv with hv | hv
    · by_cases hnil : body = []
      · subst hnil
        exact ⟨[], c, hv, (of_isNameStart hc).2.2.1⟩
      · rw [← List.dropLast_concat_getLast hnil] at hv hbody
        exact ⟨c :: body.dropLast, body.getLast hnil, by simp [hv],
          (of_isNameChar (hbody _ (by simp))).1⟩
    · exact ⟨c :: body, '?', hv, by decide⟩
  case dotdot => exact ⟨['.'], '.', hv.2.1 hkind, by decide⟩
  case dot => exact ⟨[], '.', hv.1 hkind, by decide⟩
  case lbracket => exact ⟨[], '[', hv.2.2.1 hkind, by decide⟩
  case rbracket => exact ⟨[], ']', hv.2.2.2.1 hkind, by decide⟩
  case lparen => exact ⟨[], '(', hv.2.2.2.2.1 hkind, by decide⟩
  case rparen => exact ⟨[], ')', hv.2.2.2.2.2 hkind, by decide⟩
  all_goals exact absurd rfl ‹_›

end Shaped

/-- `DotsNested e ts`: read from parenthesis depth `e`, every `..` of `ts` stands at a depth of at
least one, and every `.` or `..` is followed by a token that is neither. -/
def DotsNested : Int → List Token → Prop
  | _, [] => True
  | e, t :: ts => (t.kind = .dotdot → 0 < e) ∧ (t.IsDots → ∃ u us, ts = u :: us ∧ ¬ u.IsDots) ∧
      DotsNested (e + t.depth) ts

theorem dropSpace_of_spaces {g y : List Char} (hg : ∀ c ∈ g, isSpace c = true) :
    dropSpace (g ++ y) = dropSpace y :=
  List.dropWhile_append_of_pos hg

theorem dropSpace_cons {c : Char} {y : List Char} (hc : isSpace c = false) :
    dropSpace (c :: y) = c :: y :=
  List.dropWhile_cons_of_neg (by simp [hc])

/-- Tokens that start with neither `.` nor `..` do not start with a point, white space before
them included. -/
theorem Laid.head_ne_dot {x : List Char} {u : Token} {us : List Token} (h : Laid x (u :: us))
    (hu : Shaped u ∧ u.InOperand) (hd : ¬ u.IsDots) (Z w : List Char) : x ++ Z ≠ '.' :: w := by
  cases h with
  | @cons g cs _ _ hg _ =>
    intro heq
    cases g with
    | nil =>
      obtain ⟨c, cs', hv, -, hdot⟩ := hu.1.head hu.2
      rw [List.nil_append, hv] at heq
      simp only [List.cons_append, List.cons.injEq] at heq
      exact hd (hdot heq.1)
    | cons c g =>
      simp only [List.cons_append, List.cons.injEq] at heq
      exact (Text.ne_of_isSpace (hg c (by simp))).2.2.2.2.2.2.1 heq.1

/-- Where `..` follows in the text of the tokens `ts`, read from depth `e`, a quoted text is open
or the depth is at least one. Cut there, the text before is not balanced. -/
theorem open_of_dots {e : Int} {x : List Char} {ts : List Token} (hlaid : Laid x ts)
    (hshape : ∀ t ∈ ts, Shaped t ∧ t.InOperand) (hdots : DotsNested e ts) {Z w : List Char}
    {k : Nat} (hk : k < x.length) (hy : dropSpace ((x ++ Z).drop k) = '.' :: '.' :: w) :
    (nesting (none, e) (x.take k)).1 ≠ none ∨ 0 < (nesting (none, e) (x.take k)).2 := by
  induction hlaid generalizing e k w with
  | nil => simp at hk
  | @cons g x' t ts hg hlaid ih =>
    obtain ⟨hsh, hin⟩ := hshape t (by simp)
    obtain ⟨hdd, hnext, hrest⟩ := hdots
    -- a point right after `t` would start the next token, which is neither `.` nor `..`
    have hafter : t.IsDots → x' ++ Z ≠ '.' :: w := by
      intro hd
      obtain ⟨u, us, rfl, hu⟩ := hnext hd
      exact hlaid.head_ne_dot (hshape u (by simp)) hu Z w
    have hvalue := hsh.value_of_kind
    by_cases hkg : k ≤ g.length
    · -- the cut is in the white space before `t`, so `t` starts with a point
      have htake : (g ++ t.value.toList ++ x').take k = g.take k := by
        rw [List.append_assoc, List.take_append_of_le_length hkg]
      have hnest : nesting (none, e) (g.take k) = (none, e) :=
        balanced_spaces (fun c hc => hg c (List.mem_of_mem_take hc)) e
      obtain ⟨c, cs, hv, hc, hdot⟩ := hsh.head hin
      rw [List.append_assoc, List.append_assoc, List.drop_append_of_le_length hkg,
        dropSpace_of_spaces (fun c hc => hg c (List.mem_of_mem_drop hc)), hv, List.cons_append,
        dropSpace_cons hc] at hy
      simp only [List.cons.injEq] at hy
      rw [htake, hnest]
      rcases hdot hy.1 with hkd | hkd
      · rw [hvalue.1 hkd] at hv
        simp only [List.cons.injEq] at hv
        rw [← hv.2, List.nil_append] at hy
        exact absurd hy.2 (hafter (.inl hkd))
      · exact .inr (hdd hkd)
    by_cases hkv : k < g.length + t.value.toList.length
    · -- the cut is inside the text of `t`
      obtain ⟨j, rfl⟩ : ∃ j, k = g.length + j := ⟨k - g.length, by omega⟩
      have hj : j ≤ t.value.toList.length := by omega
      have htake : (g ++ t.value.toList ++ x').take (g.length + j) = g ++ t.value.toList.take j := by
        rw [List.append_assoc, List.take_length_add_append, List.take_append_of_le_length hj]
      rw [htake, nesting_append, balanced_spaces hg e]
      rw [List.append_assoc, List.append_assoc, List.drop_length_add_append,
        List.drop_append_of_le_length hj] at hy
      by_cases hs : t.kind = .string
      · exact .inl (hsh.string_open hs (by omega) (by omega) e)
      by_cases hd : t.IsDots
      · rcases hd with hkd | hkd
        · rw [hvalue.1 hkd] at hkv
          simp at hkv
          omega
        · rw [hvalue.2.1 hkd] at hkv hy
          obtain rfl : j = 1 := by simp at hkv; omega
          simp only [List.drop_succ_cons, List.drop_zero, List.cons_append, List.nil_append] at hy
          rw [dropSpace_cons (by decide)] at hy
          simp only [List.cons.injEq, true_and] at hy
          exact absurd hy (hafter (.inr hkd))
      · -- elsewhere a point in a token's text is followed by another character
        have hsolid := hsh.solid hin hs hd
        obtain ⟨c, r, hcr⟩ := List.exists_cons_of_ne_nil (l := t.value.toList.drop j)
          (by simp; omega)
        have hc : isSpace c = false := hsolid.1 c (List.mem_of_mem_drop (by rw [hcr]; simp))
        rw [hcr, List.cons_append, dropSpace_cons hc] at hy
        simp only [List.cons.injEq] at hy
        obtain ⟨rfl, hy⟩ := hy
        have hsplit : t.value.toList = t.value.toList.take j ++ '.' :: r := by
          rw [← hcr, List.take_append_drop]
        obtain ⟨c', r', rfl, hc'⟩ := hsolid.2 _ _ hsplit
        simp only [List.cons_append, List.cons.injEq] at hy
        exact absurd hy.1 hc'
    · -- the cut is after `t`: go on from the depth `t` leaves
      obtain ⟨k', rfl⟩ : ∃ k', k = (g ++ t.value.toList).length + k' :=
        ⟨k - (g ++ t.value.toList).length, by simp; omega⟩
      rw [List.take_length_add_append, nesting_append, nesting_append, balanced_spaces hg e,
        hsh.nesting_value hin e]
      rw [List.append_assoc, List.drop_length_add_append] at hy
      refine ih (fun u hu => hshape u (by simp [hu])) hrest ?_ hy
      simp only [List.length_append] at hk ⊢
      omega

end Branching.Token
