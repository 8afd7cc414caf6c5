import Branching.Condition.Token

/-!
# What the header lexer reads

`Token.scan` cuts a header into tokens. Here what it produces is stated as a relation, `Lexed`,
with the shape of the scan itself: white space is passed over, and each other piece is the token
`tokenAt` finds where it starts. Two kinds of facts follow from it.

* Every token's text has the shape of its kind (`Token.Shaped`): a name, a quoted text, a numeral,
  one of the comparison words, or a piece of punctuation.
* Any run of consecutive tokens is a piece of the header: their texts in order, with white space
  between neighbours (`Token.Spans`), starting at the first token's position (`Lexed.split`). This
  is what lets a proof read the header text an operand's tokens cover.
-/

namespace Branching

namespace Text

/-- The code points of white space. -/
def spaceCodes : List Nat :=
  [9, 10, 11, 12, 13, 0x1c, 0x1d, 0x1e, 0x1f, 0x20, 0x85, 0xa0, 0x1680, 0x2000, 0x2001, 0x2002,
    0x2003, 0x2004, 0x2005, 0x2006, 0x2007, 0x2008, 0x2009, 0x200a, 0x2028, 0x2029, 0x202f, 0x205f,
    0x3000]

theorem toNat_mem_spaceCodes {c : Char} (h : isSpace c = true) : c.toNat ∈ spaceCodes := by
  simp only [isSpace, inRanges, spaceRanges, List.any_cons, List.any_nil, Bool.or_false,
    Bool.or_eq_true, Bool.and_eq_true, decide_eq_true_eq] at h
  simp only [spaceCodes, List.mem_cons, List.not_mem_nil, or_false]
  omega

/-- A decidable fact that holds of each white space character holds of every one; the white space
characters are few enough to be checked one by one. -/
theorem of_isSpace {P : Char → Prop} [DecidablePred P] (hP : ∀ n ∈ spaceCodes, P (Char.ofNat n))
    {c : Char} (h : isSpace c = true) : P c := by
  simpa using hP c.toNat (toNat_mem_spaceCodes h)

theorem isNameChar_of_isSpace {c : Char} (h : isSpace c = true) : Operand.isNameChar c = false :=
  of_isSpace (P := fun c => Operand.isNameChar c = false) (by decide +kernel) h

theorem isDigit_of_isSpace {c : Char} (h : isSpace c = true) : isDigit c = false :=
  of_isSpace (P := fun c => isDigit c = false) (by decide +kernel) h

/-- White space is none of the characters that start or close a piece of an operand. -/
theorem ne_of_isSpace {c : Char} (h : isSpace c = true) :
    c ≠ '"' ∧ c ≠ '\'' ∧ c ≠ '(' ∧ c ≠ ')' ∧ c ≠ '[' ∧ c ≠ ']' ∧ c ≠ '.' ∧ c ≠ '-' ∧ c ≠ '?' := by
  refine of_isSpace (P := fun c => c ≠ '"' ∧ c ≠ '\'' ∧ c ≠ '(' ∧ c ≠ ')' ∧ c ≠ '[' ∧ c ≠ ']' ∧
    c ≠ '.' ∧ c ≠ '-' ∧ c ≠ '?') ?_ h
  decide +kernel

/-- A decidable fact of each character of a list, from the Boolean check of the list. The check
runs along the list; deciding the bounded statement itself may range over every character. -/
theorem forall_mem_of_all {P : Char → Prop} [DecidablePred P] {l : List Char}
    (h : (l.all fun c => decide (P c)) = true) : ∀ c ∈ l, P c := by
  simpa using List.all_eq_true.1 h

theorem isSpace_of_mem_takeWhile {c : Char} {cs : List Char} (h : c ∈ cs.takeWhile isSpace) :
    isSpace c = true :=
  List.all_eq_true.1 List.all_takeWhile c h

end Text

namespace Operand

open Text

theorem toNat_lt_of_isNameStart {c : Char} (h : isNameStart c = true) : c.toNat < 128 := by
  simp only [isNameStart, Bool.or_eq_true, Bool.and_eq_true, decide_eq_true_eq, beq_iff_eq] at h
  rcases h with (⟨-, h⟩ | ⟨-, h⟩) | rfl
  · have : c.toNat ≤ 90 := h
    omega
  · have : c.toNat ≤ 122 := h
    omega
  · decide

/-- A decidable fact that holds of each ASCII character holds of every ASCII character. -/
theorem of_ascii {P : Char → Prop} [DecidablePred P] (hP : ∀ n, n < 128 → P (Char.ofNat n))
    {c : Char} (h : c.toNat < 128) : P c := by
  simpa using hP c.toNat h

/-- What a name start is not: it continues names, and it is no digit, quote, bracket, sign or
point. -/
theorem of_isNameStart {c : Char} (h : isNameStart c = true) :
    isNameChar c = true ∧ isDigit c = false ∧ isSpace c = false ∧ c ≠ '"' ∧ c ≠ '\'' ∧ c ≠ '-' ∧
      c ≠ '.' ∧ c ≠ '(' ∧ c ≠ '[' ∧ c ≠ '?' := by
  refine of_ascii (P := fun c => isNameStart c = true → isNameChar c = true ∧ isDigit c = false ∧
    isSpace c = false ∧ c ≠ '"' ∧ c ≠ '\'' ∧ c ≠ '-' ∧ c ≠ '.' ∧ c ≠ '(' ∧ c ≠ '[' ∧ c ≠ '?')
    ?_ (toNat_lt_of_isNameStart h) h
  decide +kernel

theorem isNameChar_question : isNameChar '?' = false := by decide

/-- A name: a name start and name characters, perhaps closed by `?`. -/
def IsName (v : List Char) : Prop :=
  ∃ c body, isNameStart c = true ∧ (∀ x ∈ body, isNameChar x = true) ∧
    (v = c :: body ∨ v = c :: body ++ ['?'])

/-- Every character of a name is a name character, or the `?` that closes it. -/
theorem IsName.nameChar_or_question {v : List Char} (hv : IsName v) :
    ∀ x ∈ v, isNameChar x = true ∨ x = '?' := by
  obtain ⟨c, body, hc, hbody, rfl | rfl⟩ := hv
  · intro x hx
    rcases List.mem_cons.1 hx with rfl | hx
    · exact .inl (of_isNameStart hc).1
    · exact .inl (hbody x hx)
  · intro x hx
    rcases List.mem_append.1 hx with hx | hx
    · rcases List.mem_cons.1 hx with rfl | hx
      · exact .inl (of_isNameStart hc).1
      · exact .inl (hbody x hx)
    · exact .inr (by simpa using hx)

/-- A text a name may stop before: empty, or starting with neither a name character nor `?`. -/
def StopsName (w : List Char) : Prop := ∀ x, w.head? = some x → isNameChar x = false ∧ x ≠ '?'

theorem StopsName.takeWhile_eq {w : List Char} (hw : StopsName w) : w.takeWhile isNameChar = [] := by
  cases w with
  | nil => rfl
  | cons x w => simp [(hw x rfl).1]

theorem StopsName.dropWhile_eq {w : List Char} (hw : StopsName w) : w.dropWhile isNameChar = w := by
  cases w with
  | nil => rfl
  | cons x w => simp [(hw x rfl).1]

theorem spanName_append {v w : List Char} (hv : IsName v) (hw : StopsName w) :
    spanName (v ++ w) = some (v, w) := by
  obtain ⟨c, body, hc, hbody, rfl | rfl⟩ := hv
  · simp only [List.cons_append, spanName, hc, if_true, List.dropWhile_append_of_pos hbody,
      hw.dropWhile_eq, List.takeWhile_append_of_pos hbody, hw.takeWhile_eq, List.append_nil]
    split
    · exact absurd rfl (hw '?' rfl).2
    · rfl
  · have hstop : ¬ isNameChar '?' = true := by simp [isNameChar_question]
    simp only [List.cons_append, List.append_assoc, List.nil_append, spanName, hc, if_true,
      List.dropWhile_append_of_pos hbody, List.takeWhile_append_of_pos hbody,
      List.dropWhile_cons_of_neg hstop, List.takeWhile_cons_of_neg hstop, List.append_nil]

theorem spanKey_append {v w : List Char} (hv : IsName v) (hw : StopsName w) :
    spanKey (v ++ w) = some (v, w) := by
  obtain ⟨c, body, hc, hbody, hv⟩ := hv
  -- a key may start with any name character, so the whole name before `?` is taken
  have hall : ∀ x ∈ c :: body, isNameChar x = true := by
    intro x hx
    rcases List.mem_cons.1 hx with rfl | hx
    · exact (of_isNameStart hc).1
    · exact hbody x hx
  rcases hv with rfl | rfl
  · simp only [spanKey, List.takeWhile_append_of_pos hall, List.dropWhile_append_of_pos hall,
      hw.takeWhile_eq, hw.dropWhile_eq, List.append_nil, List.isEmpty_cons, Bool.false_eq_true,
      if_false]
    split
    · exact absurd rfl (hw '?' rfl).2
    · rfl
  · have hstop : ¬ isNameChar '?' = true := by simp [isNameChar_question]
    simp only [spanKey, List.append_assoc, List.singleton_append,
      List.takeWhile_append_of_pos hall, List.dropWhile_append_of_pos hall,
      List.takeWhile_cons_of_neg hstop, List.dropWhile_cons_of_neg hstop, List.append_nil,
      List.isEmpty_cons, Bool.false_eq_true, if_false]

/-- What `spanName` reads is a name that starts the text; unless it ends with `?`, the rest
cannot continue it. -/
theorem spanName_some {cs v rest : List Char} (h : spanName cs = some (v, rest)) :
    cs = v ++ rest ∧ IsName v ∧ (v.getLast? ≠ some '?' → StopsName rest) := by
  match cs, h with
  | c :: tail, h =>
    simp only [spanName] at h
    split at h
    · rename_i hc
      have hbody : ∀ x ∈ tail.takeWhile isNameChar, isNameChar x = true :=
        List.all_eq_true.1 List.all_takeWhile
      have hsplit := (List.takeWhile_append_dropWhile (p := isNameChar) (l := tail)).symm
      -- a `?` right after the name characters closes the name; otherwise the name ends before
      -- a character that is neither a name character nor `?`
      split at h
      · rename_i after heq
        simp only [Option.some.injEq, Prod.mk.injEq] at h
        obtain ⟨rfl, rfl⟩ := h
        refine ⟨?_, ⟨c, _, hc, hbody, .inr rfl⟩,
          fun hq => absurd List.getLast?_concat hq⟩
        rw [heq] at hsplit
        simp only [List.cons_append, List.append_assoc]
        exact congrArg (c :: ·) hsplit
      · rename_i after hne
        simp only [Option.some.injEq, Prod.mk.injEq] at h
        obtain ⟨rfl, rfl⟩ := h
        refine ⟨by simp only [List.cons_append]; exact congrArg (c :: ·) hsplit,
          ⟨c, _, hc, hbody, .inl rfl⟩, fun _ x hx => ⟨?_, ?_⟩⟩
        · cases hd : tail.dropWhile isNameChar with
          | nil => simp [hd] at hx
          | cons y ys =>
            rw [hd] at hx
            simp only [List.head?_cons, Option.some.injEq] at hx
            subst hx
            have := List.head_dropWhile_not isNameChar (l := tail) (by simp [hd])
            simpa [hd] using this
        · rintro rfl
          cases hd : tail.dropWhile isNameChar with
          | nil => simp [hd] at hx
          | cons y ys =>
            rw [hd] at hx
            simp only [List.head?_cons, Option.some.injEq] at hx
            subst hx
            exact hne ys hd
    · simp at h

/-- A quoted text: a quote, characters other than it, and the same quote again. -/
def IsQuoted (v : List Char) : Prop :=
  ∃ q inner, (q = '"' ∨ q = '\'') ∧ q ∉ inner ∧ v = q :: inner ++ [q]

/-- A numeral: an optional `-`, decimal digits, and perhaps a point followed by digits. -/
def IsNumeral (v : List Char) : Prop :=
  ∃ sign whole fraction, v = sign ++ whole ++ fraction ∧ (sign = [] ∨ sign = ['-']) ∧
    whole ≠ [] ∧ (∀ d ∈ whole, isDigit d = true) ∧
    (fraction = [] ∨ ∃ ds, fraction = '.' :: ds ∧ ds ≠ [] ∧ ∀ d ∈ ds, isDigit d = true)

end Operand

namespace Token

open Text

theorem stringLength_some {cs : List Char} {n : Nat} (h : stringLength cs = some n) :
    ∃ v rest, cs = v ++ rest ∧ v.length = n ∧ Operand.IsQuoted v := by
  match cs, h with
  | q :: tail, h =>
    simp only [stringLength] at h
    split at h
    · rename_i hq
      simp only [Option.some.injEq] at h
      subst h
      obtain ⟨hq, hlt⟩ := hq
      have hsplit := (List.takeWhile_append_dropWhile (p := (· != q)) (l := tail)).symm
      have hne : tail.dropWhile (· != q) ≠ [] := by
        intro he
        rw [he, List.append_nil] at hsplit
        rw [← hsplit] at hlt
        exact Nat.lt_irrefl _ hlt
      obtain ⟨y, ys, hd⟩ : ∃ y ys, tail.dropWhile (· != q) = y :: ys := by
        cases h' : tail.dropWhile (· != q) with
        | nil => exact absurd h' hne
        | cons y ys => exact ⟨y, ys, rfl⟩
      have hy : y = q := by
        have := List.head_dropWhile_not (· != q) (l := tail) hne
        simpa [hd] using this
      subst hy
      have hinner : y ∉ tail.takeWhile (· != y) := by
        intro hm
        have := List.all_eq_true.1 (List.all_takeWhile (p := (· != y)) (l := tail)) y hm
        simp at this
      refine ⟨y :: tail.takeWhile (· != y) ++ [y], ys, ?_, by simp, y, _, hq, hinner, rfl⟩
      rw [hd] at hsplit
      simp only [List.cons_append, List.append_assoc]
      exact congrArg (y :: ·) hsplit
    · simp at h

theorem unsignedLength_some {cs : List Char} {n : Nat} (h : unsignedLength cs = some n) :
    ∃ whole fraction rest, cs = whole ++ fraction ++ rest ∧ (whole ++ fraction).length = n ∧
      whole ≠ [] ∧ (∀ d ∈ whole, isDigit d = true) ∧
      (fraction = [] ∨ ∃ ds, fraction = '.' :: ds ∧ ds ≠ [] ∧ ∀ d ∈ ds, isDigit d = true) := by
  match cs, h with
  | c :: tail, h =>
    simp only [unsignedLength] at h
    split at h
    · rename_i hc
      have hwhole : ∀ d ∈ c :: tail.takeWhile isDigit, isDigit d = true := by
        intro d hd
        rcases List.mem_cons.1 hd with rfl | hd
        · exact hc
        · exact List.all_eq_true.1 List.all_takeWhile d hd
      have hsplit := (List.takeWhile_append_dropWhile (p := isDigit) (l := tail)).symm
      -- after the whole part: a point and digits, a point alone (left to the rest), or no point
      split at h
      · rename_i after heq
        have hfrac := (List.takeWhile_append_dropWhile (p := isDigit) (l := after)).symm
        split at h
        · rename_i hds
          simp only [Option.some.injEq] at h
          subst h
          simp only [Bool.and_eq_true, Bool.not_eq_true', List.isEmpty_eq_false_iff] at hds
          refine ⟨c :: tail.takeWhile isDigit, '.' :: after.takeWhile isDigit,
            after.dropWhile isDigit, ?_, by simp; omega, by simp, hwhole,
            .inr ⟨_, rfl, hds.1, fun d hd => List.all_eq_true.1 List.all_takeWhile d hd⟩⟩
          rw [heq, hfrac] at hsplit
          simp only [List.cons_append, List.append_assoc]
          exact congrArg (c :: ·) hsplit
        · simp only [Option.some.injEq] at h
          subst h
          refine ⟨c :: tail.takeWhile isDigit, [], '.' :: after, ?_, by simp, by simp, hwhole,
            .inl rfl⟩
          rw [heq] at hsplit
          simp only [List.cons_append, List.append_nil]
          exact congrArg (c :: ·) hsplit
      · split at h
        · simp only [Option.some.injEq] at h
          subst h
          refine ⟨c :: tail.takeWhile isDigit, [], tail.dropWhile isDigit, ?_, by simp, by simp,
            hwhole, .inl rfl⟩
          simp only [List.cons_append, List.append_nil]
          exact congrArg (c :: ·) hsplit
        · simp at h
    · simp at h

theorem numberLength_some {cs : List Char} {n : Nat} (h : numberLength cs = some n) :
    ∃ v rest, cs = v ++ rest ∧ v.length = n ∧ Operand.IsNumeral v := by
  unfold numberLength at h
  split at h
  · rename_i tail
    obtain ⟨m, hm, rfl⟩ := Option.map_eq_some_iff.1 h
    obtain ⟨whole, fraction, rest, rfl, hlen, hw, hd, hf⟩ := unsignedLength_some hm
    exact ⟨'-' :: (whole ++ fraction), rest, by simp, by simp at hlen ⊢; omega,
      ['-'], whole, fraction, by simp, .inr rfl, hw, hd, hf⟩
  · obtain ⟨whole, fraction, rest, rfl, hlen, hw, hd, hf⟩ := unsignedLength_some h
    exact ⟨whole ++ fraction, rest, rfl, hlen, [], whole, fraction, by simp, .inl rfl, hw, hd, hf⟩

/-- The texts of comparison tokens. -/
def comparisonTexts : List String := ["==", "!=", "<=", ">=", "<", ">", "contains"]

theorem comparisonLength_some {cs : List Char} {n : Nat} (h : comparisonLength cs = some n) :
    n ≤ cs.length ∧ String.ofList (cs.take n) ∈ comparisonTexts := by
  unfold comparisonLength at h
  split at h <;> (try split at h) <;> (try split at h) <;>
    simp only [Option.some.injEq, reduceCtorEq] at h <;> subst h <;>
    exact ⟨by simp, by simp [comparisonTexts]⟩

/-- The text of a token has the shape of its kind. -/
def Shaped (t : Token) : Prop :=
  match t.kind with
  | .comparison => t.value ∈ comparisonTexts
  | .string => Operand.IsQuoted t.value.toList
  | .number => Operand.IsNumeral t.value.toList
  | .identifier => Operand.IsName t.value.toList ∧ t.value ≠ "contains"
  | .dotdot => t.value = ".."
  | .dot => t.value = "."
  | .lbracket => t.value = "["
  | .rbracket => t.value = "]"
  | .lparen => t.value = "("
  | .rparen => t.value = ")"
  | .eof => t.value = ""

theorem tokenAt_space {cs : List Char} {n : Nat} (h : tokenAt cs = some (none, n)) :
    n = (cs.takeWhile isSpace).length := by
  unfold tokenAt at h
  simp only at h
  split at h
  · simp only [Option.some.injEq, Prod.mk.injEq] at h
    exact h.2.symm
  · split at h <;> (try split at h) <;> (try split at h) <;> (try split at h) <;>
      (try split at h) <;> simp at h

/-- A name that is the word `contains` followed by no name character is read as a comparison. -/
theorem comparisonLength_contains {rest : List Char} (h : Operand.StopsName rest) :
    comparisonLength ("contains".toList ++ rest) = some 8 := by
  cases rest with
  | nil => rfl
  | cons x rest =>
    obtain ⟨hx, hq⟩ := h x rfl
    simp only [Operand.isNameChar, Bool.or_eq_false_iff] at hx
    have : (isWordChar x || x == '?' || x == '-') = false := by
      simp [hx.1, hq, show x ≠ '-' by simpa using hx.2]
    simp [comparisonLength, this]

/-- A token read where no white space starts has the shape of its kind, and its text is the next
`n` characters. -/
theorem tokenAt_token {cs : List Char} {k : TokenKind} {n : Nat} (h : tokenAt cs = some (some k, n))
    (p : Nat) : n ≤ cs.length ∧ cs.takeWhile isSpace = [] ∧ Shaped ⟨k, String.ofList (cs.take n), p⟩ := by
  unfold tokenAt at h
  simp only at h
  split at h
  · simp at h
  rename_i hspace
  have hnil : cs.takeWhile isSpace = [] := List.eq_nil_of_length_eq_zero (by omega)
  suffices hs : n ≤ cs.length ∧ Shaped ⟨k, String.ofList (cs.take n), p⟩ from ⟨hs.1, hnil, hs.2⟩
  -- the matchers in the lexer's order: comparison, string, number, identifier, then the marks
  split at h
  · rename_i m hm
    simp only [Option.some.injEq, Prod.mk.injEq] at h
    obtain ⟨rfl, rfl⟩ := h
    exact comparisonLength_some hm
  split at h
  · rename_i m hm
    simp only [Option.some.injEq, Prod.mk.injEq] at h
    obtain ⟨rfl, rfl⟩ := h
    obtain ⟨v, rest, rfl, rfl, hv⟩ := stringLength_some hm
    simpa [Shaped] using hv
  split at h
  · rename_i m hm
    simp only [Option.some.injEq, Prod.mk.injEq] at h
    obtain ⟨rfl, rfl⟩ := h
    obtain ⟨v, rest, rfl, rfl, hv⟩ := numberLength_some hm
    simpa [Shaped] using hv
  split at h
  · rename_i m hm
    have hcmp : comparisonLength cs = none := ‹_›
    simp only [Option.some.injEq, Prod.mk.injEq] at h
    obtain ⟨rfl, rfl⟩ := h
    obtain ⟨⟨v, rest⟩, hspan, rfl⟩ := Option.map_eq_some_iff.1 hm
    obtain ⟨rfl, hv, hstop⟩ := Operand.spanName_some hspan
    refine ⟨by simp, ?_⟩
    simp only [Shaped, List.take_left', String.toList_ofList]
    -- an identifier is never `contains`: the comparison matcher, tried first, takes that word
    refine ⟨hv, fun hc => ?_⟩
    have hv' : v = "contains".toList := by
      rw [← hc, String.toList_ofList]
    subst hv'
    rw [comparisonLength_contains (hstop (by decide))] at hcmp
    exact absurd hcmp (by simp)
  split at h <;> simp only [Option.some.injEq, Prod.mk.injEq, reduceCtorEq] at h <;>
    obtain ⟨rfl, rfl⟩ := h <;> exact ⟨by simp, by simp [Shaped]⟩

/-- The tokens of `cs`, the piece of a header from position `p` on: white space is passed over,
each other piece is the token `tokenAt` finds where it starts, and the end token closes the list. -/
inductive Lexed : Nat → List Char → List Token → Prop
  | done (p : Nat) : Lexed p [] [⟨.eof, "", p⟩]
  | space {p n : Nat} {cs : List Char} {ts : List Token} :
      tokenAt cs = some (none, n) → Lexed (p + n) (cs.drop n) ts → Lexed p cs ts
  | token {p n : Nat} {k : TokenKind} {cs : List Char} {ts : List Token} :
      tokenAt cs = some (some k, n) → Lexed (p + n) (cs.drop n) ts →
      Lexed p cs (⟨k, String.ofList (cs.take n), p⟩ :: ts)

/-- The scan from a position gives the tokens read so far followed by the tokens of the rest. -/
theorem lexed_of_scanFrom {markup : String} {pos : Nat} {cs : List Char} {done ts : List Token}
    (h : scanFrom markup pos cs done = .ok ts) :
    ∃ rest, ts = done.reverse ++ rest ∧ Lexed pos cs rest := by
  fun_induction scanFrom markup pos cs done generalizing ts with
  | case1 pos done =>
    simp only [Except.ok.injEq] at h
    exact ⟨_, h.symm, .done pos⟩
  | case2 pos c rest done h' => cases h
  | case3 pos done c rest kind n htok hpos done' =>
    rename_i ih
    obtain ⟨more, rfl, hlex⟩ := ih h
    cases kind with
    | none => exact ⟨more, by simp [done'], .space htok hlex⟩
    | some k => exact ⟨_, by simp [done'], .token htok hlex⟩

/-- The tokens of a header are those `Lexed` gives from its start. -/
theorem lexed_of_scan {markup : String} {ts : List Token} (h : scan markup = .ok ts) :
    Lexed 0 markup.toList ts := by
  obtain ⟨rest, rfl, hlex⟩ := lexed_of_scanFrom h
  simpa using hlex

/-- What `tokenAt` reads lies within the text. -/
theorem tokenAt_le_length {cs : List Char} {k : Option TokenKind} {n : Nat}
    (h : tokenAt cs = some (k, n)) : n ≤ cs.length := by
  cases k with
  | none =>
    rw [tokenAt_space h]
    exact (List.takeWhile_sublist _).length_le
  | some k => exact (tokenAt_token h 0).1

theorem length_take_of_tokenAt {cs : List Char} {k : Option TokenKind} {n : Nat}
    (h : tokenAt cs = some (k, n)) : (cs.take n).length = n := by
  rw [List.length_take]
  exact Nat.min_eq_left (tokenAt_le_length h)

namespace Lexed

variable {p : Nat} {cs : List Char} {ts : List Token}

/-- Every token the lexer gives has the shape of its kind. -/
theorem shaped (h : Lexed p cs ts) : ∀ t ∈ ts, Shaped t := by
  induction h with
  | done p => simp [Shaped]
  | space _ _ ih => exact ih
  | token htok _ ih =>
    intro t ht
    rcases List.mem_cons.1 ht with rfl | ht
    · exact (tokenAt_token htok _).2.2
    · exact ih t ht

/-- The lexer's tokens end with the end token, and only there. -/
theorem eq_append_eof (h : Lexed p cs ts) :
    ∃ body e, ts = body ++ [e] ∧ e.kind = .eof ∧ ∀ t ∈ body, t.kind ≠ .eof := by
  induction h with
  | done p => exact ⟨[], _, rfl, rfl, by simp⟩
  | space _ _ ih => exact ih
  | @token p n k cs ts htok _ ih =>
    obtain ⟨body, e, rfl, he, hbody⟩ := ih
    refine ⟨⟨k, String.ofList (cs.take n), p⟩ :: body, e, rfl, he, ?_⟩
    intro t ht
    rcases List.mem_cons.1 ht with rfl | ht
    · -- the end token has no text, and `tokenAt` reads at least one character
      intro hk
      simp only at hk
      subst hk
      have hsh := (tokenAt_token htok p).2.2
      simp only [Shaped] at hsh
      have hlen := length_take_of_tokenAt htok
      rw [← String.toList_ofList (l := cs.take n), hsh] at hlen
      exact absurd hlen.symm (Nat.pos_iff_ne_zero.1 (tokenAt_pos htok))
    · exact hbody t ht

end Lexed

/-- `Laid cs ts`: `cs` is the texts of the tokens `ts` in order, each after some white space. -/
inductive Laid : List Char → List Token → Prop
  | nil : Laid [] []
  | cons {g cs : List Char} {t : Token} {ts : List Token} :
      (∀ c ∈ g, isSpace c = true) → Laid cs ts → Laid (g ++ t.value.toList ++ cs) (t :: ts)

/-- `Spans cs ts`: `cs` is the texts of the tokens `ts` from the start of the first to the end of
the last, with white space between neighbours. -/
def Spans (cs : List Char) : List Token → Prop
  | [] => False
  | t :: ts => ∃ rest, cs = t.value.toList ++ rest ∧ Laid rest ts

theorem Spans.laid {g cs : List Char} {ts : List Token} (hg : ∀ c ∈ g, isSpace c = true)
    (h : Spans cs ts) : Laid (g ++ cs) ts := by
  match ts, h with
  | t :: ts, ⟨rest, hcs, hrest⟩ =>
    rw [hcs, ← List.append_assoc]
    exact .cons hg hrest

namespace Laid

variable {x : List Char} {t : Token} {a b ts : List Token}

theorem append {xa xb : List Char} (ha : Laid xa a) (hb : Laid xb b) : Laid (xa ++ xb) (a ++ b) := by
  induction ha with
  | nil => simpa using hb
  | cons hg _ ih => simpa [List.append_assoc] using Laid.cons hg ih

/-- The text of two runs of tokens is the text of the first followed by that of the second. -/
theorem append_inv (h : Laid x (a ++ b)) : ∃ xa xb, x = xa ++ xb ∧ Laid xa a ∧ Laid xb b := by
  induction a generalizing x with
  | nil => exact ⟨[], x, rfl, .nil, h⟩
  | cons t a ih =>
    cases h with
    | @cons g y _ _ hg hy =>
      obtain ⟨xa, xb, rfl, ha, hb⟩ := ih hy
      exact ⟨g ++ t.value.toList ++ xa, xb, by simp, .cons hg ha, hb⟩

theorem cons_inv (h : Laid x (t :: ts)) :
    ∃ g y, x = g ++ t.value.toList ++ y ∧ (∀ c ∈ g, isSpace c = true) ∧ Laid y ts := by
  cases h with
  | cons hg hy => exact ⟨_, _, rfl, hg, hy⟩

theorem nil_inv (h : Laid x []) : x = [] := by
  cases h
  rfl

/-- The text of a run of tokens is white space followed by the span of the tokens. -/
theorem spans (h : Laid x (t :: ts)) :
    ∃ g y, x = g ++ y ∧ (∀ c ∈ g, isSpace c = true) ∧ Spans y (t :: ts) := by
  obtain ⟨g, y, rfl, hg, hy⟩ := h.cons_inv
  exact ⟨g, t.value.toList ++ y, by simp, hg, y, rfl, hy⟩

end Laid

/-- A run of tokens the lexer gives is a piece of the text: white space, then the tokens' texts
with white space between neighbours, starting at the first token's position and ending where the
last token ends; the lexer goes on from there. -/
theorem Lexed.split {p : Nat} {cs : List Char} {ts : List Token} (h : Lexed p cs ts) :
    ∀ {toks rest : List Token}, ts = toks ++ rest → toks ≠ [] → (∀ t ∈ toks, t.kind ≠ .eof) →
      ∃ g sa more, cs = g ++ sa ++ more ∧ (∀ c ∈ g, isSpace c = true) ∧ Spans sa toks ∧
        (∀ t, toks.head? = some t → t.position = p + g.length) ∧
        (∀ t, toks.getLast? = some t → t.position + t.value.length = p + (g ++ sa).length) ∧
        Lexed (p + (g ++ sa).length) more rest := by
  induction h with
  | done p =>
    intro toks rest heq hne heof
    cases toks with
    | nil => exact absurd rfl hne
    | cons t toks =>
      simp only [List.cons_append, List.cons.injEq] at heq
      obtain ⟨rfl, -⟩ := heq
      exact absurd rfl (heof ⟨.eof, "", p⟩ (by simp))
  | @space p n cs ts htok _ ih =>
    -- the white space joins the gap before the run
    intro toks rest heq hne heof
    obtain ⟨g, sa, more, hcs, hg, hsa, hfirst, hlast, hlex⟩ := ih heq hne heof
    have hlen := length_take_of_tokenAt htok
    have htake : cs.take n = cs.takeWhile isSpace := by
      calc cs.take n = (cs.takeWhile isSpace ++ cs.dropWhile isSpace).take n := by
            rw [List.takeWhile_append_dropWhile]
        _ = cs.takeWhile isSpace := List.take_left' (tokenAt_space htok).symm
    refine ⟨cs.take n ++ g, sa, more, ?_, ?_, hsa, ?_, ?_, ?_⟩
    · calc cs = cs.take n ++ cs.drop n := (List.take_append_drop n cs).symm
        _ = _ := by rw [hcs]; simp
    · intro c hc
      rcases List.mem_append.1 hc with hc | hc
      · rw [htake] at hc
        exact Text.isSpace_of_mem_takeWhile hc
      · exact hg c hc
    · intro t ht
      rw [hfirst t ht, List.length_append, hlen]
      omega
    · intro t ht
      rw [hlast t ht]
      simp only [List.length_append, hlen]
      omega
    · have : p + (cs.take n ++ g ++ sa).length = p + n + (g ++ sa).length := by
        simp only [List.length_append, hlen]
        omega
      rw [this]
      exact hlex
  | @token p n k cs ts htok hlex ih =>
    intro toks rest heq hne heof
    cases toks with
    | nil => exact absurd rfl hne
    | cons t toks =>
      simp only [List.cons_append, List.cons.injEq] at heq
      obtain ⟨rfl, rfl⟩ := heq
      have hlen := length_take_of_tokenAt htok
      have hend : p + (cs.take n).length = p + n := by rw [hlen]
      by_cases hnil : toks = []
      · -- the run is this one token
        subst hnil
        refine ⟨[], cs.take n, cs.drop n, by simp, by simp, ⟨[], by simp, .nil⟩, ?_, ?_, ?_⟩
        · intro t ht
          simp only [List.head?_cons, Option.some.injEq] at ht
          subst ht
          simp
        · intro t ht
          simp only [List.getLast?_singleton, Option.some.injEq] at ht
          subst ht
          simp [hlen]
        · simpa [hlen] using hlex
      · -- the run goes on past this token
        obtain ⟨g, sa, more, hcs, hg, hsa, -, hlast, hlex'⟩ :=
          ih rfl hnil (fun t' ht' => heof t' (by simp [ht']))
        refine ⟨[], cs.take n ++ (g ++ sa), more, ?_, by simp, ?_, ?_, ?_, ?_⟩
        · calc cs = cs.take n ++ cs.drop n := (List.take_append_drop n cs).symm
            _ = _ := by rw [hcs]; simp
        · exact ⟨g ++ sa, by simp, hsa.laid hg⟩
        · intro t ht
          simp only [List.head?_cons, Option.some.injEq] at ht
          subst ht
          simp
        · intro t ht
          cases hl : toks.getLast? with
          | none => exact absurd (List.getLast?_eq_none_iff.1 hl) hnil
          | some u =>
            simp only [List.getLast?_cons, hl, Option.getD_some, Option.some.injEq] at ht
            subst ht
            rw [hlast u hl]
            simp only [List.length_append, List.nil_append, hlen]
            omega
        · have : p + ([] ++ (cs.take n ++ (g ++ sa))).length = p + n + (g ++ sa).length := by
            simp only [List.nil_append, List.length_append, hlen]
            omega
          rw [this]
          exact hlex'

end Token

end Branching
