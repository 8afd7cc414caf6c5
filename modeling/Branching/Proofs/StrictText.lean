import Branching.Proofs.StrictParser
import Branching.Proofs.OperandMarkup

/-!
# Printed chains read back in the strict grammar

A chain prints each operand as its markup, each operator and keyword as written, and single
spaces between them (`Chain.text`). Reading that text with the strict parser gives the chain back,
whenever the strict parser read the chain in the first place.

The proof follows the tokens. An operand the strict parser read prints as the texts of its tokens
laid end to end (`Token.joined`): its markup is the spanned text with the white space outside quotes
squeezed out, and the tokens' texts hold no such white space. The lexer reads those texts back as
the same tokens at new positions (`Token.retime`), since inside an operand each token is followed
by one that stops it where it stopped before (`Token.StopsOperand`). The grammar does not look at
positions, so the derivation carries over, and each printed operand reads since its squeezed text
does.

## Main statements

- `Token.scan_of_lexed`: the scan gives the tokens `Lexed` describes.
- `Token.lexed_operand`: the printed text of an operand lexes as its tokens, moved.
- `Strict.parse_text`: a chain the strict parser reads prints to a text it reads as that chain.
-/

namespace Branching

namespace Token

open Text Operand

/-! ### The token at the start of a printed text -/

theorem tokenAt_nil : tokenAt [] = none := by
  simp [tokenAt, comparisonLength, stringLength, numberLength, unsignedLength, identifierLength,
    spanName]

/-- The marks `[`, `]`, `(` and `)` are tokens of one character, whatever follows them. -/
theorem tokenAt_mark {c : Char} {k : TokenKind}
    (h : (c, k) ∈ [('[', .lbracket), (']', .rbracket), ('(', .lparen), (')', .rparen)])
    (w : List Char) : tokenAt (c :: w) = some (some k, 1) := by
  have hspace : isSpace '[' = false ∧ isSpace ']' = false ∧ isSpace '(' = false ∧
      isSpace ')' = false := by decide
  have hdigit : isDigit '[' = false ∧ isDigit ']' = false ∧ isDigit '(' = false ∧
      isDigit ')' = false := by decide +kernel
  have hname : isNameStart '[' = false ∧ isNameStart ']' = false ∧ isNameStart '(' = false ∧
      isNameStart ')' = false := by decide
  simp only [List.mem_cons, Prod.mk.injEq, List.not_mem_nil, or_false] at h
  rcases h with ⟨rfl, rfl⟩ | ⟨rfl, rfl⟩ | ⟨rfl, rfl⟩ | ⟨rfl, rfl⟩ <;>
    simp [tokenAt, comparisonLength, stringLength, numberLength, unsignedLength,
      identifierLength, spanName, hspace, hdigit, hname]

theorem tokenAt_dots (w : List Char) : tokenAt ('.' :: '.' :: w) = some (some .dotdot, 2) := by
  simp [tokenAt, comparisonLength, stringLength, numberLength, unsignedLength, identifierLength,
    spanName, show isSpace '.' = false by decide, show isDigit '.' = false by decide +kernel,
    show isNameStart '.' = false by decide]

/-- A point not followed by another is the token `.`. -/
theorem tokenAt_dot {w : List Char} (hw : w.head? ≠ some '.') :
    tokenAt ('.' :: w) = some (some .dot, 1) := by
  have hfacts : isSpace '.' = false ∧ isDigit '.' = false ∧ isNameStart '.' = false :=
    ⟨by decide, by decide +kernel, by decide⟩
  cases w with
  | nil =>
    simp [tokenAt, comparisonLength, stringLength, numberLength, unsignedLength, identifierLength,
      spanName, hfacts]
  | cons x w =>
    have hx : x ≠ '.' := fun h => hw (by rw [h]; rfl)
    simp [tokenAt, comparisonLength, stringLength, numberLength, unsignedLength, identifierLength,
      spanName, hfacts, hx]

/-- White space up to a character that is not. -/
theorem tokenAt_spaces {g w : List Char} (hg : ∀ c ∈ g, isSpace c = true) (hne : g ≠ [])
    (hw : ∀ c, w.head? = some c → isSpace c = false) : tokenAt (g ++ w) = some (none, g.length) := by
  have htake : (g ++ w).takeWhile isSpace = g := by
    rw [List.takeWhile_append_of_pos hg]
    cases w with
    | nil => simp
    | cons c w => simp [hw c rfl]
  have hpos : 0 < g.length := List.length_pos_iff.2 hne
  simp only [tokenAt, htake, hpos, if_true]

/-- A comparison followed by a space. -/
theorem tokenAt_comparison {v : String} (hv : v ∈ comparisonTexts) (w : List Char) :
    tokenAt (v.toList ++ ' ' :: w) = some (some .comparison, v.length) := by
  have hsp : isSpace '=' = false ∧ isSpace '!' = false ∧ isSpace '<' = false ∧
      isSpace '>' = false ∧ isSpace 'c' = false ∧ isWordChar ' ' = false := by decide
  simp only [comparisonTexts, List.mem_cons, List.not_mem_nil, or_false] at hv
  rcases hv with rfl | rfl | rfl | rfl | rfl | rfl | rfl <;>
    simp [tokenAt, comparisonLength, hsp] <;> rfl

/-- A quoted text, whatever follows it. -/
theorem tokenAt_string {v : List Char} (hv : IsQuoted v) (w : List Char) :
    tokenAt (v ++ w) = some (some .string, v.length) := by
  obtain ⟨q, inner, hq, hin, rfl⟩ := hv
  have htake : (inner ++ q :: w).takeWhile (· != q) = inner := by
    have hne : ∀ c ∈ inner, (c != q) = true := by
      intro c hc
      have : c ≠ q := fun h => hin (h ▸ hc)
      simpa using this
    rw [List.takeWhile_append_of_pos hne, List.takeWhile_cons_of_neg (by simp)]
    simp
  rcases hq with rfl | rfl <;>
    simp [tokenAt, comparisonLength, stringLength, htake,
      show isSpace '"' = false by decide, show isSpace '\'' = false by decide]

theorem comparisonLength_of_head {c : Char} (h : c ∉ ['=', '!', '<', '>', 'c']) (cs : List Char) :
    comparisonLength (c :: cs) = none := by
  simp only [List.mem_cons, List.not_mem_nil, or_false, not_or] at h
  obtain ⟨h1, h2, h3, h4, h5⟩ := h
  unfold comparisonLength
  split <;> simp_all


/-- What may follow a printed operand: nothing, white space, a closing bracket or parenthesis,
or the `..` of a range. -/
def StopsOperand (w : List Char) : Prop :=
  ∀ c r, w = c :: r → isSpace c = true ∨ c = ']' ∨ c = ')' ∨ (c = '.' ∧ r.head? = some '.')

namespace StopsOperand

variable {w : List Char}

theorem head (h : StopsOperand w) :
    ∀ c, w.head? = some c → isNameChar c = false ∧ c ≠ '?' ∧ isDigit c = false := by
  intro c hc
  obtain ⟨r, rfl⟩ : ∃ r, w = c :: r := by
    cases w with
    | nil => cases hc
    | cons x r => simp only [List.head?_cons, Option.some.injEq] at hc; exact ⟨r, by rw [hc]⟩
  rcases h c r rfl with hs | rfl | rfl | ⟨rfl, -⟩
  · exact ⟨isNameChar_of_isSpace hs, (ne_of_isSpace hs).2.2.2.2.2.2.2.2, isDigit_of_isSpace hs⟩
  all_goals exact ⟨by decide, by decide, by decide +kernel⟩

theorem stopsName (h : StopsOperand w) : StopsName w := fun c hc =>
  ⟨(h.head c hc).1, (h.head c hc).2.1⟩

theorem takeWhile_isDigit (h : StopsOperand w) : w.takeWhile isDigit = [] := by
  cases w with
  | nil => rfl
  | cons c r => simp [(h.head c rfl).2.2]

theorem dropWhile_isDigit (h : StopsOperand w) : w.dropWhile isDigit = w := by
  cases w with
  | nil => rfl
  | cons c r => simp [(h.head c rfl).2.2]

theorem noWordAhead (h : StopsOperand w) : noWordAhead w = true := by
  cases w with
  | nil => rfl
  | cons c r =>
    have hc := (h.head c rfl).1
    simp only [isNameChar, Bool.or_eq_false_iff] at hc
    simp [Token.noWordAhead, hc.1]

end StopsOperand

/-- Digits and an optional fraction, before a text an operand may stop at. -/
theorem unsignedLength_numeral {whole fraction w : List Char} (hne : whole ≠ [])
    (hwhole : ∀ d ∈ whole, isDigit d = true)
    (hfrac : fraction = [] ∨ ∃ ds, fraction = '.' :: ds ∧ ds ≠ [] ∧ ∀ d ∈ ds, isDigit d = true)
    (hw : StopsOperand w) :
    unsignedLength (whole ++ fraction ++ w) = some (whole ++ fraction).length := by
  obtain ⟨d, ds, rfl⟩ := List.exists_cons_of_ne_nil hne
  have hd : isDigit d = true := hwhole d (by simp)
  have hds : ∀ x ∈ ds, isDigit x = true := fun x hx => hwhole x (by simp [hx])
  have hpoint : isDigit '.' = false := by decide +kernel
  rcases hfrac with rfl | ⟨fs, rfl, hfs, hdig⟩
  · -- digits alone: the text after them starts no fraction
    simp only [List.append_nil, List.cons_append, unsignedLength, hd, if_true,
      List.dropWhile_append_of_pos hds, List.takeWhile_append_of_pos hds, hw.dropWhile_isDigit,
      hw.takeWhile_isDigit, List.length_cons]
    split
    · -- a point right after the digits is the first of the two of a range
      rename_i tail
      have htail : tail.takeWhile isDigit = [] := by
        rcases hw '.' tail rfl with hs | h | h | ⟨-, hr⟩
        · exact absurd hs (by decide)
        · cases h
        · cases h
        · cases tail with
          | nil => cases hr
          | cons c r =>
            simp only [List.head?_cons, Option.some.injEq] at hr
            simp [hr, hpoint]
      simp [htail]
    · rw [if_pos hw.noWordAhead]
  · -- digits, a point and digits
    simp only [List.cons_append, List.append_assoc, unsignedLength, hd, if_true,
      List.dropWhile_append_of_pos hds, List.takeWhile_append_of_pos hds,
      List.dropWhile_cons_of_neg (by simp [hpoint] : ¬ isDigit '.' = true),
      List.takeWhile_cons_of_neg (by simp [hpoint] : ¬ isDigit '.' = true),
      List.dropWhile_append_of_pos hdig, List.takeWhile_append_of_pos hdig,
      hw.dropWhile_isDigit, hw.takeWhile_isDigit, hw.noWordAhead]
    simp [hfs]
    omega


theorem comparisonLength_name {c : Char} {cs : List Char} {n : Nat} (hc : isNameStart c = true)
    (h : comparisonLength (c :: cs) = some n) :
    ∃ r, c :: cs = "contains".toList ++ r ∧ StopsName r := by
  unfold comparisonLength at h
  split at h
  case h_7 rest heq =>
    -- the word `contains`, not followed by a name character
    refine ⟨rest, by rw [heq]; rfl, fun x hx => ?_⟩
    cases rest with
    | nil => cases hx
    | cons y tail =>
      simp only [List.head?_cons, Option.some.injEq] at hx
      subst hx
      have hy : ¬ (isWordChar y || y == '?' || y == '-') = true := by
        intro hy
        simp [hy] at h
      simp only [Bool.or_eq_true, beq_iff_eq, not_or] at hy
      exact ⟨by simp [isNameChar, hy.1, hy.2], hy.1.2⟩
  case h_8 => cases h
  all_goals
    rename_i heq
    simp only [List.cons.injEq] at heq
    rw [heq.1] at hc
    exact absurd hc (by decide)

/-- A digit is none of the characters that start another kind of token. -/
theorem of_isDigit_head {d : Char} (hd : isDigit d = true) :
    d ∉ ['=', '!', '<', '>', 'c'] ∧ d ≠ '"' ∧ d ≠ '\'' ∧ d ≠ '-' ∧ isSpace d = false := by
  have hcmp : ∀ x ∈ ['=', '!', '<', '>', 'c'], isDigit x = false :=
    Text.forall_mem_of_all (by decide)
  have hmarks : isDigit '"' = false ∧ isDigit '\'' = false ∧ isDigit '-' = false := by
    decide +kernel
  refine ⟨fun hm => ?_, ?_, ?_, ?_, (Operand.of_isDigit hd).1⟩
  · rw [hcmp d hm] at hd
    cases hd
  all_goals
    rintro rfl
    simp [hmarks] at hd

/-- A numeral, before a text an operand may stop at. -/
theorem tokenAt_number {v w : List Char} (hv : IsNumeral v) (hw : StopsOperand w) :
    tokenAt (v ++ w) = some (some .number, v.length) := by
  obtain ⟨sign, whole, fraction, rfl, hsign, hne, hwhole, hfrac⟩ := hv
  have hnum := unsignedLength_numeral hne hwhole hfrac hw
  obtain ⟨d, ds, rfl⟩ := List.exists_cons_of_ne_nil hne
  rcases hsign with rfl | rfl
  · obtain ⟨hcmp, hq1, hq2, hminus, hspace⟩ := of_isDigit_head (hwhole d (by simp))
    simp only [List.nil_append, List.cons_append, List.append_assoc] at hnum ⊢
    simp [tokenAt, comparisonLength_of_head hcmp, stringLength, numberLength, hnum, hspace, hq1,
      hq2, hminus]
  · simp only [List.cons_append, List.nil_append, List.append_assoc] at hnum ⊢
    simp [tokenAt, comparisonLength_of_head (c := '-') (by decide), stringLength, numberLength,
      hnum, show isSpace '-' = false by decide]

/-- A name other than `contains`, before a text a name may stop at. -/
theorem tokenAt_name {v w : List Char} (hv : IsName v) (hc : v ≠ "contains".toList)
    (hw : StopsName w) : tokenAt (v ++ w) = some (some .identifier, v.length) := by
  obtain ⟨c, x, hx⟩ : ∃ c x, v ++ w = c :: x ∧ isNameStart c = true := by
    obtain ⟨c, body, hcs, -, hv' | hv'⟩ := id hv
    · exact ⟨c, body ++ w, by rw [hv']; rfl, hcs⟩
    · exact ⟨c, body ++ '?' :: w, by rw [hv']; simp, hcs⟩
  obtain ⟨-, hdigit, hspace, hq1, hq2, hminus, -⟩ := of_isNameStart hx.2
  -- were the name read as the comparison `contains`, it would be that word
  have hcmp : comparisonLength (c :: x) = none := by
    cases h : comparisonLength (c :: x) with
    | none => rfl
    | some n =>
      obtain ⟨r, hr, hstop⟩ := comparisonLength_name hx.2 h
      have hcontains : IsName "contains".toList :=
        ⟨'c', "ontains".toList, rfl, Text.forall_mem_of_all (by decide), .inl rfl⟩
      have hspan := spanName_append hv hw
      rw [hx.1, hr, spanName_append hcontains hstop] at hspan
      simp only [Option.some.injEq, Prod.mk.injEq] at hspan
      exact absurd hspan.1.symm hc
  have hid : identifierLength (c :: x) = some v.length := by
    rw [identifierLength, ← hx.1, spanName_append hv hw]
    rfl
  rw [hx.1]
  simp [tokenAt, hcmp, stringLength, numberLength, unsignedLength, hid, hspace, hq1, hq2, hminus,
    hdigit]

/-! ### Scanning -/

/-- The scan from a position reads the tokens `Lexed` gives there. -/
theorem scanFrom_of_lexed {markup : String} {p : Nat} {cs : List Char} {ts : List Token}
    (h : Lexed p cs ts) (done : List Token) :
    scanFrom markup p cs done = .ok (done.reverse ++ ts) := by
  induction h generalizing done with
  | done p => rw [scanFrom]
  | @space p n cs ts htok _ ih =>
    cases cs with
    | nil => rw [tokenAt_nil] at htok; cases htok
    | cons c rest =>
      rw [scanFrom]
      split
      · rename_i h
        rw [htok] at h
        cases h
      · rename_i kind m _ h
        rw [htok] at h
        cases h
        exact ih done
  | @token p n k cs ts htok _ ih =>
    cases cs with
    | nil => rw [tokenAt_nil] at htok; cases htok
    | cons c rest =>
      rw [scanFrom]
      split
      · rename_i h
        rw [htok] at h
        cases h
      · rename_i kind m _ h
        rw [htok] at h
        cases h
        simpa using ih (⟨k, String.ofList ((c :: rest).take n), p⟩ :: done)

theorem scan_of_lexed {markup : String} {ts : List Token} (h : Lexed 0 markup.toList ts) :
    scan markup = .ok ts := by
  rw [scan]
  simpa using scanFrom_of_lexed h []


/-! ### Tokens laid end to end -/

/-- The texts of tokens laid end to end. -/
def joined (ts : List Token) : List Char := ts.flatMap fun t => t.value.toList

@[simp] theorem joined_nil : joined [] = [] := rfl

@[simp] theorem joined_cons (t : Token) (ts : List Token) :
    joined (t :: ts) = t.value.toList ++ joined ts := rfl

@[simp] theorem joined_append (a b : List Token) : joined (a ++ b) = joined a ++ joined b := by
  simp [joined]

/-- Tokens of the kinds and texts of `ts`, laid end to end from position `p`. -/
def retime : Nat → List Token → List Token
  | _, [] => []
  | p, t :: ts => ⟨t.kind, t.value, p⟩ :: retime (p + t.value.length) ts

@[simp] theorem retime_nil (p : Nat) : retime p [] = [] := rfl

@[simp] theorem retime_cons (p : Nat) (t : Token) (ts : List Token) :
    retime p (t :: ts) = ⟨t.kind, t.value, p⟩ :: retime (p + t.value.length) ts := rfl

theorem retime_append (p : Nat) (a b : List Token) :
    retime p (a ++ b) = retime p a ++ retime (p + (joined a).length) b := by
  induction a generalizing p with
  | nil => simp
  | cons t a ih =>
    simp only [List.cons_append, retime_cons, ih, joined_cons, List.length_append,
      String.length_toList, Nat.add_assoc]

/-- The last of the moved tokens ends where their texts end. -/
theorem retime_getLast? (p : Nat) (ts : List Token) :
    ∀ u, (retime p ts).getLast? = some u → u.position + u.value.length = p + (joined ts).length := by
  induction ts generalizing p with
  | nil => simp
  | cons t ts ih =>
    intro u hu
    cases ts with
    | nil =>
      simp only [retime_cons, retime_nil, List.getLast?_singleton, Option.some.injEq] at hu
      subst hu
      simp only [joined_cons, joined_nil, List.append_nil, String.length_toList]
    | cons t' ts' =>
      have hu' : (retime (p + t.value.length) (t' :: ts')).getLast? = some u := by
        simpa [List.getLast?_cons] using hu
      rw [ih _ u hu']
      simp only [joined_cons, List.length_append, String.length_toList]
      omega

/-- The text moved tokens span in a header holding their texts from their first position. -/
theorem span_retime {markup : String} {p : Nat} {ts : List Token} {rest : List Char}
    (hne : ts ≠ []) (hp : markup.toList.drop p = joined ts ++ rest) :
    span markup (retime p ts) = joined ts := by
  obtain ⟨t, ts', rfl⟩ := List.exists_cons_of_ne_nil hne
  obtain ⟨u, hu⟩ : ∃ u, (retime p (t :: ts')).getLast? = some u := by
    cases h : (retime p (t :: ts')).getLast? with
    | none => simp at h
    | some u => exact ⟨u, rfl⟩
  have hhead : (retime p (t :: ts')).head? = some ⟨t.kind, t.value, p⟩ := rfl
  rw [span_eq hhead hu, retime_getLast? p _ u hu, hp, Nat.add_sub_cancel_left, List.take_left]

/-! ### The printed text of an operand -/

theorem squeezeFrom_of_solid {v : List Char} (hv : ∀ c ∈ v, isSpace c = false) (q : Option Char) :
    squeezeFrom q v = v := by
  induction v generalizing q with
  | nil => cases q <;> rfl
  | cons c v ih =>
    have hc : isSpace c = false := hv c (by simp)
    have hv' : ∀ x ∈ v, isSpace x = false := fun x hx => hv x (by simp [hx])
    cases q with
    | none => simp [squeezeFrom, hc, ih hv']
    | some q => simp [squeezeFrom, ih hv']

/-- A token's text has no white space outside quotes, and closes every quote it opens. -/
theorem Shaped.squeeze_value {t : Token} (h : Shaped t) (hk : t.InOperand) :
    squeeze t.value.toList = t.value.toList ∧ t.value.toList.foldl quoteStep none = none := by
  refine ⟨?_, ?_⟩
  · by_cases hs : t.kind = .string
    · obtain ⟨q, inner, hq, hin, hv⟩ := h.quoted hs
      rw [hv]
      exact squeeze_quoted hq hin
    by_cases hd : t.IsDots
    · have hv : t.value.toList = ['.'] ∨ t.value.toList = ['.', '.'] := by
        rcases hd with hd | hd
        · exact .inl (h.value_of_kind.1 hd)
        · exact .inr (h.value_of_kind.2.1 hd)
      rcases hv with hv | hv <;> rw [hv] <;>
        exact squeezeFrom_of_solid (Text.forall_mem_of_all (by decide)) none
    · exact squeezeFrom_of_solid (h.solid hk hs hd).1 none
  · rw [← nesting_fst none 0, h.nesting_value hk 0]

/-- Squeezing the text of a run of tokens leaves their texts end to end. -/
theorem squeeze_laid {x : List Char} {ts : List Token} (h : Laid x ts)
    (hsh : ∀ t ∈ ts, Shaped t ∧ t.InOperand) : squeeze x = joined ts := by
  induction h with
  | nil => rfl
  | @cons g cs t ts hg _ ih =>
    obtain ⟨hsq, hq⟩ := (hsh t (by simp)).1.squeeze_value (hsh t (by simp)).2
    have hsq' : squeeze (t.value.toList ++ cs) = t.value.toList ++ squeeze cs := by
      rw [squeeze, squeezeFrom_append, hq, ← squeeze, hsq]
      rfl
    rw [List.append_assoc, squeeze_spaces hg, hsq', ih fun u hu => hsh u (by simp [hu]), joined_cons]

/-- An operand the strict parser reads from the text its tokens span prints as their texts end to
end, and that text reads as the same operand. -/
theorem markup_of_spans {toks : List Token} {o o' : Operand} {y : List Char}
    (h : OperandToks toks o) (hsh : ∀ t ∈ toks, Shaped t) (hy : Spans y toks)
    (hp : parseChars y = .ok o') : o' = o ∧ o.markup.toList = joined toks ∧
      parseChars (joined toks) = .ok o := by
  have heq := parseChars_of_operandToks h hsh hy hp
  subst heq
  have hin := (closed_of_operandToks h).1.inOperand
  have hlaid : Laid y toks := by
    obtain ⟨t, ts, rfl⟩ := (closed_of_operandToks h).2.imp fun _ h => h.imp fun _ h => h.1
    simpa using hy.laid (g := []) (by simp)
  have hsq : squeeze y = joined toks := squeeze_laid hlaid fun t ht => ⟨hsh t ht, hin t ht⟩
  refine ⟨rfl, by rw [markup_of_parseChars hp, hsq], ?_⟩
  rw [← hsq]
  exact parseChars_squeeze hp

/-! ### Lexing the printed text of an operand -/

/-- A token whose text the lexer reads as it is. -/
theorem Lexed.cons_value {p : Nat} {t : Token} {w : List Char} {ts : List Token}
    (htok : tokenAt (t.value.toList ++ w) = some (some t.kind, t.value.length))
    (h : Lexed (p + t.value.length) w ts) :
    Lexed p (t.value.toList ++ w) (⟨t.kind, t.value, p⟩ :: ts) := by
  have hlen : t.value.length = t.value.toList.length := String.length_toList.symm
  have hlex := Lexed.token (p := p) htok (by rw [hlen, List.drop_left]; rwa [← hlen])
  rwa [hlen, List.take_left, String.ofList_toList] at hlex

theorem Lexed.congr_pos {p q : Nat} {w : List Char} {ts : List Token} (h : Lexed q w ts)
    (hq : q = p) : Lexed p w ts :=
  hq ▸ h

/-- A mark token (`[, `]`, `(`, `)`) read at the start of any text. -/
theorem tokenAt_markValue {t : Token} (h : Shaped t)
    (hk : t.kind = .lbracket ∨ t.kind = .rbracket ∨ t.kind = .lparen ∨ t.kind = .rparen)
    (w : List Char) : tokenAt (t.value.toList ++ w) = some (some t.kind, t.value.length) := by
  have hv := h.value_of_kind
  rw [← String.length_toList]
  rcases hk with hk | hk | hk | hk
  · rw [hv.2.2.1 hk, hk]
    exact tokenAt_mark (by simp) w
  · rw [hv.2.2.2.1 hk, hk]
    exact tokenAt_mark (by simp) w
  · rw [hv.2.2.2.2.1 hk, hk]
    exact tokenAt_mark (by simp) w
  · rw [hv.2.2.2.2.2 hk, hk]
    exact tokenAt_mark (by simp) w

/-- A name token read before a text a name may stop at. -/
theorem tokenAt_nameValue {t : Token} (h : Shaped t) (hk : t.kind = .identifier) {w : List Char}
    (hw : StopsName w) : tokenAt (t.value.toList ++ w) = some (some t.kind, t.value.length) := by
  have hne : t.value.toList ≠ "contains".toList := by
    intro heq
    unfold Shaped at h
    simp only [hk] at h
    exact h.2 (by rw [← String.ofList_toList (s := t.value), heq, String.ofList_toList])
  rw [hk, ← String.length_toList]
  exact tokenAt_name (h.name hk) hne hw

/-- After lookups, a name stops where it stopped before them. -/
theorem stopsName_lookups {us : List Token} {ks : List Key} (h : LookupToks us ks)
    (hsh : ∀ t ∈ us, Shaped t) {w : List Char} (hw : StopsOperand w) :
    StopsName (joined us ++ w) := by
  cases h with
  | nil => exact hw.stopsName
  | @name d t vs ks hd _ _ =>
    rw [joined_cons, (hsh d (by simp)).value_of_kind.1 hd]
    intro x hx
    simp only [List.cons_append, List.nil_append, List.head?_cons, Option.some.injEq] at hx
    subst hx
    exact ⟨by decide, by decide⟩
  | @index l r inner vs o ks hl _ _ _ =>
    rw [List.cons_append, joined_cons, (hsh l (by simp)).value_of_kind.2.2.1 hl]
    intro x hx
    simp only [List.cons_append, List.nil_append, List.head?_cons, Option.some.injEq] at hx
    subst hx
    exact ⟨by decide, by decide⟩

theorem stopsOperand_cons {c : Char} (hc : c = ']' ∨ c = ')') (w : List Char) :
    StopsOperand (c :: w) := by
  intro x r hx
  simp only [List.cons.injEq] at hx
  obtain ⟨rfl, -⟩ := hx
  rcases hc with rfl | rfl
  · exact .inr (.inl rfl)
  · exact .inr (.inr (.inl rfl))

mutual

/-- The texts of an operand's tokens, end to end, lex as the same tokens laid from `p`, as long as
what follows may follow an operand. -/
theorem lexed_operand {toks : List Token} {o : Operand} (h : OperandToks toks o)
    (hsh : ∀ t ∈ toks, Shaped t) {p q : Nat} {w : List Char} {ts : List Token}
    (hw : StopsOperand w) (hq : q = p + (joined toks).length) (hlex : Lexed q w ts) :
    Lexed p (joined toks ++ w) (retime p toks ++ ts) := by
  match h with
  | @OperandToks.name t us ks hk _ hl =>
    have hsh' : ∀ u ∈ us, Shaped u := fun u hu => hsh u (by simp [hu])
    simp only [joined_cons, retime_cons, List.append_assoc, List.cons_append]
    refine Lexed.cons_value (tokenAt_nameValue (hsh t (by simp)) hk (stopsName_lookups hl hsh' hw))
      (lexed_lookups hl hsh' hw ?_ hlex)
    simp only [hq, joined_cons, List.length_append, String.length_toList]
    omega
  | @OperandToks.index l r inner us o ks hl hin hr hts =>
    have hshl : Shaped l := hsh l (by simp)
    have hshr : Shaped r := hsh r (by simp)
    have hrv : r.value.toList = [']'] := hshr.value_of_kind.2.2.2.1 hr
    simp only [List.cons_append, joined_cons, joined_append, retime_cons, retime_append,
      List.append_assoc]
    refine Lexed.cons_value (tokenAt_markValue hshl (.inl hl) _)
      (lexed_operand hin (fun u hu => hsh u (by simp [hu])) ?_ rfl
        (Lexed.cons_value (tokenAt_markValue hshr (.inr (.inl hr)) _)
          (lexed_lookups hts (fun u hu => hsh u (by simp [hu])) hw ?_ hlex)))
    · rw [hrv]
      exact stopsOperand_cons (.inl rfl) _
    · simp only [hq, joined_cons, joined_append, List.length_append, String.length_toList]
      omega
  | @OperandToks.string t hk =>
    simp only [joined_cons, joined_nil, List.append_nil, retime_cons, retime_nil, List.nil_append,
      List.cons_append]
    refine Lexed.cons_value ?_ (Lexed.congr_pos hlex (by simp [hq, String.length_toList]))
    rw [hk, ← String.length_toList]
    exact tokenAt_string ((hsh t (by simp)).quoted hk) w
  | @OperandToks.number t hk =>
    simp only [joined_cons, joined_nil, List.append_nil, retime_cons, retime_nil, List.nil_append,
      List.cons_append]
    refine Lexed.cons_value ?_ (Lexed.congr_pos hlex (by simp [hq, String.length_toList]))
    rw [hk, ← String.length_toList]
    exact tokenAt_number ((hsh t (by simp)).numeral hk) hw
  | @OperandToks.range l d r a b oa ob hl ha hd hb hr =>
    have hshd : Shaped d := hsh d (by simp)
    have hshr : Shaped r := hsh r (by simp)
    have hdv : d.value.toList = ['.', '.'] := hshd.value_of_kind.2.1 hd
    have hrv : r.value.toList = [')'] := hshr.value_of_kind.2.2.2.2.2 hr
    have htokd : ∀ w, tokenAt (d.value.toList ++ w) = some (some d.kind, d.value.length) := by
      intro w
      rw [← String.length_toList, hdv, hd]
      exact tokenAt_dots w
    simp only [List.cons_append, joined_cons, joined_append, joined_nil, retime_cons,
      retime_append, retime_nil, List.append_assoc, List.nil_append, List.append_nil]
    refine Lexed.cons_value (tokenAt_markValue (hsh l (by simp)) (.inr (.inr (.inl hl))) _)
      (lexed_operand ha (fun u hu => hsh u (by simp [hu])) ?_ rfl
        (Lexed.cons_value (htokd _)
          (lexed_operand hb (fun u hu => hsh u (by simp [hu])) ?_ rfl
            (Lexed.cons_value (tokenAt_markValue hshr (.inr (.inr (.inr hr))) _) ?_))))
    · -- the first end stops at the `..`
      intro x y hxy
      rw [hdv] at hxy
      simp only [List.cons_append, List.cons.injEq] at hxy
      obtain ⟨rfl, rfl⟩ := hxy
      exact .inr (.inr (.inr ⟨rfl, rfl⟩))
    · rw [hrv]
      exact stopsOperand_cons (.inr rfl) _
    · refine Lexed.congr_pos hlex ?_
      simp only [hq, joined_cons, joined_append, joined_nil, List.length_append,
        String.length_toList, List.length_nil]
      omega

/-- The texts of lookup tokens, end to end, lex as the same tokens laid from `p`. -/
theorem lexed_lookups {us : List Token} {ks : List Key} (h : LookupToks us ks)
    (hsh : ∀ t ∈ us, Shaped t) {p q : Nat} {w : List Char} {ts : List Token}
    (hw : StopsOperand w) (hq : q = p + (joined us).length) (hlex : Lexed q w ts) :
    Lexed p (joined us ++ w) (retime p us ++ ts) := by
  match h with
  | LookupToks.nil =>
    simp only [joined_nil, List.length_nil, Nat.add_zero] at hq
    subst hq
    exact hlex
  | @LookupToks.name d t vs ks hd ht hl =>
    have hshd : Shaped d := hsh d (by simp)
    have hsht : Shaped t := hsh t (by simp)
    have hsh' : ∀ u ∈ vs, Shaped u := fun u hu => hsh u (by simp [hu])
    have hname := hsht.name ht
    simp only [joined_cons, retime_cons, List.append_assoc, List.cons_append]
    -- the point is followed by the name, which starts with no point
    have htokd : tokenAt (d.value.toList ++ (t.value.toList ++ (joined vs ++ w))) =
        some (some d.kind, d.value.length) := by
      obtain ⟨c, body, hc, -, hv⟩ := hname
      have hc' : c ≠ '.' := (of_isNameStart hc).2.2.2.2.2.2.1
      rw [← String.length_toList, hshd.value_of_kind.1 hd, hd]
      refine tokenAt_dot ?_
      rcases hv with hv | hv <;> simp [hv, hc']
    refine Lexed.cons_value htokd
      (Lexed.cons_value (tokenAt_nameValue hsht ht (stopsName_lookups hl hsh' hw))
        (lexed_lookups hl hsh' hw ?_ hlex))
    simp only [hq, joined_cons, List.length_append, String.length_toList]
    omega
  | @LookupToks.index l r inner vs o ks hl hin hr hts =>
    have hshl : Shaped l := hsh l (by simp)
    have hshr : Shaped r := hsh r (by simp)
    have hrv : r.value.toList = [']'] := hshr.value_of_kind.2.2.2.1 hr
    simp only [List.cons_append, joined_cons, joined_append, retime_cons, retime_append,
      List.append_assoc]
    refine Lexed.cons_value (tokenAt_markValue hshl (.inl hl) _)
      (lexed_operand hin (fun u hu => hsh u (by simp [hu])) ?_ rfl
        (Lexed.cons_value (tokenAt_markValue hshr (.inr (.inl hr)) _)
          (lexed_lookups hts (fun u hu => hsh u (by simp [hu])) hw ?_ hlex)))
    · rw [hrv]
      exact stopsOperand_cons (.inl rfl) _
    · simp only [hq, joined_cons, joined_append, List.length_append, String.length_toList]
      omega

end

mutual

/-- A derivation does not look at positions. -/
theorem operandToks_retime {toks : List Token} {o : Operand} (h : OperandToks toks o) (p : Nat) :
    OperandToks (retime p toks) o := by
  match h with
  | @OperandToks.name t us ks hk hkw hl =>
    exact .name (t := ⟨t.kind, t.value, p⟩) hk hkw (lookupToks_retime hl _)
  | @OperandToks.index l r inner us o ks hl hin hr hts =>
    rw [List.cons_append, retime_cons, retime_append, retime_cons]
    exact .index hl (operandToks_retime hin _) hr (lookupToks_retime hts _)
  | @OperandToks.string t hk => exact .string (t := ⟨t.kind, t.value, p⟩) hk
  | @OperandToks.number t hk => exact .number (t := ⟨t.kind, t.value, p⟩) hk
  | @OperandToks.range l d r a b oa ob hl ha hd hb hr =>
    rw [List.append_assoc, List.cons_append, retime_cons, retime_append, List.cons_append,
      retime_cons, retime_append, retime_cons, retime_nil]
    -- the positions the moved `..` and `)` take
    obtain ⟨pd, hpd⟩ : ∃ pd, pd = p + l.value.length + (joined a).length := ⟨_, rfl⟩
    obtain ⟨pr, hpr⟩ : ∃ pr, pr = pd + d.value.length + (joined b).length := ⟨_, rfl⟩
    rw [← hpd, ← hpr]
    simpa using OperandToks.range (l := ⟨l.kind, l.value, p⟩) (d := ⟨d.kind, d.value, pd⟩)
      (r := ⟨r.kind, r.value, pr⟩) hl (operandToks_retime ha _) hd (operandToks_retime hb _) hr

theorem lookupToks_retime {us : List Token} {ks : List Key} (h : LookupToks us ks) (p : Nat) :
    LookupToks (retime p us) ks := by
  match h with
  | LookupToks.nil => exact .nil
  | @LookupToks.name d t vs ks hd ht hl =>
    exact .name (t := ⟨t.kind, t.value, _⟩) hd ht (lookupToks_retime hl _)
  | @LookupToks.index l r inner vs o ks hl hin hr hts =>
    rw [List.cons_append, retime_cons, retime_append, retime_cons]
    exact .index hl (operandToks_retime hin _) hr (lookupToks_retime hts _)

end

/-- The texts of a run of tokens, end to end, lay the tokens out with no white space. -/
theorem laid_joined (ts : List Token) : Laid (joined ts) ts := by
  induction ts with
  | nil => exact .nil
  | cons t ts ih => simpa using Laid.cons (g := []) (by simp) ih

/-- An operand's tokens whose texts, end to end, read as an operand. -/
def ReadsJoined (toks : List Token) : Prop := ∃ o, parseChars (joined toks) = .ok o

/-- When the texts of an operand's tokens read, the operand prints as those texts and reads from
them. -/
theorem markup_of_readsJoined {toks : List Token} {o : Operand} (h : OperandToks toks o)
    (hsh : ∀ t ∈ toks, Shaped t) (hr : ReadsJoined toks) :
    o.markup.toList = joined toks ∧ parseChars (joined toks) = .ok o := by
  obtain ⟨o', hp⟩ := hr
  obtain ⟨t, ts, rfl, -⟩ := (closed_of_operandToks h).2
  have hy : Spans (joined (t :: ts)) (t :: ts) := ⟨joined ts, rfl, laid_joined ts⟩
  obtain ⟨-, hm, hp'⟩ := markup_of_spans h hsh hy hp
  exact ⟨hm, hp'⟩

/-- The text of an operand the strict parser reads from the header: its tokens' texts end to end
read as well. -/
theorem readsJoined_of_reads {markup : String} {toks rest : List Token} {o : Operand}
    (h : OperandToks toks o) (hs : Scanned markup (toks ++ rest)) (hr : Reads markup toks) :
    ReadsJoined toks ∧ Scanned markup rest := by
  have hc := closed_of_operandToks h
  obtain ⟨t, ts, hts, -⟩ := hc.2
  have hne : toks ≠ [] := by rw [hts]; simp
  obtain ⟨hy, hrest⟩ := hs.split hne fun u hu => (hc.1.inOperand u hu).2
  obtain ⟨o', hp⟩ := hr
  have hsh : ∀ u ∈ toks, Shaped u := fun u hu => hs.shaped u (by simp [hu])
  exact ⟨⟨o, (markup_of_spans h hsh hy hp).2.2⟩, hrest⟩

/-- One token that is not the end, taken off a run of scanned tokens. -/
theorem Scanned.tail {markup : String} {t : Token} {rest : List Token}
    (h : Scanned markup (t :: rest)) (ht : t.kind ≠ .eof) : Scanned markup rest := by
  have h' : Scanned markup ([t] ++ rest) := h
  exact (h'.split (by simp) (by simpa using ht)).2

/-- The operands of a link the strict parser reads print as their tokens' texts. -/
theorem linkToks_joined {markup : String} {toks rest : List Token} {l : Link}
    (h : LinkToks (Reads markup) toks l) (hs : Scanned markup (toks ++ rest)) :
    LinkToks ReadsJoined toks l ∧ Scanned markup rest := by
  cases h with
  | single hder hr =>
    obtain ⟨hj, hrest⟩ := readsJoined_of_reads hder hs hr
    exact ⟨.single hder hj, hrest⟩
  | compare hder hr hk hder2 hr2 =>
    rw [List.append_assoc, List.cons_append] at hs
    obtain ⟨hj, hs1⟩ := readsJoined_of_reads hder hs hr
    obtain ⟨hj2, hrest⟩ := readsJoined_of_reads hder2 (hs1.tail (by rw [hk]; decide)) hr2
    exact ⟨.compare hder hj hk hder2 hj2, hrest⟩

theorem linksToks_joined {markup : String} {ts : List Token} {rest : List (Combinator × Link)}
    (h : LinksToks (Reads markup) ts rest) (hs : Scanned markup ts) :
    LinksToks ReadsJoined ts rest := by
  induction h with
  | done he => exact .done he
  | more hk hkw hlink _ ih =>
    rw [List.cons_append] at hs
    obtain ⟨hlink', hrest⟩ := linkToks_joined hlink (hs.tail (by rw [hk]; decide))
    exact .more hk hkw hlink' (ih hrest)

end Token

namespace Link

theorem text_compare (o : Operand) (op : String) (r : Operand) :
    (⟨o, some (op, r)⟩ : Link).text.toList =
      o.markup.toList ++ ' ' :: op.toList ++ ' ' :: r.markup.toList := by
  simp [text]

end Link

namespace Chain

/-- The text of the links after the first, each after its keyword. -/
def restText (rest : List (Combinator × Link)) : List Char :=
  rest.flatMap fun p => ' ' :: p.1.keyword.toList ++ ' ' :: p.2.text.toList

@[simp] theorem restText_nil : restText [] = [] := rfl

theorem restText_cons (k : Combinator) (l : Link) (rest : List (Combinator × Link)) :
    restText ((k, l) :: rest) = ' ' :: k.keyword.toList ++ ' ' :: l.text.toList ++ restText rest := by
  simp [restText]

/-- The text after the first link is empty or starts with a space. -/
theorem restText_shape (rest : List (Combinator × Link)) :
    restText rest = [] ∨ ∃ r, restText rest = ' ' :: r := by
  match rest with
  | [] => exact .inl rfl
  | (k, l) :: rest => exact .inr ⟨_, by rw [restText_cons]; rfl⟩

theorem text_toList (c : Chain) : c.text.toList = c.head.text.toList ++ restText c.rest := by
  -- the fold adds one keyword and link at a time
  have hfold : ∀ (rest : List (Combinator × Link)) (acc : String),
      (rest.foldl (fun acc p => acc ++ " " ++ p.1.keyword ++ " " ++ p.2.text) acc).toList =
        acc.toList ++ restText rest := by
    intro rest
    induction rest with
    | nil => simp
    | cons p rest ih =>
      intro acc
      rw [List.foldl_cons, ih, restText_cons]
      simp
  exact hfold c.rest c.head.text

end Chain

namespace Strict

open Token Text Operand

/-! ### Lexing and reading a printed chain -/

/-- A single space before a text that starts with no white space. -/
theorem Lexed.space_one {p : Nat} {x : List Char} {ts : List Token}
    (hx : ∀ c, x.head? = some c → isSpace c = false) (h : Lexed (p + 1) x ts) :
    Lexed p (' ' :: x) ts :=
  Lexed.space (tokenAt_spaces (g := [' ']) (Text.forall_mem_of_all (by decide)) (by simp) hx) (by simpa using h)

theorem drop_of_drop {cs : List Char} {p : Nat} {a b : List Char} (h : cs.drop p = a ++ b) :
    cs.drop (p + a.length) = b := by
  rw [← List.drop_drop, h, List.drop_left]

/-- The printed text of an operand starts with no white space. -/
theorem head_joined {toks : List Token} {o : Operand} (h : OperandToks toks o)
    (hsh : ∀ t ∈ toks, Shaped t) (w : List Char) :
    ∀ c, (joined toks ++ w).head? = some c → isSpace c = false := by
  obtain ⟨t, ts, rfl, -⟩ := (closed_of_operandToks h).2
  obtain ⟨c, cs, hv, hc, -⟩ := (hsh t (by simp)).head ((closed_of_operandToks h).1.inOperand t (by simp))
  intro x hx
  simp only [joined_cons, hv, List.cons_append, List.head?_cons, Option.some.injEq] at hx
  exact hx ▸ hc

theorem head_comparison {v : String} (hv : v ∈ comparisonTexts) (w : List Char) :
    ∀ c, (v.toList ++ w).head? = some c → isSpace c = false := by
  simp only [comparisonTexts, List.mem_cons, List.not_mem_nil, or_false] at hv
  intro c hc
  rcases hv with rfl | rfl | rfl | rfl | rfl | rfl | rfl <;>
    simp only [List.head?_append] at hc <;> (obtain rfl : _ = c := by simpa using hc) <;> decide

/-- The printed text of a link lexes as its tokens laid out with single spaces, and each printed
operand reads. -/
theorem lexed_link {toks : List Token} {l : Link} (h : LinkToks ReadsJoined toks l)
    (hsh : ∀ t ∈ toks, Shaped t) {markup : String} {p : Nat} {w : List Char} {ts : List Token}
    (hw : w = [] ∨ ∃ r, w = ' ' :: r) (hm : markup.toList.drop p = l.text.toList ++ w)
    (hlex : Lexed (p + l.text.toList.length) w ts) :
    ∃ us, Lexed p (l.text.toList ++ w) (us ++ ts) ∧ LinkToks (Reads markup) us l := by
  have hstop : StopsOperand w := by
    rintro c r rfl
    rcases hw with h | ⟨r', h⟩
    · cases h
    · simp only [List.cons.injEq] at h
      exact .inl (h.1 ▸ by decide)
  cases h with
  | @single _ o hder hr =>
    obtain ⟨hmk, hp⟩ := markup_of_readsJoined hder hsh hr
    have htext : (⟨o, none⟩ : Link).text.toList = joined toks := hmk
    rw [htext] at hm hlex ⊢
    have hne : toks ≠ [] := by
      obtain ⟨t, ts', rfl, -⟩ := (closed_of_operandToks hder).2
      simp
    refine ⟨retime p toks, lexed_operand hder hsh hstop rfl hlex,
      .single (operandToks_retime hder p) ⟨o, ?_⟩⟩
    rw [span_retime hne hm]
    exact hp
  | @compare ts1 us0 t o o2 hder hr hk hder2 hr2 =>
    have hsh1 : ∀ u ∈ ts1, Shaped u := fun u hu => hsh u (by simp [hu])
    have hsh2 : ∀ u ∈ us0, Shaped u := fun u hu => hsh u (by simp [hu])
    have hv : t.value ∈ comparisonTexts := by
      have := hsh t (by simp)
      unfold Shaped at this
      simpa only [hk] using this
    obtain ⟨hmk1, hp1⟩ := markup_of_readsJoined hder hsh1 hr
    obtain ⟨hmk2, hp2⟩ := markup_of_readsJoined hder2 hsh2 hr2
    rw [Link.text_compare, hmk1, hmk2] at hm hlex ⊢
    simp only [List.append_assoc, List.cons_append] at hm ⊢
    -- positions of the operator and of the right operand
    obtain ⟨q1, hq1⟩ : ∃ q, q = p + (joined ts1).length + 1 := ⟨_, rfl⟩
    obtain ⟨q2, hq2⟩ : ∃ q, q = q1 + t.value.length + 1 := ⟨_, rfl⟩
    have hlex2 : Lexed q2 (joined us0 ++ w) (retime q2 us0 ++ ts) :=
      lexed_operand hder2 hsh2 hstop rfl (Lexed.congr_pos hlex (by
        simp only [hq2, hq1, List.length_append, List.length_cons, String.length_toList]
        omega))
    have hlexop : Lexed q1 (t.value.toList ++ ' ' :: (joined us0 ++ w))
        (⟨t.kind, t.value, q1⟩ :: (retime q2 us0 ++ ts)) := by
      refine Lexed.cons_value (by rw [hk, ← String.length_toList]; exact tokenAt_comparison hv _) ?_
      exact Lexed.space_one (head_joined hder2 hsh2 w) (by rw [← hq2]; exact hlex2)
    have hlex1 := lexed_operand hder hsh1 (w := ' ' :: (t.value.toList ++ ' ' :: (joined us0 ++ w)))
      (fun c r h => by simp only [List.cons.injEq] at h; exact .inl (h.1 ▸ by decide)) rfl
      (Lexed.space_one (head_comparison hv _) (by rw [← hq1]; exact hlexop))
    refine ⟨retime p ts1 ++ ⟨t.kind, t.value, q1⟩ :: retime q2 us0, by simpa using hlex1,
      .compare (operandToks_retime hder p) ⟨o, ?_⟩ hk (operandToks_retime hder2 q2) ⟨o2, ?_⟩⟩
    · have hne : ts1 ≠ [] := by
        obtain ⟨u, us', rfl, -⟩ := (closed_of_operandToks hder).2
        simp
      rw [span_retime hne hm]
      exact hp1
    · have hne : us0 ≠ [] := by
        obtain ⟨u, us', rfl, -⟩ := (closed_of_operandToks hder2).2
        simp
      have hm2 : markup.toList.drop q2 = joined us0 ++ w := by
        have h1 := drop_of_drop (a := joined ts1 ++ ' ' :: t.value.toList ++ [' ']) (by simpa using hm)
        rw [← h1, hq2, hq1]
        congr 1
        simp only [List.length_append, List.length_cons, List.length_nil, String.length_toList]
        omega
      rw [span_retime hne hm2]
      exact hp2

/-- A keyword is a name the lexer reads before a space. -/
theorem tokenAt_keyword (k : Combinator) (w : List Char) :
    tokenAt (k.keyword.toList ++ ' ' :: w) = some (some .identifier, k.keyword.length) := by
  have hstop : StopsName (' ' :: w) := fun x hx => by
    simp only [List.head?_cons, Option.some.injEq] at hx
    subst hx
    exact ⟨by decide, by decide⟩
  rw [← String.length_toList]
  cases k with
  | and =>
    exact tokenAt_name ⟨'a', ['n', 'd'], rfl, Text.forall_mem_of_all (by decide), .inl rfl⟩ (by decide)
      hstop
  | or =>
    exact tokenAt_name ⟨'o', ['r'], rfl, Text.forall_mem_of_all (by decide), .inl rfl⟩ (by decide) hstop

theorem ofKeyword?_keyword (k : Combinator) : Combinator.ofKeyword? k.keyword = some k := by
  cases k <;> rfl

/-- The printed links after the first lex as keyword tokens and their links' tokens, and each
printed operand reads. -/
theorem lexed_links {ts : List Token} {rest : List (Combinator × Link)}
    (h : LinksToks ReadsJoined ts rest) (hsh : ∀ t ∈ ts, Shaped t) {markup : String} {p : Nat}
    (hm : markup.toList.drop p = Chain.restText rest) :
    ∃ us, Lexed p (Chain.restText rest) us ∧ LinksToks (Reads markup) us rest := by
  induction h generalizing p with
  | done _ => exact ⟨[⟨.eof, "", p⟩], .done p, .done rfl⟩
  | @more t ls ts k l rest ht hk hlink _ ih =>
    rw [Chain.restText_cons] at hm ⊢
    simp only [List.cons_append, List.append_assoc] at hm ⊢
    -- positions of the keyword, the link and the links after it
    obtain ⟨pk, hpk⟩ : ∃ q, q = p + 1 := ⟨_, rfl⟩
    obtain ⟨pl, hpl⟩ : ∃ q, q = pk + k.keyword.length + 1 := ⟨_, rfl⟩
    have hml : markup.toList.drop pl = l.text.toList ++ Chain.restText rest := by
      have h1 := drop_of_drop (a := ' ' :: k.keyword.toList ++ [' ']) (by simpa using hm)
      rw [← h1, hpl, hpk]
      congr 1
      simp only [List.length_append, List.length_cons, List.length_nil, String.length_toList]
      omega
    obtain ⟨us, hlexr, hlinksr⟩ := ih (fun u hu => hsh u (by simp [hu]))
      (drop_of_drop hml)
    obtain ⟨ls', hlexl, hlinkl⟩ := lexed_link hlink (fun u hu => hsh u (by simp [hu]))
      (Chain.restText_shape rest) hml hlexr
    -- the link's text starts with its left operand
    have hhead : ∀ c, (l.text.toList ++ Chain.restText rest).head? = some c → isSpace c = false := by
      cases hlink with
      | @single _ o hder hr =>
        obtain ⟨hmk, -⟩ := markup_of_readsJoined hder (fun u hu => hsh u (by simp [hu])) hr
        have htext : (⟨o, none⟩ : Link).text.toList = joined ls := hmk
        rw [htext]
        exact head_joined hder (fun u hu => hsh u (by simp [hu])) _
      | @compare ts1 us0 t' o o2 hder hr _ _ _ =>
        have hsh1 : ∀ u ∈ ts1, Shaped u := fun u hu => hsh u (by simp [hu])
        obtain ⟨hmk, -⟩ := markup_of_readsJoined hder hsh1 hr
        rw [Link.text_compare, hmk]
        simp only [List.append_assoc]
        exact head_joined hder hsh1 _
    refine ⟨⟨.identifier, k.keyword, pk⟩ :: (ls' ++ us), ?_, by
      simpa using LinksToks.more (t := ⟨.identifier, k.keyword, pk⟩) rfl (ofKeyword?_keyword k)
        hlinkl hlinksr⟩
    refine Lexed.space_one (by simp [Combinator.keyword]; cases k <;> decide) ?_
    rw [← hpk]
    refine Lexed.cons_value (t := ⟨.identifier, k.keyword, pk⟩) (tokenAt_keyword k _) ?_
    refine Lexed.space_one hhead ?_
    rw [show pk + k.keyword.length + 1 = pl from hpl.symm]
    exact hlexl

/-- A chain the strict parser reads prints to a text that it reads as the same chain. -/
theorem parse_text {limit : Int} (hlim : 1 ≤ limit) {markup : String} {c : Chain}
    (h : parse limit markup = .ok c) : parse limit c.text = .ok c := by
  obtain ⟨ts, hscan, ⟨hs, rs, rfl, hlink, hrest⟩, hlen⟩ := chainToks_of_parse hlim h
  have hS := scanned_of_scan hscan
  obtain ⟨hlink', hSr⟩ := linkToks_joined hlink hS
  have hrest' := linksToks_joined hrest hSr
  have hshs : ∀ t ∈ hs, Shaped t := fun t ht => hS.shaped t (by simp [ht])
  have hshr : ∀ t ∈ rs, Shaped t := fun t ht => hS.shaped t (by simp [ht])
  have hm : c.text.toList.drop 0 = c.head.text.toList ++ Chain.restText c.rest := by
    rw [List.drop_zero, Chain.text_toList]
  obtain ⟨us, hlexr, hlinksr⟩ := lexed_links hrest' hshr (drop_of_drop hm)
  obtain ⟨hus, hlexh, hlinkh⟩ := lexed_link hlink' hshs (Chain.restText_shape c.rest) hm
    (by simpa using hlexr)
  have hscan' : scan c.text = .ok (hus ++ us) := by
    refine scan_of_lexed ?_
    rw [Chain.text_toList]
    exact hlexh
  exact parse_of_chainToks hscan' ⟨hus, us, rfl, hlinkh, hlinksr⟩ hlen

end Strict

end Branching
