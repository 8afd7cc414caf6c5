import Branching.Proofs.OperandTree

/-!
# An operand's markup reads back as the operand

`Operand.markup` writes an operand without white space: a literal keeps the text it was read
from, everything else is put together from its parts. The markup of what a text reads as is that
text with the white space outside quotes removed (`squeeze`), and the squeezed text reads as the
same operand; so the markup of an operand that was read reads back as that operand.

The delicate case is a range. Its first end is the shortest one after which `..` and a last end
follow, and squeezing must not bring two points together before the range's own `..`. A first end
that reads neither starts nor ends with a point and holds no two points in a row (or the reader
would have cut there), and squeezing a text that reads puts no two points together.

## Main statements

- `markup_of_parseChars`: the markup of what a text reads as is the squeezed text.
- `parseChars_squeeze`: a text that reads reads the same once squeezed.
- `parse_markup`: an operand read from a text reads back from its markup.
-/

namespace Branching.Operand

open Text

/-! ### White space outside quotes -/

/-- The quote a text is in after one more character: a quote opens a quoted part that only the
same quote closes. -/
def quoteStep : Option Char → Char → Option Char
  | some q, c => if c = q then none else some q
  | none, c => if c = '"' ∨ c = '\'' then some c else none

/-- The text from the quote state `s` on, without the white space that lies outside quotes. -/
def squeezeFrom : Option Char → List Char → List Char
  | _, [] => []
  | none, c :: cs =>
    if isSpace c then squeezeFrom none cs else c :: squeezeFrom (quoteStep none c) cs
  | some q, c :: cs => c :: squeezeFrom (quoteStep (some q) c) cs

/-- The text without the white space outside quotes. -/
def squeeze (cs : List Char) : List Char := squeezeFrom none cs

@[simp] theorem squeeze_nil : squeeze [] = [] := rfl

theorem quoteStep_fst (s : Option Char) (d : Int) (c : Char) :
    (nestStep (s, d) c).1 = quoteStep s c := by
  cases s with
  | some q => by_cases h : c = q <;> simp [nestStep, quoteStep, h]
  | none =>
    simp only [nestStep, quoteStep]
    split
    · rfl
    · split <;> (try split) <;> rfl

/-- The quote state of `nesting` does not depend on the depth. -/
theorem nesting_fst (s : Option Char) (d : Int) (cs : List Char) :
    (nesting (s, d) cs).1 = cs.foldl quoteStep s := by
  induction cs generalizing s d with
  | nil => rfl
  | cons c cs ih =>
    rw [nesting_cons, List.foldl_cons, ← quoteStep_fst s d c, ← ih]

theorem Balanced.quote_none {cs : List Char} (h : Balanced cs) : cs.foldl quoteStep none = none := by
  rw [← nesting_fst none 0, h 0]

theorem quoteStep_space {c : Char} (h : isSpace c = true) : quoteStep none c = none := by
  obtain ⟨-, -, -, -, -, -, -, -⟩ := Text.ne_of_isSpace h
  have := plain_of_isSpace h
  simp [quoteStep, this.1, this.2.1]

theorem squeezeFrom_append (s : Option Char) (a b : List Char) :
    squeezeFrom s (a ++ b) = squeezeFrom s a ++ squeezeFrom (a.foldl quoteStep s) b := by
  induction a generalizing s with
  | nil => rfl
  | cons c a ih =>
    cases s with
    | some q => simp only [List.cons_append, squeezeFrom, ih, List.foldl_cons]
    | none =>
      by_cases hc : isSpace c = true
      · simp only [List.cons_append, squeezeFrom, hc, if_true, ih, List.foldl_cons,
          quoteStep_space hc]
      · simp only [List.cons_append, squeezeFrom, hc, if_false, ih, List.foldl_cons,
          Bool.false_eq_true]

theorem squeeze_append {a : List Char} (ha : Balanced a) (b : List Char) :
    squeeze (a ++ b) = squeeze a ++ squeeze b := by
  rw [squeeze, squeezeFrom_append, ha.quote_none]
  rfl

/-- White space outside quotes goes. -/
theorem squeeze_spaces {g : List Char} (hg : ∀ c ∈ g, isSpace c = true) (b : List Char) :
    squeeze (g ++ b) = squeeze b := by
  induction g with
  | nil => rfl
  | cons c g ih =>
    have hc := hg c (by simp)
    rw [List.cons_append, squeeze, squeezeFrom, if_pos hc]
    exact ih fun x hx => hg x (by simp [hx])

/-- Characters that are neither white space nor quotes stay, and leave no quote open. -/
theorem squeeze_firm {x : List Char} (hx : ∀ c ∈ x, isSpace c = false ∧ c ≠ '"' ∧ c ≠ '\'')
    (b : List Char) : squeeze (x ++ b) = x ++ squeeze b := by
  induction x with
  | nil => rfl
  | cons c x ih =>
    obtain ⟨hs, h1, h2⟩ := hx c (by simp)
    have hq : quoteStep none c = none := by simp [quoteStep, h1, h2]
    rw [List.cons_append, squeeze, squeezeFrom, if_neg (by simp [hs]), hq, ← squeeze,
      ih fun y hy => hx y (by simp [hy])]
    rfl

/-- A quoted text stays whole. -/
theorem squeeze_quoted {q : Char} {inner : List Char} (hq : q = '"' ∨ q = '\'') (hin : q ∉ inner) :
    squeeze (q :: inner ++ [q]) = q :: inner ++ [q] := by
  have hs : isSpace q = false := by rcases hq with rfl | rfl <;> decide
  have hinside : ∀ y, squeezeFrom (some q) (inner ++ q :: y) = inner ++ q :: squeezeFrom none y := by
    intro y
    induction inner with
    | nil => simp [squeezeFrom, quoteStep]
    | cons c inner ih =>
      have hc : c ≠ q := fun h => hin (by simp [h])
      simp only [List.cons_append, squeezeFrom, quoteStep, if_neg hc]
      rw [ih fun h => hin (by simp [h])]
  have hstep : quoteStep none q = some q := by simp [quoteStep, hq]
  rw [squeeze, List.cons_append, squeezeFrom, if_neg (by simp [hs]), hstep, hinside]
  rfl

/-- The quote a text leaves open is never white space. -/
theorem foldl_quoteStep_not_space {s : Option Char} (hs : ∀ q, s = some q → isSpace q = false)
    (x : List Char) : ∀ q, x.foldl quoteStep s = some q → isSpace q = false := by
  induction x generalizing s with
  | nil => exact hs
  | cons c x ih =>
    refine ih ?_
    intro q hq
    cases s with
    | some q' =>
      simp only [quoteStep] at hq
      split at hq
      · cases hq
      · cases hq
        exact hs q rfl
    | none =>
      simp only [quoteStep] at hq
      split at hq
      · rename_i h
        cases hq
        rcases h with rfl | rfl <;> decide
      · cases hq

theorem foldl_quoteStep_spaces {g : List Char} (hg : ∀ c ∈ g, isSpace c = true)
    {s : Option Char} (hs : ∀ q, s = some q → isSpace q = false) : g.foldl quoteStep s = s := by
  induction g with
  | nil => rfl
  | cons c g ih =>
    have hc := hg c (by simp)
    have hstep : quoteStep s c = s := by
      cases s with
      | none => exact quoteStep_space hc
      | some q =>
        have hne : c ≠ q := fun h => by rw [h, hs q rfl] at hc; cases hc
        simp [quoteStep, hne]
    rw [List.foldl_cons, hstep]
    exact ih fun x hx => hg x (by simp [hx])

/-- Only the stripped text matters to a balanced text's squeeze. -/
theorem squeeze_strip {cs : List Char} (h : Balanced cs) : squeeze cs = squeeze (strip cs) := by
  obtain ⟨l, r, hcs, hl, hr⟩ := strip_spec cs
  have hnone : ∀ q, (none : Option Char) = some q → isSpace q = false := by simp
  have hopen := foldl_quoteStep_not_space hnone (strip cs)
  -- the stripped text closes its quotes, or the white space after it would stay quoted
  have hclosed : (strip cs).foldl quoteStep none = none := by
    have hq := h.quote_none
    rw [hcs, List.foldl_append, List.foldl_append, foldl_quoteStep_spaces hl hnone,
      foldl_quoteStep_spaces hr hopen] at hq
    exact hq
  have hsq : squeeze cs = squeeze (l ++ strip cs ++ r) := congrArg squeeze hcs
  rw [hsq, List.append_assoc, squeeze_spaces hl, squeeze, squeezeFrom_append, hclosed,
    ← squeeze, ← squeeze, ← List.append_nil r, squeeze_spaces hr, squeeze_nil, List.append_nil]


/-- A character that is neither white space nor a quote stays wherever it stands. -/
theorem squeezeFrom_single {c : Char} (hc : isSpace c = false) (s : Option Char) :
    squeezeFrom s [c] = [c] := by
  cases s <;> simp [squeezeFrom, hc]

/-- The last character of a text stays when it is not white space. -/
theorem squeeze_concat {ys : List Char} {c : Char} (hc : isSpace c = false) :
    squeeze (ys ++ [c]) = squeeze ys ++ [c] := by
  rw [squeeze, squeezeFrom_append, squeezeFrom_single hc]
  rfl

theorem squeeze_cons {c : Char} (hc : isSpace c = false) (cs : List Char) :
    squeeze (c :: cs) = c :: squeezeFrom (quoteStep none c) cs := by
  rw [squeeze, squeezeFrom, if_neg (by simp [hc])]

/-! ### Bracketed parts without their white space -/

theorem map_cons_eq_some {c : Char} {o : Option (List Char × List Char)} {x w : List Char}
    (h : o.map (fun p => (c :: p.1, p.2)) = some (c :: x, w)) : o = some (x, w) := by
  obtain ⟨⟨x', w'⟩, ho, he⟩ := Option.map_eq_some_iff.1 h
  simp only [Prod.mk.injEq, List.cons.injEq, true_and] at he
  rw [ho, he.1, he.2]

/-- Squeezing the inside of a bracketed part moves no bracket and no quote, so the part still
ends at the same `]`. -/
theorem bracketRest_squeeze {d : Nat} {s : Option Char} {x w : List Char}
    (h : bracketRest d s (x ++ ']' :: w) = some (x, w)) (w' : List Char) :
    bracketRest d s (squeezeFrom s x ++ ']' :: w') = some (squeezeFrom s x, w') := by
  induction x generalizing d s with
  | nil =>
    -- an empty inside: the `]` must close the part, which it cannot do inside quotes
    cases s with
    | some q =>
      obtain ⟨⟨x', w''⟩, -, he⟩ := Option.map_eq_some_iff.1 h
      simp at he
    | none =>
      simp only [List.nil_append, bracketRest] at h ⊢
      simp only [show (']' : Char) ≠ '"' ∧ (']' : Char) ≠ '\'' from by decide, false_or,
        show (']' : Char) ≠ '[' from by decide, if_false, if_true] at h ⊢
      split at h
      · rename_i hd
        rw [show squeezeFrom none [] = [] from rfl, List.nil_append, bracketRest, if_neg (by decide),
          if_neg (by decide), if_pos rfl, if_pos hd]
      · obtain ⟨⟨x', w''⟩, -, he⟩ := Option.map_eq_some_iff.1 h
        simp at he
  | cons c x ih =>
    -- each branch of the scan is taken alike on both sides; only white space outside quotes is
    -- dropped, and the scan passes it by
    cases s with
    | some q =>
      simp only [List.cons_append, bracketRest] at h
      simp only [squeezeFrom, quoteStep, List.cons_append, bracketRest, ih (map_cons_eq_some h)]
      rfl
    | none =>
      simp only [List.cons_append, bracketRest] at h
      by_cases hq : c = '"' ∨ c = '\''
      · have hs : isSpace c = false := by rcases hq with rfl | rfl <;> decide
        rw [if_pos hq] at h
        have hstep : quoteStep none c = some c := by simp [quoteStep, hq]
        rw [squeezeFrom, if_neg (by simp [hs]), hstep, List.cons_append, bracketRest, if_pos hq,
          ih (map_cons_eq_some h)]
        rfl
      rw [if_neg hq] at h
      have hstep : quoteStep none c = none := by simp [quoteStep, hq]
      by_cases hb : c = '['
      · subst hb
        rw [if_pos rfl] at h
        rw [squeezeFrom, if_neg (by decide), hstep, List.cons_append, bracketRest, if_neg hq,
          if_pos rfl, ih (map_cons_eq_some h)]
        rfl
      rw [if_neg hb] at h
      by_cases hc : c = ']'
      · subst hc
        rw [if_pos rfl] at h
        split at h
        · simp at h
        rename_i hd
        rw [squeezeFrom, if_neg (by decide), hstep, List.cons_append, bracketRest, if_neg hq,
          if_neg hb, if_pos rfl, if_neg hd, ih (map_cons_eq_some h)]
        rfl
      rw [if_neg hc] at h
      by_cases hs : isSpace c = true
      · rw [squeezeFrom, if_pos hs]
        exact ih (map_cons_eq_some h)
      · rw [squeezeFrom, if_neg hs, hstep, List.cons_append, bracketRest, if_neg hq, if_neg hb,
          if_neg hc, ih (map_cons_eq_some h)]
        rfl

/-- A bracketed part with a balanced inside: the brackets stay, and the inside and the rest are
squeezed apart. -/
theorem squeeze_bracket {inside : List Char} (hin : Balanced inside) (rest : List Char) :
    squeeze ('[' :: inside ++ ']' :: rest) = '[' :: squeeze inside ++ ']' :: squeeze rest := by
  have h1 := squeeze_firm (x := ['[']) (Text.forall_mem_of_all (by decide)) (inside ++ ']' :: rest)
  have h2 := squeeze_firm (x := [']']) (Text.forall_mem_of_all (by decide)) rest
  simp only [List.singleton_append] at h1 h2
  rw [List.cons_append, h1, squeeze_append hin, h2]
  rfl

theorem spanBracket_squeeze {inside rest : List Char} (hin : Balanced inside)
    (h : spanBracket ('[' :: inside ++ ']' :: rest) = some (inside, rest)) :
    spanBracket (squeeze ('[' :: inside ++ ']' :: rest)) = some (squeeze inside, squeeze rest) := by
  rw [squeeze_bracket hin]
  exact bracketRest_squeeze (s := none) h _

/-! ### Where a squeezed range is cut -/

/-- A text with two points in a row. -/
def DotDot (x : List Char) : Prop := ['.', '.'] <:+: x

/-- Two points in a row in a joined text lie in one part or across the seam. -/
theorem DotDot.append {x y : List Char} (h : DotDot (x ++ y)) :
    DotDot x ∨ DotDot y ∨ (x.getLast? = some '.' ∧ y.head? = some '.') := by
  induction x with
  | nil => exact .inr (.inl h)
  | cons c x ih =>
    rcases List.infix_cons_iff.1 h with hp | hi
    · simp only [List.append_eq] at hp
      rw [List.cons_prefix_cons] at hp
      obtain ⟨rfl, hp⟩ := hp
      cases x with
      | nil =>
        obtain ⟨t, ht⟩ := hp
        refine .inr (.inr ⟨rfl, ?_⟩)
        rw [List.nil_append] at ht
        rw [← ht]
        rfl
      | cons e x =>
        rw [List.cons_append, List.cons_prefix_cons] at hp
        obtain ⟨rfl, -⟩ := hp
        exact .inl (List.IsPrefix.isInfix ⟨x, rfl⟩)
    · rcases ih hi with hx | hy | ⟨hl, hh⟩
      · exact .inl (hx.trans (List.infix_cons (List.infix_refl _)))
      · exact .inr (.inl hy)
      · refine .inr (.inr ⟨?_, hh⟩)
        cases x with
        | nil => simp at hl
        | cons e x => simpa using hl

theorem DotDot.cons {c : Char} {x : List Char} (h : DotDot x) : DotDot (c :: x) :=
  h.trans (List.infix_cons (List.infix_refl _))

/-- The cut at the end of `x`, when no cut after its first character comes earlier. -/
theorem splitDots_first {taken x y b : List Char} (hx : x ≠ [])
    (hnone : ∀ j, 1 ≤ j → j < x.length → afterDots ((x ++ y).drop j) = none)
    (hy : afterDots y = some b) : splitDots taken (x ++ y) = some (taken ++ x, b) := by
  induction x generalizing taken with
  | nil => exact absurd rfl hx
  | cons c x ih =>
    cases x with
    | nil => simp [splitDots, hy]
    | cons e x =>
      have h1 : afterDots (e :: x ++ y) = none := by
        simpa using hnone 1 (Nat.le_refl 1) (by simp)
      rw [List.cons_append, splitDots, h1]
      simp only
      rw [ih (by simp), List.append_assoc, List.singleton_append]
      intro j hj1 hj2
      have := hnone (j + 1) (by omega) (by simp at hj2 ⊢; omega)
      simpa using this

/-- Within a text with no two points in a row and a last character that is neither white space
nor a point, no `..` follows. -/
theorem afterDots_none_inside {x : List Char} {c : Char} (hdd : ¬ DotDot x)
    (hlast : x.getLast? = some c) (hc : isSpace c = false) (hcd : c ≠ '.') {j : Nat}
    (hj : j < x.length) (y : List Char) : afterDots ((x ++ y).drop j) = none := by
  obtain ⟨u, hu⟩ : ∃ u, u = x.drop j := ⟨_, rfl⟩
  have hsuf : u <:+ x := hu ▸ List.drop_suffix j x
  have hulast : u.getLast? = some c := by
    rw [hu, List.getLast?_drop, if_neg (by omega), hlast]
  obtain ⟨u0, rfl⟩ := List.getLast?_eq_some_iff.1 hulast
  -- white space is dropped inside `u`, which ends with `c`
  obtain ⟨v0, hv⟩ : ∃ v0, dropSpace (u0 ++ [c] ++ y) = v0 ++ c :: y ∧ v0 ++ [c] <:+ u0 ++ [c] := by
    have hsufd := List.dropWhile_suffix isSpace (l := u0 ++ [c])
    have hdc : ([c] : List Char).dropWhile isSpace = [c] :=
      List.dropWhile_cons_of_neg (by simp [hc])
    rw [List.dropWhile_append, hdc] at hsufd
    rw [dropSpace, List.append_assoc, List.dropWhile_append]
    by_cases he : (u0.dropWhile isSpace).isEmpty = true
    · rw [if_pos he] at hsufd ⊢
      exact ⟨[], by simp [hc], hsufd⟩
    · rw [if_neg he] at hsufd ⊢
      exact ⟨u0.dropWhile isSpace, by simp, hsufd⟩
  rw [List.drop_append_of_le_length (by omega), ← hu, afterDots, hv.1]
  split
  · rename_i r hr
    exfalso
    cases v0 with
    | nil =>
      simp only [List.nil_append, List.cons.injEq] at hr
      exact hcd hr.1
    | cons e v0 =>
      cases v0 with
      | nil =>
        simp only [List.cons_append, List.nil_append, List.cons.injEq] at hr
        exact hcd hr.2.1
      | cons f v0 =>
        simp only [List.cons_append, List.cons.injEq] at hr
        apply hdd
        refine List.IsInfix.trans ?_ ((hv.2.trans hsuf).isInfix)
        rw [hr.1, hr.2.1]
        exact List.infix_append [] _ _
  · rfl

theorem rangeEnd_ne_none {r : List Char} (hr : r ≠ []) : rangeEnd r ≠ none := by
  unfold rangeEnd
  split
  · obtain ⟨ys, c, rfl⟩ := List.eq_nil_or_concat r |>.resolve_left hr
    simp
  · simp

theorem afterDots_space {c : Char} (hc : isSpace c = true) (m : List Char) :
    afterDots (c :: m) = afterDots m := by
  rw [afterDots, afterDots, dropSpace, List.dropWhile_cons_of_pos (by simp [hc])]
  rfl

/-- The first end a range is cut at neither starts nor ends with white space when the text it is
cut from does not start with it. -/
theorem splitDots_trim {s a b : List Char} (h : splitDots [] s = some (a, b))
    (hs : ∀ c, s.head? = some c → isSpace c = false) :
    ∃ m, s = a ++ m ∧ afterDots m = some b ∧ (∃ c cs, a = c :: cs ∧ isSpace c = false) ∧
      ∃ ys c, a = ys ++ [c] ∧ isSpace c = false := by
  obtain ⟨i, hi1, hi, ha, hb, hmin⟩ := Token.splitDots_spec h
  rw [List.nil_append] at ha
  subst ha
  have hsplit : s = s.take i ++ s.drop i := (List.take_append_drop i s).symm
  have hne : s.take i ≠ [] := List.ne_nil_of_length_pos (by rw [List.length_take_of_le hi]; omega)
  refine ⟨s.drop i, hsplit, hb, ?_, ?_⟩
  · obtain ⟨c, cs, hcs⟩ := List.exists_cons_of_ne_nil hne
    refine ⟨c, cs, hcs, hs c ?_⟩
    rw [hsplit, hcs]
    rfl
  · obtain ⟨ys, c, hys⟩ := List.eq_nil_or_concat (List.take i s) |>.resolve_left hne
    rw [List.concat_eq_append] at hys
    refine ⟨ys, c, hys, ?_⟩
    cases hc : isSpace c
    · rfl
    · -- a cut one character earlier would come first
      exfalso
      have hlen : ys.length + 1 = i := by
        have := congrArg List.length hys
        rw [List.length_take_of_le hi, List.length_append, List.length_singleton] at this
        omega
      have hdrop : s.drop ys.length = c :: s.drop i := by
        calc s.drop ys.length = (ys ++ [c] ++ s.drop i).drop ys.length := by
              rw [← hys, List.take_append_drop]
          _ = c :: s.drop i := by simp
      cases ys with
      | nil =>
        have hhead : s.head? = some c := by simpa using congrArg List.head? hdrop
        rw [hs c hhead] at hc
        cases hc
      | cons y ys =>
        have := hmin (y :: ys).length (by simp) (by omega)
        rw [hdrop, afterDots_space hc, hb] at this
        cases this

/-- The first end a range is cut at holds no two points in a row, unless it starts with a point. -/
theorem splitDots_no_dotDot {s a b : List Char} (h : splitDots [] s = some (a, b))
    (hhead : a.head? ≠ some '.') : ¬ DotDot a := by
  obtain ⟨i, hi1, hi, ha, hb, hmin⟩ := Token.splitDots_spec h
  rw [List.nil_append] at ha
  subst ha
  rintro ⟨u, v, huv⟩
  have hm : s.drop i ≠ [] := by
    intro hnil
    rw [hnil] at hb
    cases hb
  cases u with
  | nil =>
    apply hhead
    rw [← huv]
    rfl
  | cons e u =>
    have hlen : (e :: u).length < i := by
      have := congrArg List.length huv
      rw [List.length_take_of_le hi] at this
      simp only [List.length_append, List.length_cons, List.length_nil] at this ⊢
      omega
    have hdrop : s.drop (e :: u).length = '.' :: '.' :: (v ++ s.drop i) := by
      calc s.drop (e :: u).length = ((e :: u) ++ ['.', '.'] ++ v ++ s.drop i).drop (e :: u).length := by
            rw [huv, List.take_append_drop]
        _ = '.' :: '.' :: (v ++ s.drop i) := by simp
    have := hmin (e :: u).length (by simp) hlen
    rw [hdrop, afterDots, dropSpace, List.dropWhile_cons_of_neg (by decide)] at this
    exact rangeEnd_ne_none (by simp [hm]) this

/-! ### The ends of a stripped text -/

theorem head_dropSpace {cs : List Char} {c : Char} (h : (dropSpace cs).head? = some c) :
    isSpace c = false := by
  have hne : dropSpace cs ≠ [] := by
    intro hn
    rw [hn] at h
    cases h
  have hnot := List.head_dropWhile_not isSpace hne
  obtain ⟨x, xs, hx⟩ := List.exists_cons_of_ne_nil hne
  simp only [dropSpace] at hx h
  simp only [hx, List.head?_cons, Option.some.injEq] at h
  simp only [hx, List.head_cons] at hnot
  rw [← h]
  exact hnot

theorem strip_last {cs : List Char} {c : Char} (h : (strip cs).getLast? = some c) :
    isSpace c = false := by
  rw [strip, List.getLast?_reverse] at h
  exact head_dropSpace h

theorem strip_head {cs : List Char} {c : Char} (h : (strip cs).head? = some c) :
    isSpace c = false := by
  rw [strip, List.head?_reverse] at h
  -- what stays of a text is its end, and the end of the reversed text is its first character
  have hne : dropSpace (dropSpace cs).reverse ≠ [] := by
    intro hn
    rw [hn] at h
    cases h
  have hlast : (dropSpace (dropSpace cs).reverse).getLast? = ((dropSpace cs).reverse).getLast? := by
    obtain ⟨w, hw⟩ := List.dropWhile_suffix isSpace (l := (dropSpace cs).reverse)
    obtain ⟨ys, e, he⟩ := List.eq_nil_or_concat _ |>.resolve_left hne
    rw [List.concat_eq_append] at he
    have hw' : w ++ dropSpace (dropSpace cs).reverse = (dropSpace cs).reverse := hw
    rw [he] at hw' ⊢
    rw [← hw', ← List.append_assoc, List.getLast?_concat, List.getLast?_concat]
  rw [hlast, List.getLast?_reverse] at h
  exact head_dropSpace h

/-- A stripped text that is not empty neither starts nor ends with white space. -/
theorem strip_ends {cs : List Char} (h : strip cs ≠ []) :
    (∃ c cs', strip cs = c :: cs' ∧ isSpace c = false) ∧
      ∃ ys c, strip cs = ys ++ [c] ∧ isSpace c = false := by
  obtain ⟨c, cs', hc⟩ := List.exists_cons_of_ne_nil h
  obtain ⟨ys, e, he⟩ := List.eq_nil_or_concat (strip cs) |>.resolve_left h
  rw [List.concat_eq_append] at he
  exact ⟨⟨c, cs', hc, strip_head (by rw [hc]; rfl)⟩,
    ⟨ys, e, he, strip_last (by rw [he]; simp)⟩⟩

/-! ### Ranges without their white space -/

/-- The two ends a range is split into: the first cut of the text after the opening white space,
or one white space character. -/
theorem rangeSplit_cut {t a b : List Char} (h : rangeSplit t = some (a, b)) :
    (∃ c, a = [c] ∧ isSpace c = true) ∨ ∃ lead s, t = '(' :: (lead ++ s ++ [')']) ∧
      (∀ c ∈ lead, isSpace c = true) ∧ (∀ c, s.head? = some c → isSpace c = false) ∧
      splitDots [] s = some (a, b) := by
  unfold rangeSplit at h
  split at h
  · rename_i rest
    split at h
    · rename_i hlast
      obtain ⟨body, rfl⟩ := List.getLast?_eq_some_iff.1 hlast
      simp only [List.dropLast_concat] at h
      split at h
      · rename_i p hp
        simp only [Option.some.injEq] at h
        subst h
        exact .inr ⟨body.takeWhile isSpace, body.dropWhile isSpace,
          by rw [List.takeWhile_append_dropWhile], fun c hc => Text.isSpace_of_mem_takeWhile hc,
          fun c hc => head_dropSpace hc, hp⟩
      · split at h
        · rename_i c b' hc _
          simp only [Option.some.injEq, Prod.mk.injEq] at h
          obtain ⟨rfl, rfl⟩ := h
          exact .inl ⟨c, rfl, Text.isSpace_of_mem_takeWhile (List.mem_of_getLast? hc)⟩
        · cases h
    · cases h
  · cases h

/-- A range whose first cut after the opening white space is `p` is split at `p`. -/
theorem rangeSplit_of_splitDots {lead s : List Char} {p : List Char × List Char}
    (hlead : ∀ c ∈ lead, isSpace c = true) (hs : ∀ c, s.head? = some c → isSpace c = false)
    (h : splitDots [] s = some p) : rangeSplit ('(' :: (lead ++ s ++ [')'])) = some p := by
  cases s with
  | nil => simp [splitDots] at h
  | cons c cs =>
    have hc := hs c rfl
    have hstart : (lead ++ c :: cs).dropWhile isSpace = c :: cs := by
      rw [List.dropWhile_append_of_pos hlead, List.dropWhile_cons_of_neg (by simp [hc])]
    simp only [rangeSplit, List.getLast?_concat, if_true, List.dropLast_concat, hstart, h]

/-- The layout of a range whose ends are not blank: the opening white space, the first end,
white space, `..`, and the last end with white space around it. Neither end starts or ends with
white space. -/
theorem rangeSplit_layout {t a b : List Char} (h : rangeSplit t = some (a, b)) (ha : strip a ≠ [])
    (hb : strip b ≠ []) :
    ∃ lead g l r, t = '(' :: (lead ++ (a ++ (g ++ '.' :: '.' :: (l ++ b ++ r))) ++ [')']) ∧
      (∀ c ∈ lead, isSpace c = true) ∧ (∀ c ∈ g, isSpace c = true) ∧
      (∀ c ∈ l, isSpace c = true) ∧ (∀ c ∈ r, isSpace c = true) ∧
      splitDots [] (a ++ (g ++ '.' :: '.' :: (l ++ b ++ r))) = some (a, b) ∧
      ((∃ c cs, a = c :: cs ∧ isSpace c = false) ∧ ∃ ys c, a = ys ++ [c] ∧ isSpace c = false) ∧
      ((∃ c cs, b = c :: cs ∧ isSpace c = false) ∧ ∃ ys c, b = ys ++ [c] ∧ isSpace c = false) := by
  rcases rangeSplit_cut h with ⟨c, rfl, hc⟩ | ⟨lead, s, rfl, hlead, hs, hcut⟩
  · exact absurd (strip_space hc) ha
  obtain ⟨m, rfl, hm, hahead, halast⟩ := splitDots_trim hcut hs
  obtain ⟨g, r, rfl, hg, hend⟩ := afterDots_some hm
  rcases rangeEnd_some hend with rfl | ⟨e, rfl, he⟩
  · obtain ⟨l, r', hr, hl, hr'⟩ := strip_spec r
    have hr2 : g ++ '.' :: '.' :: r = g ++ '.' :: '.' :: (l ++ strip r ++ r') := by rw [← hr]
    rw [hr2] at hcut
    have hne : strip r ≠ [] := by
      intro hn
      rw [hn] at hb
      exact hb rfl
    exact ⟨lead, g, l, r', by rw [hr2], hlead, hg, hl, hr', hcut, ⟨hahead, halast⟩, strip_ends hne⟩
  · exact absurd (strip_space he) hb

/-- A range's text without white space: its ends without white space, between `(`, `..` and
`)`. -/
theorem squeeze_of_rangeSplit {t a b : List Char} (h : rangeSplit t = some (a, b))
    (ha : strip a ≠ []) (hb : strip b ≠ []) (hba : Balanced a) (hbb : Balanced b) :
    squeeze t = '(' :: (squeeze a ++ '.' :: '.' :: squeeze b ++ [')']) := by
  obtain ⟨lead, g, l, r, rfl, hlead, hg, hl, hr, -⟩ := rangeSplit_layout h ha hb
  have hparen := squeeze_firm (x := ['(']) (Text.forall_mem_of_all (by decide))
  have hdots := squeeze_firm (x := ['.', '.']) (Text.forall_mem_of_all (by decide))
  have hclose : squeeze [')'] = [')'] := by decide
  simp only [List.cons_append, List.nil_append] at hparen hdots
  simp only [List.append_assoc, List.cons_append]
  rw [hparen, squeeze_spaces hlead, squeeze_append hba, squeeze_spaces hg, hdots, squeeze_spaces hl,
    squeeze_append hbb, squeeze_spaces hr, hclose]

/-- The squeezed text of a range is cut where the range was: its first end has no two points in
a row once squeezed, so no `..` comes before the range's own. -/
theorem rangeSplit_squeeze {t a b : List Char} (h : rangeSplit t = some (a, b)) (ha : strip a ≠ [])
    (hb : strip b ≠ []) (hba : Balanced a) (hbb : Balanced b)
    (hhead : (strip a).head? ≠ some '.') (hlast : (strip a).getLast? ≠ some '.')
    (hdd : DotDot (squeeze a) → DotDot a) :
    rangeSplit (squeeze t) = some (squeeze a, squeeze b) := by
  have hsq := squeeze_of_rangeSplit h ha hb hba hbb
  obtain ⟨lead, g, l, r, -, -, -, -, -, hcut, ⟨⟨c, cs, hca, hc⟩, ⟨ys, e, hae, he⟩⟩,
    ⟨⟨c', cs', hcb, hc'⟩, ⟨ys', e', hbe, he'⟩⟩⟩ := rangeSplit_layout h ha hb
  have hstrip : strip a = a := by
    simpa using Token.strip_pad (l := []) (g := []) (by simp) (by simp) ⟨c, cs, hca, hc⟩
      ⟨ys, e, hae, he⟩
  rw [hstrip] at hhead hlast
  have hed : e ≠ '.' := by
    rintro rfl
    exact hlast (by rw [hae]; simp)
  -- the squeezed ends keep their first and last characters
  obtain ⟨sa, hsa⟩ : ∃ sa, sa = squeeze a := ⟨_, rfl⟩
  obtain ⟨sb, hsb⟩ : ∃ sb, sb = squeeze b := ⟨_, rfl⟩
  have hsahead : ∃ x xs, sa = x :: xs ∧ isSpace x = false := ⟨c, _, by rw [hsa, hca, squeeze_cons hc], hc⟩
  have hsalast : sa.getLast? = some e := by rw [hsa, hae, squeeze_concat he]; simp
  have hsbhead : ∃ x xs, sb = x :: xs ∧ isSpace x = false := ⟨c', _, by rw [hsb, hcb, squeeze_cons hc'], hc'⟩
  have hsblast : ∃ xs x, sb = xs ++ [x] ∧ isSpace x = false :=
    ⟨squeeze ys', e', by rw [hsb, hbe, squeeze_concat he'], he'⟩
  have hdd' : ¬ DotDot sa := fun hd => splitDots_no_dotDot hcut hhead (hdd (hsa ▸ hd))
  have hend : afterDots ('.' :: '.' :: sb) = some sb := by
    have h1 : afterDots ([] ++ '.' :: '.' :: sb) = rangeEnd sb := Token.afterDots_dots (by simp)
    have h2 : rangeEnd ([] ++ sb ++ []) = some sb :=
      Token.rangeEnd_pad (by simp) (by simp) hsbhead hsblast
    simp only [List.nil_append, List.append_nil] at h1 h2
    rw [h1, h2]
  obtain ⟨x, xs, hx, hxs⟩ := hsahead
  have hfirst : splitDots [] (sa ++ '.' :: '.' :: sb) = some ([] ++ sa, sb) :=
    splitDots_first (by simp [hx]) (fun j _ hj => afterDots_none_inside hdd' hsalast he hed hj _)
      hend
  have hcut' : rangeSplit ('(' :: ([] ++ (sa ++ '.' :: '.' :: sb) ++ [')'])) = some ([] ++ sa, sb) :=
    rangeSplit_of_splitDots (by simp) (by rw [hx]; simpa using hxs) hfirst
  rw [hsq, ← hsa, ← hsb]
  simpa using hcut'

/-! ### The reader's tests -/

/-- The literal tests of the reader take the stripped text `t` as the literal or method literal
`o`. -/
def LiteralText (t : List Char) (o : Operand) : Prop :=
  reservedWord? (String.ofList t) = some o ∨
    (∃ inside, quoted? t = some inside ∧ o = .literal (.str (String.ofList inside)) (String.ofList t)) ∨
    (∃ n, integer? t = some n ∧ o = .literal (.int n) (String.ofList t)) ∨
    (∃ x, decimal? t = some x ∧ o = .literal (.float x) (String.ofList t))

/-- The stripped text `t` passes none of the literal tests. -/
def NoLiteral (t : List Char) : Prop :=
  reservedWord? (String.ofList t) = none ∧ quoted? t = none ∧ integer? t = none ∧ decimal? t = none

/-- What a text that reads is: a literal, a range of two texts that read, or a path. -/
theorem parseChars_cases {cs : List Char} {o : Operand} (h : parseChars cs = .ok o) :
    strip cs ≠ [] ∧ (LiteralText (strip cs) o ∨ NoLiteral (strip cs) ∧
      ((∃ a b first last, rangeSplit (strip cs) = some (a, b) ∧ parseChars a = .ok first ∧
        parseChars b = .ok last ∧ o = .range first last) ∨
        (rangeSplit (strip cs) = none ∧ parsePath (strip cs) = .ok o))) := by
  rw [parseChars] at h
  simp only at h
  by_cases hnil : (strip cs).isEmpty = true
  · rw [if_pos hnil] at h
    cases h
  rw [if_neg hnil] at h
  refine ⟨by simpa using hnil, ?_⟩
  cases hres : reservedWord? (String.ofList (strip cs)) with
  | some o' =>
    simp only [hres, Except.ok.injEq] at h
    exact .inl (.inl (h ▸ hres))
  | none =>
  simp only [hres] at h
  cases hq : quoted? (strip cs) with
  | some inside =>
    simp only [hq, Except.ok.injEq] at h
    exact .inl (.inr (.inl ⟨inside, hq, h.symm⟩))
  | none =>
  simp only [hq] at h
  cases hi : integer? (strip cs) with
  | some n =>
    simp only [hi] at h
    -- within the digit limit
    have hlim : ∀ (e : SyntaxFault) (b : Prop) [Decidable b],
        (if b then .error e else .ok (literal (.int n) (String.ofList (strip cs)))) = Except.ok o →
          o = literal (.int n) (String.ofList (strip cs)) := by
      intro e b _ h
      split at h
      · cases h
      · exact (Except.ok.inj h).symm
    exact .inl (.inr (.inr (.inl ⟨n, hi, hlim _ _ h⟩)))
  | none =>
  simp only [hi] at h
  cases hd : decimal? (strip cs) with
  | some x =>
    simp only [hd, Except.ok.injEq] at h
    exact .inl (.inr (.inr (.inr ⟨x, hd, h.symm⟩)))
  | none =>
  simp only [hd] at h
  refine .inr ⟨⟨hres, hq, hi, hd⟩, ?_⟩
  split at h
  · rename_i a b hsplit
    split at h
    · cases h
    rename_i first hfirst
    split at h
    · cases h
    rename_i last hlast
    exact .inl ⟨a, b, first, last, hsplit, hfirst, hlast, (Except.ok.inj h).symm⟩
  · rename_i hsplit
    exact .inr ⟨hsplit, h⟩

/-- A stripped text that passes no literal test and splits as a range reads as the range of its
ends. -/
theorem parseChars_of_rangeSplit {t a b : List Char} {first last : Operand} (hstrip : strip t = t)
    (hne : t ≠ []) (hlit : NoLiteral t) (hsplit : rangeSplit t = some (a, b))
    (ha : parseChars a = .ok first) (hb : parseChars b = .ok last) :
    parseChars t = .ok (.range first last) := by
  obtain ⟨hres, hq, hi, hd⟩ := hlit
  rw [parseChars]
  simp only
  rw [hstrip, if_neg (by simpa using hne)]
  simp only [hres, hq, hi, hd]
  split
  · rename_i a' b' hsplit'
    rw [hsplit, Option.some.injEq, Prod.mk.injEq] at hsplit'
    obtain ⟨rfl, rfl⟩ := hsplit'
    simp only [ha, hb]
  · rename_i hsplit'
    rw [hsplit] at hsplit'
    cases hsplit'

/-- A stripped text that passes no literal test and is no range reads as a path. -/
theorem parseChars_of_not_range {t : List Char} (hstrip : strip t = t) (hne : t ≠ [])
    (hlit : NoLiteral t) (hsplit : rangeSplit t = none) : parseChars t = parsePath t := by
  obtain ⟨hres, hq, hi, hd⟩ := hlit
  rw [parseChars]
  simp only
  rw [hstrip, if_neg (by simpa using hne)]
  simp only [hres, hq, hi, hd]
  split
  · rename_i a' b' hsplit'
    rw [hsplit] at hsplit'
    cases hsplit'
  · rfl

/-- A text starting with `(` or `[` passes no literal test. -/
theorem noLiteral_of_bracket {c : Char} {cs : List Char} (hc : c = '(' ∨ c = '[') :
    NoLiteral (c :: cs) := by
  have h : isNameStart c = false ∧ c ≠ '"' ∧ c ≠ '\'' ∧ c ≠ '-' ∧ c ≠ '.' ∧ isDigit c = false := by
    rcases hc with rfl | rfl <;> decide
  obtain ⟨h1, h2, h3, h4, h5, h6⟩ := h
  exact ⟨Token.reservedWord?_none (c := c) (by simp) h1, Token.quoted?_none ⟨h2, h3⟩,
    Token.integer?_none (by simp) h4 h6, Token.decimal?_none (by simp) h4 h5 h6⟩

theorem markup_of_reservedWord? {s : String} {o : Operand} (h : reservedWord? s = some o) :
    o.markup = s := by
  unfold reservedWord? at h
  split at h
  · cases h
    rfl
  split at h
  · cases h
    rfl
  split at h
  · cases h
    rfl
  split at h
  · rename_i hs
    cases h
    rw [hs]
    rfl
  split at h
  · rename_i hs
    cases h
    rw [hs]
    rfl
  · cases h

namespace LiteralText

variable {t : List Char} {o : Operand}

theorem markup (h : LiteralText t o) : o.markup = String.ofList t := by
  rcases h with h | ⟨_, _, rfl⟩ | ⟨_, _, rfl⟩ | ⟨_, _, rfl⟩
  · exact markup_of_reservedWord? h
  all_goals rfl

/-- The characters of a literal text other than a quoted text. -/
theorem chars (h : LiteralText t o) (hq : ∀ inside, quoted? t ≠ some inside) :
    ∀ c ∈ t, isNameStart c = true ∨ c = '-' ∨ c = '.' ∨ isDigit c = true := by
  intro c hc
  rcases h with h | ⟨inside, h, -⟩ | ⟨_, h, -⟩ | ⟨_, h, -⟩
  · exact .inl (reservedWord?_some h c (by simpa using hc))
  · exact absurd h (hq inside)
  · rcases integer?_some h c hc with h | h
    · exact .inr (.inl h)
    · exact .inr (.inr (.inr h))
  · rcases decimal?_some h c hc with h | h | h
    · exact .inr (.inl h)
    · exact .inr (.inr (.inl h))
    · exact .inr (.inr (.inr h))

/-- A literal text has no white space outside its quotes. -/
theorem squeeze_eq (h : LiteralText t o) : squeeze t = t := by
  by_cases hquote : ∃ inside, quoted? t = some inside
  · obtain ⟨inside, hqt⟩ := hquote
    obtain ⟨q, hq, hin, rfl⟩ := quoted?_some hqt
    exact squeeze_quoted hq hin
  · have hfirm : ∀ c ∈ t, isSpace c = false ∧ c ≠ '"' ∧ c ≠ '\'' := by
      intro c hc
      rcases h.chars (fun i hi => hquote ⟨i, hi⟩) c hc with h | rfl | rfl | h
      · obtain ⟨-, -, h1, h2, h3, -⟩ := of_isNameStart h
        exact ⟨h1, h2, h3⟩
      · decide
      · decide
      · exact ⟨(of_isDigit h).1, (plain_of_isDigit h).1, (plain_of_isDigit h).2.1⟩
    simpa using squeeze_firm hfirm []

end LiteralText

/-- A decimal text starts with a sign or a digit and ends with a digit. -/
theorem decimal?_ends {cs : List Char} {x : Binary64} (h : decimal? cs = some x) :
    cs.head? ≠ some '.' ∧ ∃ ys d, cs = ys ++ [d] ∧ isDigit d = true := by
  -- the body after the sign: digits, a point, and digits
  have hbody : ∀ body : List Char, (isDigits (body.takeWhile (· != '.')) &&
      body.drop (body.takeWhile (· != '.')).length != [] &&
      isDigits (body.drop ((body.takeWhile (· != '.')).length + 1))) = true →
      body.head? ≠ some '.' ∧ ∃ ys d, body = ys ++ [d] ∧ isDigit d = true := by
    intro body hb
    simp only [isDigits, Bool.and_eq_true, Bool.not_eq_true', List.all_eq_true, bne_iff_ne,
      ne_eq] at hb
    obtain ⟨⟨⟨hwne, -⟩, -⟩, hfne, hf⟩ := hb
    refine ⟨?_, ?_⟩
    · intro hhead
      obtain ⟨rest, rfl⟩ : ∃ rest, body = '.' :: rest := by
        cases body with
        | nil => cases hhead
        | cons c rest => simp only [List.head?_cons, Option.some.injEq] at hhead; exact ⟨rest, by rw [hhead]⟩
      simp at hwne
    · obtain ⟨f, hfeq⟩ : ∃ f, f = body.drop ((body.takeWhile (· != '.')).length + 1) := ⟨_, rfl⟩
      rw [← hfeq] at hfne hf
      have hne : f ≠ [] := by simpa using hfne
      obtain ⟨ys, d, rfl⟩ := List.eq_nil_or_concat f |>.resolve_left hne
      refine ⟨body.take ((body.takeWhile (· != '.')).length + 1) ++ ys, d, ?_, hf d (by simp)⟩
      rw [List.append_assoc, ← List.concat_eq_append, hfeq, List.take_append_drop]
  unfold decimal? at h
  simp only [Option.pure_def, Option.bind_eq_bind] at h
  split at h
  · rename_i rest
    simp only [Option.bind_some] at h
    split at h
    · rename_i hb
      obtain ⟨-, ys, d, rfl, hd⟩ := hbody rest hb
      exact ⟨by simp, '-' :: ys, d, rfl, hd⟩
    · cases h
  · simp only [Option.bind_some] at h
    split at h
    · rename_i hb
      exact hbody cs hb
    · cases h

theorem ends_of_forall {t : List Char} (h : ∀ c ∈ t, c ≠ '.') :
    t.head? ≠ some '.' ∧ t.getLast? ≠ some '.' :=
  ⟨fun hh => h _ (List.mem_of_head? hh) rfl, fun hl => h _ (List.mem_of_getLast? hl) rfl⟩

/-- A literal text neither starts nor ends with a point. -/
theorem LiteralText.ends {t : List Char} {o : Operand} (h : LiteralText t o) :
    t.head? ≠ some '.' ∧ t.getLast? ≠ some '.' := by
  rcases h with h | ⟨inside, h, -⟩ | ⟨_, h, -⟩ | ⟨_, h, -⟩
  · exact ends_of_forall fun c hc => (of_isNameStart (reservedWord?_some h c (by simpa using hc))).2.2.2.2.2.2.1
  · obtain ⟨q, hq, -, rfl⟩ := quoted?_some h
    have hqd : q ≠ '.' := by rcases hq with rfl | rfl <;> decide
    refine ⟨by simpa using hqd, ?_⟩
    rw [List.getLast?_concat]
    simpa using hqd
  · refine ends_of_forall fun c hc => ?_
    rcases integer?_some h c hc with rfl | hd
    · decide
    · exact (of_isDigit hd).2.1
  · obtain ⟨hhead, ys, d, rfl, hd⟩ := decimal?_ends h
    exact ⟨hhead, by simpa using (of_isDigit hd).2.1⟩

theorem strip_strip (cs : List Char) : strip (strip cs) = strip cs := by
  by_cases h : strip cs = []
  · rw [h]
    rfl
  · obtain ⟨hhead, hlast⟩ := strip_ends h
    simpa using Token.strip_pad (l := []) (g := []) (by simp) (by simp) hhead hlast

/-! ### Names and keys -/

/-- A lookup key: name characters, perhaps closed by `?`. -/
def IsKey (v : List Char) : Prop :=
  ∃ body, body ≠ [] ∧ (∀ x ∈ body, isNameChar x = true) ∧ (v = body ∨ v = body ++ ['?'])

theorem spanKey_isKey {cs key rest : List Char} (h : spanKey cs = some (key, rest)) :
    cs = key ++ rest ∧ IsKey key := by
  refine ⟨(spanKey_some h).1, ?_⟩
  have hbody : ∀ x ∈ cs.takeWhile isNameChar, isNameChar x = true :=
    List.all_eq_true.1 List.all_takeWhile
  unfold spanKey at h
  split at h
  · cases h
  rename_i hne
  have hne' : cs.takeWhile isNameChar ≠ [] := by simpa using hne
  split at h
  · simp only [Option.some.injEq, Prod.mk.injEq] at h
    exact ⟨_, hne', hbody, .inr h.1.symm⟩
  · simp only [Option.some.injEq, Prod.mk.injEq] at h
    exact ⟨_, hne', hbody, .inl h.1.symm⟩

theorem spanKey_of_isKey {v w : List Char} (hv : IsKey v) (hw : StopsName w) :
    spanKey (v ++ w) = some (v, w) := by
  obtain ⟨body, hne, hbody, hv⟩ := hv
  have hne' : body.isEmpty = false := by simpa using hne
  rcases hv with rfl | rfl
  · simp only [spanKey, List.takeWhile_append_of_pos hbody, List.dropWhile_append_of_pos hbody,
      hw.takeWhile_eq, hw.dropWhile_eq, List.append_nil, hne', Bool.false_eq_true, if_false]
    split
    · exact absurd rfl (hw '?' rfl).2
    · rfl
  · have hstop : ¬ isNameChar '?' = true := by simp [isNameChar_question]
    simp only [spanKey, List.append_assoc, List.singleton_append,
      List.takeWhile_append_of_pos hbody, List.dropWhile_append_of_pos hbody,
      List.takeWhile_cons_of_neg hstop, List.dropWhile_cons_of_neg hstop, List.append_nil, hne',
      Bool.false_eq_true, if_false]

/-- Name characters and `?` are neither white space, quotes nor points. -/
theorem firm_of_nameChar {c : Char} (h : isNameChar c = true ∨ c = '?') :
    isSpace c = false ∧ c ≠ '"' ∧ c ≠ '\'' ∧ c ≠ '.' := by
  rcases h with h | rfl
  · exact ⟨(of_isNameChar h).1, (plain_of_isNameChar h).1, (plain_of_isNameChar h).2.1,
      (of_isNameChar h).2.1⟩
  · decide

theorem IsKey.chars {v : List Char} (hv : IsKey v) :
    ∀ c ∈ v, isSpace c = false ∧ c ≠ '"' ∧ c ≠ '\'' ∧ c ≠ '.' := by
  obtain ⟨body, -, hbody, rfl | rfl⟩ := hv
  · exact fun c hc => firm_of_nameChar (.inl (hbody c hc))
  · intro c hc
    rcases List.mem_append.1 hc with hc | hc
    · exact firm_of_nameChar (.inl (hbody c hc))
    · exact firm_of_nameChar (.inr (by simpa using hc))

theorem IsKey.ne_nil {v : List Char} (hv : IsKey v) : v ≠ [] := by
  obtain ⟨body, hne, -, rfl | rfl⟩ := hv
  · exact hne
  · simp

/-- A point and a key hold no white space and no quote, so squeezing keeps them. -/
theorem IsKey.firm_dot {v : List Char} (hv : IsKey v) :
    ∀ c ∈ '.' :: v, isSpace c = false ∧ c ≠ '"' ∧ c ≠ '\'' := by
  intro c hc
  rcases List.mem_cons.1 hc with rfl | hc
  · decide
  · exact ⟨(hv.chars c hc).1, (hv.chars c hc).2.1, (hv.chars c hc).2.2.1⟩

theorem IsName.chars {v : List Char} (hv : IsName v) :
    ∀ c ∈ v, isSpace c = false ∧ c ≠ '"' ∧ c ≠ '\'' ∧ c ≠ '.' :=
  fun c hc => firm_of_nameChar (hv.nameChar_or_question c hc)

/-- A name holds no white space and no quote, so squeezing keeps it. -/
theorem IsName.firm {v : List Char} (hv : IsName v) :
    ∀ c ∈ v, isSpace c = false ∧ c ≠ '"' ∧ c ≠ '\'' :=
  fun c hc => ⟨(hv.chars c hc).1, (hv.chars c hc).2.1, (hv.chars c hc).2.2.1⟩

theorem IsName.head {v : List Char} (hv : IsName v) :
    ∃ x xs, v = x :: xs ∧ isNameStart x = true := by
  obtain ⟨c, body, hc, -, rfl | rfl⟩ := hv
  · exact ⟨c, body, rfl, hc⟩
  · exact ⟨c, body ++ ['?'], rfl, hc⟩

theorem IsName.ne_nil {v : List Char} (hv : IsName v) : v ≠ [] := by
  obtain ⟨c, body, -, -, rfl | rfl⟩ := hv <;> simp

/-- Lookups that read start with a point or a bracket, or are no text at all. -/
theorem parseLookups_head {whole : List Char} {root : Key} {done : List Key} {cs : List Char}
    {o : Operand} (h : parseLookups whole root done cs = .ok o) :
    cs = [] ∨ ∃ x r, cs = x :: r ∧ (x = '.' ∨ x = '[') := by
  cases cs with
  | nil => exact .inl rfl
  | cons c r =>
    by_cases hdot : c = '.'
    · exact .inr ⟨c, r, rfl, .inl hdot⟩
    by_cases hbr : c = '['
    · exact .inr ⟨c, r, rfl, .inr hbr⟩
    rw [parseLookups.eq_4 _ _ _ _ _ hdot hbr] at h
    cases h

/-- A point or a bracket stays in front of the squeezed rest. -/
theorem squeeze_lookups {cs : List Char} (h : cs = [] ∨ ∃ x r, cs = x :: r ∧ (x = '.' ∨ x = '[')) :
    squeeze cs = [] ∨ ∃ x r, squeeze cs = x :: r ∧ (x = '.' ∨ x = '[') := by
  rcases h with rfl | ⟨x, r, rfl, hx⟩
  · exact .inl rfl
  · have hfirm : ∀ c ∈ [x], isSpace c = false ∧ c ≠ '"' ∧ c ≠ '\'' := by
      rcases hx with rfl | rfl <;> exact Text.forall_mem_of_all (by decide)
    exact .inr ⟨x, squeeze r, by simpa using squeeze_firm hfirm r, hx⟩

theorem stopsName_of_lookups {cs : List Char} (h : cs = [] ∨ ∃ x r, cs = x :: r ∧ (x = '.' ∨ x = '[')) :
    StopsName cs := by
  rcases h with rfl | ⟨x, r, rfl, hx⟩
  · intro x hx
    cases hx
  · intro y hy
    simp only [List.head?_cons, Option.some.injEq] at hy
    subst hy
    rcases hx with rfl | rfl <;> decide

/-! ### Two points in a row -/

theorem not_dotDot_of_forall {x : List Char} (h : ∀ c ∈ x, c ≠ '.') : ¬ DotDot x := by
  rintro ⟨s, t, rfl⟩
  exact h '.' (by simp) rfl

theorem DotDot.of_cons {c : Char} {x : List Char} (h : DotDot (c :: x)) (hc : c ≠ '.') : DotDot x := by
  rcases List.infix_cons_iff.1 h with hp | hi
  · rw [List.cons_prefix_cons] at hp
    exact absurd hp.1.symm hc
  · exact hi

theorem getLast?_append_ne {x y : List Char} {c : Char} (hx : x.getLast? ≠ some c)
    (hy : y.getLast? ≠ some c) : (x ++ y).getLast? ≠ some c := by
  rw [List.getLast?_append]
  cases hl : y.getLast? with
  | none => simpa using hx
  | some e => simpa [hl] using hy

/-- Before lookups: a text without white space, quotes or two points in a row. -/
theorem dotDot_firm_append {v rest : List Char}
    (hfirm : ∀ c ∈ v, isSpace c = false ∧ c ≠ '"' ∧ c ≠ '\'') (hv : ¬ DotDot v)
    (hlast : v.getLast? ≠ some '.') (hr : DotDot (squeeze rest) → DotDot rest) :
    DotDot (squeeze (v ++ rest)) → DotDot (v ++ rest) := by
  rw [squeeze_firm hfirm]
  intro hd
  rcases hd.append with hd | hd | ⟨hl, -⟩
  · exact absurd hd hv
  · exact (hr hd).trans (List.suffix_append v rest).isInfix
  · exact absurd hl hlast

theorem dotDot_bracket {inside rest : List Char} (hin : Balanced inside)
    (hi : DotDot (squeeze inside) → DotDot inside) (hr : DotDot (squeeze rest) → DotDot rest) :
    DotDot (squeeze ('[' :: inside ++ ']' :: rest)) → DotDot ('[' :: inside ++ ']' :: rest) := by
  rw [squeeze_bracket hin]
  intro hd
  rcases hd.append with hd | hd | ⟨-, hh⟩
  · exact (hi (hd.of_cons (by decide))).trans (List.infix_append ['['] inside _)
  · have hsuf : rest <:+ '[' :: inside ++ ']' :: rest :=
      (List.suffix_cons ']' rest).trans (List.suffix_append ('[' :: inside) (']' :: rest))
    exact (hr (hd.of_cons (by decide))).trans hsuf.isInfix
  · cases hh

/-! ### Points in a text that reads -/

theorem strip_inside (cs : List Char) : strip cs <:+: cs := by
  obtain ⟨l, r, hcs, -, -⟩ := strip_spec cs
  have h := List.infix_append l (strip cs) r
  rwa [← hcs] at h

theorem getLast?_bracket (inside : List Char) {rest : List Char} (hrest : rest.getLast? ≠ some '.') :
    ('[' :: inside ++ ']' :: rest).getLast? ≠ some '.' := by
  have hsplit : '[' :: inside ++ ']' :: rest = ('[' :: inside ++ [']']) ++ rest := by simp
  rw [hsplit]
  exact getLast?_append_ne (by rw [List.getLast?_concat]; simp) hrest

mutual

/-- A text that reads neither starts nor ends with a point, and squeezing its white space out
puts no two points next to each other. -/
theorem dots_of_parseChars {cs : List Char} {o : Operand} (h : parseChars cs = .ok o) :
    (strip cs).head? ≠ some '.' ∧ (strip cs).getLast? ≠ some '.' ∧
      (DotDot (squeeze cs) → DotDot cs) := by
  have hlen := length_strip_le cs
  obtain ⟨-, hcases⟩ := parseChars_cases h
  rw [squeeze_strip (balanced_of_parseChars h)]
  rcases hcases with hlit | ⟨-, ⟨a, b, first, last, hsplit, hfirst, hlast, -⟩ | ⟨-, hpath⟩⟩
  · obtain ⟨hh, hl⟩ := hlit.ends
    refine ⟨hh, hl, fun hd => ?_⟩
    rw [hlit.squeeze_eq] at hd
    exact hd.trans (strip_inside cs)
  · -- a range holds its own `..`
    obtain ⟨lead, g, l, r, ht, -⟩ := rangeSplit_layout hsplit (strip_ne_nil_of_parseChars hfirst)
      (strip_ne_nil_of_parseChars hlast)
    refine ⟨by rw [ht]; simp, by rw [ht, ← List.cons_append, List.getLast?_concat]; simp,
      fun _ => ?_⟩
    refine List.IsInfix.trans ⟨'(' :: lead ++ a ++ g, l ++ b ++ r ++ [')'], ?_⟩ (strip_inside cs)
    rw [ht]
    simp
  · obtain ⟨hh, hl, hd⟩ := dots_of_parsePath hpath
    exact ⟨hh, hl, fun h => (hd h).trans (strip_inside cs)⟩
termination_by 2 * cs.length + 1

theorem dots_of_parsePath {t : List Char} {o : Operand} (h : parsePath t = .ok o) :
    t.head? ≠ some '.' ∧ t.getLast? ≠ some '.' ∧ (DotDot (squeeze t) → DotDot t) := by
  rw [parsePath] at h
  split at h
  · rename_i inside rest hspan
    have hlen := length_spanBracket hspan
    split at h
    · cases h
    rename_i root hroot
    obtain ⟨-, -, hin⟩ := dots_of_parseChars hroot
    obtain ⟨hrl, hrest⟩ := dots_of_parseLookups h
    rw [spanBracket_some hspan]
    exact ⟨by simp, getLast?_bracket inside hrl,
      dotDot_bracket (balanced_of_parseChars hroot) hin hrest⟩
  · split at h
    · cases h
    split at h
    · rename_i name rest hspan
      have hlen := length_spanName hspan
      obtain ⟨rfl, hv, -⟩ := spanName_some hspan
      obtain ⟨hrl, hrest⟩ := dots_of_parseLookups h
      have hchars := hv.chars
      have hends := ends_of_forall fun c hc => (hchars c hc).2.2.2
      obtain ⟨c, cs, hc⟩ := List.exists_cons_of_ne_nil hv.ne_nil
      refine ⟨?_, getLast?_append_ne hends.2 hrl, dotDot_firm_append hv.firm
        (not_dotDot_of_forall fun c hc => (hchars c hc).2.2.2) hends.2 hrest⟩
      rw [hc]
      simpa [hc] using hends.1
    · cases h
termination_by 2 * t.length

theorem dots_of_parseLookups {whole : List Char} {root : Key} {done : List Key} {cs : List Char}
    {o : Operand} (h : parseLookups whole root done cs = .ok o) :
    cs.getLast? ≠ some '.' ∧ (DotDot (squeeze cs) → DotDot cs) := by
  cases cs with
  | nil => exact ⟨by simp, fun hd => absurd hd (not_dotDot_of_forall (by simp))⟩
  | cons c rest =>
    by_cases hdot : c = '.'
    · -- a point and a key
      subst hdot
      rw [parseLookups.eq_2] at h
      split at h
      · rename_i key after hkey
        have hlen := length_spanKey hkey
        obtain ⟨rfl, hk⟩ := spanKey_isKey hkey
        obtain ⟨hal, hafter⟩ := dots_of_parseLookups h
        have hchars := hk.chars
        obtain ⟨e, es, he⟩ := List.exists_cons_of_ne_nil hk.ne_nil
        -- the point is followed by the key's first character, no point
        have hkey : ¬ DotDot ('.' :: key) := by
          intro hd
          rcases List.infix_cons_iff.1 hd with hp | hi
          · rw [he, List.cons_prefix_cons, List.cons_prefix_cons] at hp
            exact (hchars e (by simp [he])).2.2.2 hp.2.1.symm
          · exact not_dotDot_of_forall (fun c hc => (hchars c hc).2.2.2) hi
        have hlast : ('.' :: key).getLast? ≠ some '.' := by
          rw [he, List.getLast?_cons_cons, ← he]
          exact (ends_of_forall fun c hc => (hchars c hc).2.2.2).2
        rw [← List.cons_append]
        exact ⟨getLast?_append_ne hlast hal, dotDot_firm_append hk.firm_dot hkey hlast hafter⟩
      · cases h
    by_cases hbr : c = '['
    · -- an operand in brackets
      subst hbr
      rw [parseLookups.eq_3] at h
      split at h
      · rename_i inside after hspan
        have hlen : inside.length < rest.length + 1 ∧ after.length < rest.length + 1 := by
          simpa using length_spanBracket hspan
        split at h
        · cases h
        rename_i key hkey
        obtain ⟨-, -, hin⟩ := dots_of_parseChars hkey
        obtain ⟨hal, hafter⟩ := dots_of_parseLookups h
        rw [spanBracket_some hspan]
        exact ⟨getLast?_bracket inside hal,
          dotDot_bracket (balanced_of_parseChars hkey) hin hafter⟩
      · cases h
    · rw [parseLookups.eq_4 _ _ _ _ _ hdot hbr] at h
      cases h
termination_by 2 * cs.length
decreasing_by
  all_goals
    subst_vars
    simp only [List.length_cons]
    omega

end

/-! ### The markup of what a text reads as -/

mutual

/-- The markup of what a text reads as is the text without the white space outside quotes. -/
theorem markup_of_parseChars {cs : List Char} {o : Operand} (h : parseChars cs = .ok o) :
    o.markup.toList = squeeze cs := by
  have hlen := length_strip_le cs
  obtain ⟨-, hcases⟩ := parseChars_cases h
  rw [squeeze_strip (balanced_of_parseChars h)]
  rcases hcases with hlit | ⟨-, ⟨a, b, first, last, hsplit, hfirst, hlast, rfl⟩ | ⟨-, hpath⟩⟩
  · rw [hlit.markup, hlit.squeeze_eq, String.toList_ofList]
  · have hab := length_rangeSplit hsplit
    rw [squeeze_of_rangeSplit hsplit (strip_ne_nil_of_parseChars hfirst)
      (strip_ne_nil_of_parseChars hlast) (balanced_of_parseChars hfirst)
      (balanced_of_parseChars hlast), ← markup_of_parseChars hfirst, ← markup_of_parseChars hlast]
    simp [Operand.markup]
  · exact markup_of_parsePath hpath
termination_by 2 * cs.length + 1

theorem markup_of_parsePath {t : List Char} {o : Operand} (h : parsePath t = .ok o) :
    o.markup.toList = squeeze t := by
  rw [parsePath] at h
  split at h
  · rename_i inside rest hspan
    have hlen := length_spanBracket hspan
    split at h
    · cases h
    rename_i root hroot
    obtain ⟨ks, rfl, hks⟩ := markup_of_parseLookups h
    rw [spanBracket_some hspan, squeeze_bracket (balanced_of_parseChars hroot),
      ← markup_of_parseChars hroot, ← hks]
    simp [Operand.markup, Key.rootMarkup]
  · split at h
    · cases h
    split at h
    · rename_i name rest hspan
      have hlen := length_spanName hspan
      obtain ⟨rfl, hv, -⟩ := spanName_some hspan
      obtain ⟨ks, rfl, hks⟩ := markup_of_parseLookups h
      rw [squeeze_firm hv.firm, ← hks]
      simp [Operand.markup, Key.rootMarkup]
    · cases h
termination_by 2 * t.length

theorem markup_of_parseLookups {whole : List Char} {root : Key} {done : List Key}
    {cs : List Char} {o : Operand} (h : parseLookups whole root done cs = .ok o) :
    ∃ ks, o = .path root (done.reverse ++ ks) ∧ (Key.lookupsMarkup ks).toList = squeeze cs := by
  cases cs with
  | nil =>
    rw [parseLookups.eq_1] at h
    cases h
    exact ⟨[], by simp, rfl⟩
  | cons c rest =>
    by_cases hdot : c = '.'
    · subst hdot
      rw [parseLookups.eq_2] at h
      split at h
      · rename_i key after hkey
        have hlen := length_spanKey hkey
        obtain ⟨rfl, hk⟩ := spanKey_isKey hkey
        obtain ⟨ks, rfl, hks⟩ := markup_of_parseLookups h
        refine ⟨.name (String.ofList key) :: ks, by simp, ?_⟩
        rw [← List.cons_append, squeeze_firm hk.firm_dot, ← hks]
        simp [Key.lookupsMarkup]
      · cases h
    by_cases hbr : c = '['
    · subst hbr
      rw [parseLookups.eq_3] at h
      split at h
      · rename_i inside after hspan
        have hlen : inside.length < rest.length + 1 ∧ after.length < rest.length + 1 := by
          simpa using length_spanBracket hspan
        split at h
        · cases h
        rename_i key hkey
        obtain ⟨ks, rfl, hks⟩ := markup_of_parseLookups h
        refine ⟨.index key :: ks, by simp, ?_⟩
        rw [spanBracket_some hspan, squeeze_bracket (balanced_of_parseChars hkey),
          ← markup_of_parseChars hkey, ← hks]
        simp [Key.lookupsMarkup]
      · cases h
    · rw [parseLookups.eq_4 _ _ _ _ _ hdot hbr] at h
      cases h
termination_by 2 * cs.length
decreasing_by
  all_goals
    subst_vars
    simp only [List.length_cons]
    omega

end

/-! ### A text without its white space reads the same -/

/-- Squeezing keeps the first and the last character when neither is white space. -/
theorem squeeze_ends {t : List Char} (hhead : ∃ c cs, t = c :: cs ∧ isSpace c = false)
    (hlast : ∃ ys c, t = ys ++ [c] ∧ isSpace c = false) :
    (∃ c cs, squeeze t = c :: cs ∧ t.head? = some c ∧ isSpace c = false) ∧
      ∃ ys c, squeeze t = ys ++ [c] ∧ isSpace c = false := by
  obtain ⟨c, cs, hc, hcs⟩ := hhead
  obtain ⟨ys, e, he, hes⟩ := hlast
  exact ⟨⟨c, _, by rw [hc, squeeze_cons hcs], by simp [hc], hcs⟩,
    ⟨squeeze ys, e, by rw [he, squeeze_concat hes], hes⟩⟩

/-- The first part of a path that reads: a bracketed root, or a name before its lookups. -/
theorem parsePath_shape {t : List Char} {o : Operand} (h : parsePath t = .ok o) :
    (∃ inside rest, t = '[' :: inside ++ ']' :: rest) ∨
      ∃ name rest, t = name ++ rest ∧ IsName name ∧
        (rest = [] ∨ ∃ x r, rest = x :: r ∧ (x = '.' ∨ x = '[')) := by
  rw [parsePath] at h
  split at h
  · rename_i inside rest hspan
    exact .inl ⟨inside, rest, spanBracket_some hspan⟩
  · split at h
    · cases h
    split at h
    · rename_i name rest hspan
      obtain ⟨ht, hv, -⟩ := spanName_some hspan
      exact .inr ⟨name, rest, ht, hv, parseLookups_head h⟩
    · cases h

theorem parsePath_of_bracket {t inside rest : List Char} {root : Operand}
    (hspan : spanBracket t = some (inside, rest)) (hroot : parseChars inside = .ok root) :
    parsePath t = parseLookups t (.index root) [] rest := by
  rw [parsePath]
  split
  · rename_i inside' rest' h
    rw [hspan, Option.some.injEq, Prod.mk.injEq] at h
    obtain ⟨rfl, rfl⟩ := h
    simp only [hroot]
  · rename_i h
    rw [hspan] at h
    cases h

mutual

/-- A text that reads reads the same without the white space outside its quotes. -/
theorem parseChars_squeeze {cs : List Char} {o : Operand} (h : parseChars cs = .ok o) :
    parseChars (squeeze cs) = .ok o := by
  have hlen := length_strip_le cs
  obtain ⟨hne, hcases⟩ := parseChars_cases h
  obtain ⟨hhead, hlast⟩ := strip_ends hne
  obtain ⟨⟨c, cs', hsq, hc, hcs⟩, hsqlast⟩ := squeeze_ends hhead hlast
  -- the squeezed text neither starts nor ends with white space
  have hstrip : strip (squeeze (strip cs)) = squeeze (strip cs) := by
    simpa using Token.strip_pad (l := []) (g := []) (by simp) (by simp) ⟨c, cs', hsq, hcs⟩ hsqlast
  have hsqne : squeeze (strip cs) ≠ [] := by simp [hsq]
  rw [squeeze_strip (balanced_of_parseChars h)]
  rcases hcases with hlit | ⟨hlit, ⟨a, b, first, last, hsplit, hfirst, hlast, rfl⟩ | ⟨hnone, hpath⟩⟩
  · rw [hlit.squeeze_eq, ← h]
    exact Token.parseChars_congr (strip_strip cs)
  · -- a range: cut where it was, both ends read again
    have hab := length_rangeSplit hsplit
    have hsa := strip_ne_nil_of_parseChars hfirst
    have hsb := strip_ne_nil_of_parseChars hlast
    obtain ⟨hh, hl, hdd⟩ := dots_of_parseChars hfirst
    have hsq' := squeeze_of_rangeSplit hsplit hsa hsb (balanced_of_parseChars hfirst)
      (balanced_of_parseChars hlast)
    refine parseChars_of_rangeSplit hstrip hsqne (by rw [hsq']; exact noLiteral_of_bracket (.inl rfl))
      (rangeSplit_squeeze hsplit hsa hsb (balanced_of_parseChars hfirst)
        (balanced_of_parseChars hlast) hh hl hdd) (parseChars_squeeze hfirst)
      (parseChars_squeeze hlast)
  · -- a path: its first character starts no literal and no range
    rcases parsePath_shape hpath with ⟨inside, rest, ht⟩ | ⟨name, rest, ht, hv, hrest⟩
    · rw [ht] at hc
      cases hc
      rw [parseChars_of_not_range hstrip hsqne (by rw [hsq]; exact noLiteral_of_bracket (.inr rfl))
        (by rw [hsq]; exact Token.rangeSplit_none (by decide))]
      exact parsePath_squeeze hpath
    · obtain ⟨x, xs, hx, hxs⟩ := hv.head
      rw [ht, hx] at hc
      cases hc
      obtain ⟨-, hdig, -, hq1, hq2, hmin, hdot, hpar, -, -⟩ := of_isNameStart hxs
      have hname : squeeze (strip cs) = name ++ squeeze rest := by
        rw [ht, squeeze_firm hv.firm]
      -- a name alone is no reserved word; with lookups, a point or a bracket is in the text
      have hres : reservedWord? (String.ofList (squeeze (strip cs))) = none := by
        rcases hrest with rfl | ⟨y, r, rfl, hy⟩
        · rw [hname, squeeze_nil, List.append_nil]
          have hres := hlit.1
          rwa [ht, List.append_nil] at hres
        · have hfirm : ∀ c ∈ [y], isSpace c = false ∧ c ≠ '"' ∧ c ≠ '\'' := by
            rcases hy with rfl | rfl <;> exact Text.forall_mem_of_all (by decide)
          have hyr : squeeze (y :: r) = y :: squeeze r := by simpa using squeeze_firm hfirm r
          refine Token.reservedWord?_none (c := y) (by rw [String.toList_ofList, hname, hyr]; simp) ?_
          rcases hy with rfl | rfl <;> decide
      rw [parseChars_of_not_range hstrip hsqne
        ⟨hres, by rw [hsq]; exact Token.quoted?_none ⟨hq1, hq2⟩,
          Token.integer?_none (by simp [hsq]) hmin hdig, Token.decimal?_none (by simp [hsq]) hmin hdot hdig⟩
        (by rw [hsq]; exact Token.rangeSplit_none hpar)]
      exact parsePath_squeeze hpath
termination_by 2 * cs.length + 1

theorem parsePath_squeeze {t : List Char} {o : Operand} (h : parsePath t = .ok o) :
    parsePath (squeeze t) = .ok o := by
  rw [parsePath] at h
  split at h
  · rename_i inside rest hspan
    have hlen := length_spanBracket hspan
    split at h
    · cases h
    rename_i root hroot
    have ht := spanBracket_some hspan
    have hin := balanced_of_parseChars hroot
    rw [ht] at hspan
    rw [ht, parsePath_of_bracket (spanBracket_squeeze hin hspan) (parseChars_squeeze hroot)]
    exact parseLookups_squeeze h _
  · split at h
    · cases h
    split at h
    · rename_i name rest hspan
      have hlen := length_spanName hspan
      obtain ⟨rfl, hv, -⟩ := spanName_some hspan
      obtain ⟨x, xs, hx⟩ := List.exists_cons_of_ne_nil hv.ne_nil
      have hxs : isNameStart x = true := by
        obtain ⟨c, body, hc, -, hv'⟩ := hv
        rcases hv' with rfl | rfl <;> simp only [List.cons_append, List.cons.injEq] at hx <;>
          exact hx.1 ▸ hc
      have hxb : x ≠ '[' := (of_isNameStart hxs).2.2.2.2.2.2.2.2.1
      rw [squeeze_firm hv.firm]
      rw [Token.parsePath_of_spanName (by rw [hx]; exact Token.spanBracket_none hxb)
        (by rw [hx]; simpa using hxb)
        (spanName_append hv (stopsName_of_lookups (squeeze_lookups (parseLookups_head h))))]
      exact parseLookups_squeeze h _
    · cases h
termination_by 2 * t.length

theorem parseLookups_squeeze {whole : List Char} {root : Key} {done : List Key}
    {cs : List Char} {o : Operand} (h : parseLookups whole root done cs = .ok o)
    (whole' : List Char) : parseLookups whole' root done (squeeze cs) = .ok o := by
  cases cs with
  | nil =>
    rw [parseLookups.eq_1] at h
    rw [squeeze_nil, parseLookups.eq_1]
    exact h
  | cons c rest =>
    by_cases hdot : c = '.'
    · -- a point and a key: squeezing keeps both, and the squeezed text starts with the same key
      subst hdot
      rw [parseLookups.eq_2] at h
      split at h
      · rename_i key after hkey
        have hlen := length_spanKey hkey
        obtain ⟨rfl, hk⟩ := spanKey_isKey hkey
        have hkey' := spanKey_of_isKey hk (stopsName_of_lookups (squeeze_lookups (parseLookups_head h)))
        rw [← List.cons_append, squeeze_firm hk.firm_dot, List.cons_append, parseLookups.eq_2]
        split
        · rename_i key' after' hkey''
          rw [hkey', Option.some.injEq, Prod.mk.injEq] at hkey''
          obtain ⟨rfl, rfl⟩ := hkey''
          exact parseLookups_squeeze h whole'
        · rename_i hnone
          rw [hkey'] at hnone
          cases hnone
      · cases h
    by_cases hbr : c = '['
    · -- a key in brackets: its inside reads, so it is balanced, squeezing keeps its `]`, and the
      -- squeezed inside reads as the same operand
      subst hbr
      rw [parseLookups.eq_3] at h
      split at h
      · rename_i inside after hspan
        have hlen : inside.length < rest.length + 1 ∧ after.length < rest.length + 1 := by
          simpa using length_spanBracket hspan
        split at h
        · cases h
        rename_i key hkey
        have ht := spanBracket_some hspan
        have hin := balanced_of_parseChars hkey
        rw [ht] at hspan
        have hspan' := spanBracket_squeeze hin hspan
        rw [squeeze_bracket hin] at hspan'
        rw [ht, squeeze_bracket hin, List.cons_append, parseLookups.eq_3]
        split
        · rename_i inside' after' hspan''
          rw [← List.cons_append, hspan', Option.some.injEq, Prod.mk.injEq] at hspan''
          obtain ⟨rfl, rfl⟩ := hspan''
          simp only [parseChars_squeeze hkey]
          exact parseLookups_squeeze h whole'
        · rename_i hnone
          rw [← List.cons_append, hspan'] at hnone
          cases hnone
      · cases h
    · rw [parseLookups.eq_4 _ _ _ _ _ hdot hbr] at h
      cases h
termination_by 2 * cs.length
decreasing_by
  all_goals
    subst_vars
    simp only [List.length_cons]
    omega

end

/-- An operand read from a text reads back from its markup. -/
theorem parse_markup {s : String} {o : Operand} (h : parse s = .ok o) : parse o.markup = .ok o := by
  rw [parse] at h ⊢
  rw [markup_of_parseChars h]
  exact parseChars_squeeze h

/-- `( 1 .. x[ 'a b' ] )` reads as a range whose last end is a path with a bracketed key; its
markup `(1..x['a b'])` reads back as the same range. -/
theorem parse_markup_spaced_range :
    parse "( 1 .. x[ 'a b' ] )" =
        .ok (.range (.literal (.int 1) "1") (.path (.name "x") [.index (.literal (.str "a b") "'a b'")])) ∧
      parse (Operand.range (.literal (.int 1) "1")
          (.path (.name "x") [.index (.literal (.str "a b") "'a b'")])).markup =
        .ok (.range (.literal (.int 1) "1") (.path (.name "x") [.index (.literal (.str "a b") "'a b'")])) :=
  have h : parse "( 1 .. x[ 'a b' ] )" =
      .ok (.range (.literal (.int 1) "1") (.path (.name "x") [.index (.literal (.str "a b") "'a b'")])) := by
    with_unfolding_all rfl
  ⟨h, parse_markup h⟩

example : (parse "( 1 .. x[ 'a b' ] )").map markup = .ok "(1..x['a b'])" := by cbv

end Branching.Operand
