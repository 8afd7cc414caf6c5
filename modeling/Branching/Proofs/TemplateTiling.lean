import Branching.Template.Token

/-!
# The template lexer tiles the template

`Piece.scan` reads a template from left to right. Where an opener `{{` or `{%` stands it reads
markup through the first matching closer after it, and fails when there is none; elsewhere it
reads text up to the next opener or the end. Each token records its position, line and column,
which the scan keeps in a `Place` as it moves.

The reading is stated here without the scanner's accumulator:

* `Piece.Front cs n`: the scan reads `n` characters at the start of `cs`: text up to the first
  opener, or markup through the first closer after its opener.
* `Piece.Reaches s p q`: the scan of the template `s` from position `p` reaches position `q`.
* `Piece.Shaped`: what a token says about its piece of the template. Text is the piece itself
  and holds no opener; markup is the opener, an inner text without the closer, and the closer,
  and its value is the inner text stripped.
* `Piece.Tiled s p ts`: from `p` on, `ts` are the tokens the scan reads, each shaped, and then the
  end token at the end of `s`.
* `IsColumn pre col`: `col` is the column after the text `pre`.

## Main statements

- `Place.After.advance`: the place the scan keeps is the line and column of its position.
- `Piece.front_of_next`, `Piece.next_eq_error_iff`: one step of the scan.
- `Piece.scan_tiles_template`: the scan fails exactly at the first opener it reaches that has no
  closer, naming that opener's line; otherwise its tokens tile the template, each at its line and
  column.
-/

namespace Branching

/-! ### Lines and columns -/

/-- `col` is the column after the text `pre`: its length minus the index of its last line feed,
or its length plus one when it has none. -/
def IsColumn (pre : List Char) (col : Nat) : Prop :=
  (∃ j, pre[j]? = some '\n' ∧ (∀ i, j < i → pre[i]? ≠ some '\n') ∧ col = pre.length - j) ∨
    ('\n' ∉ pre ∧ col = pre.length + 1)

/-- A line feed starts column 1; any other character moves one column on. -/
theorem IsColumn.snoc {pre : List Char} {col : Nat} (h : IsColumn pre col) (c : Char) :
    IsColumn (pre ++ [c]) (if c = '\n' then 1 else col + 1) := by
  by_cases hc : c = '\n'
  · -- the line feed just read is the last one
    subst hc
    refine .inl ⟨pre.length, by simp, fun i hi => ?_, by simp⟩
    rw [List.getElem?_eq_none (by simp; omega)]
    simp
  · rw [if_neg hc]
    rcases h with ⟨j, hj, hlast, rfl⟩ | ⟨hnone, rfl⟩
    · have hjlt : j < pre.length := (List.getElem?_eq_some_iff.1 hj).1
      refine .inl ⟨j, by rw [List.getElem?_append_left hjlt, hj], fun i hi => ?_, by simp; omega⟩
      rcases Nat.lt_or_ge i pre.length with hi' | hi'
      · rw [List.getElem?_append_left hi']
        exact hlast i hi
      · rw [List.getElem?_append_right hi']
        cases h0 : i - pre.length with
        | zero => simpa using hc
        | succ m => simp
    · exact .inr ⟨by simp [hnone, Ne.symm hc], by simp⟩

/-- `at_` is the place after the text `pre`, read from the start of a template. -/
def Place.After (pre : List Char) (at_ : Place) : Prop :=
  at_.position = pre.length ∧ at_.line = 1 + pre.count '\n' ∧ IsColumn pre at_.column

theorem Place.after_start : ({} : Place).After [] :=
  ⟨rfl, rfl, .inr ⟨by simp, rfl⟩⟩

/-- The place kept by the scan stays the line and column of its position. -/
theorem Place.After.advance {pre : List Char} {at_ : Place} (h : at_.After pre) (cs : List Char) :
    (at_.advance cs).After (pre ++ cs) := by
  induction cs generalizing pre at_ with
  | nil => simpa [Place.advance] using h
  | cons c cs ih =>
    obtain ⟨hpos, hline, hcol⟩ := h
    -- one character read: the place of `pre ++ [c]`
    have hstep : Place.After (pre ++ [c]) (if c = '\n' then ⟨at_.position + 1, at_.line + 1, 1⟩
        else ⟨at_.position + 1, at_.line, at_.column + 1⟩) := by
      have hc := hcol.snoc c
      by_cases hnl : c = '\n'
      · simp only [hnl, if_true] at hc ⊢
        exact ⟨by simp [hpos], by simp [hline, List.count_append]; omega, hc⟩
      · simp only [hnl, if_false] at hc ⊢
        exact ⟨by simp [hpos], by simp [hline, List.count_append, hnl], hc⟩
    have := ih hstep
    rw [List.append_assoc, List.singleton_append] at this
    exact this

/-- Past `n` more characters of `s` from position `p`, the place is that of position `p + n`. -/
theorem Place.After.next {s : List Char} {p : Nat} {at_ : Place} (h : at_.After (s.take p))
    (n : Nat) : (at_.advance ((s.drop p).take n)).After (s.take (p + n)) := by
  simpa only [List.take_add] using h.advance ((s.drop p).take n)

namespace Piece

/-! ### Openers and closers -/

/-- `w` is a piece of `l`, starting at some index. -/
theorem infix_iff_prefix_drop {w l : List Char} : w <:+: l ↔ ∃ j, w <+: l.drop j := by
  constructor
  · rintro ⟨a, b, rfl⟩
    exact ⟨a.length, by simp [List.append_assoc]⟩
  · rintro ⟨j, b, hb⟩
    refine ⟨l.take j, b, ?_⟩
    rw [List.append_assoc, hb, List.take_append_drop]

/-- A prefix of a piece cut from `l` at `j` is a prefix of `l` from `j` on. -/
theorem prefix_drop_of_take {w l : List Char} {j n : Nat} (h : w <+: (l.take n).drop j) :
    w <+: l.drop j := by
  rw [List.drop_take] at h
  exact h.trans (List.take_prefix _ _)

/-- Whether a text starts with an opener. -/
def Opens (cs : List Char) : Prop := ['{', '{'] <+: cs ∨ ['{', '%'] <+: cs

/-- The markup kinds, each with its opener and closer. -/
def delimiters : List (PieceKind × List Char × List Char) :=
  [(.output, ['{', '{'], ['}', '}']), (.tag, ['{', '%'], ['%', '}'])]

/-- `w` stands at index `i` of `l` and at no index before it. -/
def FirstAt (w l : List Char) (i : Nat) : Prop := w <+: l.drop i ∧ ∀ j < i, ¬ w <+: l.drop j

theorem FirstAt.unique {w l : List Char} {i i' : Nat} (h : FirstAt w l i) (h' : FirstAt w l i') :
    i = i' := by
  rcases Nat.lt_trichotomy i i' with hlt | heq | hgt
  · exact absurd h.1 (h'.2 i hlt)
  · exact heq
  · exact absurd h'.1 (h.2 i' hgt)

/-- A text cut from `l` at `n` holds no `w` that starts nowhere before `n` in `l`. -/
theorem not_infix_take {w l : List Char} {n : Nat} (hw : w ≠ [])
    (h : ∀ j < n, ¬ w <+: l.drop j) : ¬ w <:+: l.take n := by
  intro hinf
  obtain ⟨j, hj⟩ := infix_iff_prefix_drop.1 hinf
  have hlen := hj.length_le
  have hwlen : 0 < w.length := List.length_pos_iff.2 hw
  simp only [List.length_drop, List.length_take] at hlen
  exact h j (by omega) (prefix_drop_of_take hj)

/-- A text where no pair starts has at most one character. -/
theorem length_le_one {l : List Char} (hl : ∀ x y rest, l = x :: y :: rest → False) :
    l.length ≤ 1 := by
  match l, hl with
  | [], _ => simp
  | [_], _ => simp
  | _ :: _ :: _, hl => exact absurd rfl (hl _ _ _)

theorem findPair_eq_some_iff {a b : Char} {l : List Char} {i : Nat} :
    findPair a b l = some i ↔ FirstAt [a, b] l i := by
  fun_induction findPair a b l generalizing i with
  | case1 x y rest hxy =>
    obtain ⟨rfl, rfl⟩ := hxy
    refine ⟨?_, fun h => ?_⟩
    · rintro ⟨⟩
      exact ⟨by simp, by simp⟩
    · cases i with
      | zero => rfl
      | succ i => exact absurd (by simp) (h.2 0 (by omega))
  | case2 x y rest hxy ih =>
    cases i with
    | zero =>
      simp only [Option.map_eq_some_iff, Nat.add_eq_zero_iff, Nat.one_ne_zero, and_false,
        exists_false, false_iff]
      intro h
      obtain ⟨rfl, rfl⟩ : a = x ∧ b = y := by simpa using h.1
      exact hxy ⟨rfl, rfl⟩
    | succ i =>
      simp only [Option.map_eq_some_iff, Nat.add_right_cancel_iff, exists_eq_right, ih]
      constructor
      · intro h
        refine ⟨h.1, fun j hj => ?_⟩
        cases j with
        | zero =>
          intro hp
          obtain ⟨rfl, rfl⟩ : a = x ∧ b = y := by simpa using hp
          exact hxy ⟨rfl, rfl⟩
        | succ j => exact h.2 j (by omega)
      · intro h
        exact ⟨h.1, fun j hj => h.2 (j + 1) (by omega)⟩
  | case3 l hl =>
    simp only [reduceCtorEq, false_iff]
    intro h
    have hlen := h.1.length_le
    have := length_le_one hl
    simp only [List.length_cons, List.length_nil, List.length_drop] at hlen
    omega

theorem findPair_eq_none_iff {a b : Char} {l : List Char} :
    findPair a b l = none ↔ ¬ [a, b] <:+: l := by
  rw [infix_iff_prefix_drop]
  fun_induction findPair a b l with
  | case1 x y rest hxy =>
    obtain ⟨rfl, rfl⟩ := hxy
    simp only [reduceCtorEq, false_iff, Classical.not_not]
    exact ⟨0, by simp⟩
  | case2 x y rest hxy ih =>
    rw [Option.map_eq_none_iff, ih]
    constructor
    · rintro h ⟨j, hj⟩
      cases j with
      | zero =>
        obtain ⟨rfl, rfl⟩ : a = _ ∧ b = _ := by simpa using hj
        exact hxy ⟨rfl, rfl⟩
      | succ j => exact h ⟨j, by simpa using hj⟩
    · rintro h ⟨j, hj⟩
      exact h ⟨j + 1, by simpa using hj⟩
  | case3 l hl =>
    simp only [true_iff, not_exists]
    intro j h
    have hlen := h.length_le
    have := length_le_one hl
    simp only [List.length_cons, List.length_nil, List.length_drop] at hlen
    omega

theorem not_prefix_drop_of_findPair {a b : Char} {l : List Char} (h : findPair a b l = none)
    (j : Nat) : ¬ [a, b] <+: l.drop j :=
  fun hj => findPair_eq_none_iff.1 h (infix_iff_prefix_drop.2 ⟨j, hj⟩)

theorem mem_delimiters {k : PieceKind} {o c : List Char} (h : (k, o, c) ∈ delimiters) :
    (k = .output ∧ o = ['{', '{'] ∧ c = ['}', '}']) ∨ (k = .tag ∧ o = ['{', '%'] ∧ c = ['%', '}']) := by
  simpa [delimiters] using h

/-- Two openers that start one text are the same, and so are their closers. -/
theorem delimiters_unique {k k' : PieceKind} {o o' c c' cs : List Char} (h : (k, o, c) ∈ delimiters)
    (h' : (k', o', c') ∈ delimiters) (ho : o <+: cs) (ho' : o' <+: cs) : o = o' ∧ c = c' := by
  rcases mem_delimiters h with ⟨-, rfl, rfl⟩ | ⟨-, rfl, rfl⟩ <;>
    rcases mem_delimiters h' with ⟨-, rfl, rfl⟩ | ⟨-, rfl, rfl⟩
  all_goals first
    | exact ⟨rfl, rfl⟩
    | (obtain ⟨t, rfl⟩ := ho; obtain ⟨t', ht'⟩ := ho'; simp at ht')

theorem opens_of_delimiter {k : PieceKind} {o c cs : List Char} (h : (k, o, c) ∈ delimiters)
    (ho : o <+: cs) : Opens cs := by
  rcases mem_delimiters h with ⟨-, rfl, -⟩ | ⟨-, rfl, -⟩
  · exact .inl ho
  · exact .inr ho

/-! ### One step of the scan -/

/-- The length of the token the scan reads at the start of `cs`: text runs up to the first opener
or the end; markup runs from its opener through the first closer after it. -/
inductive Front : List Char → Nat → Prop
  | text {cs : List Char} {n : Nat} : 0 < n → (∀ j < n, ¬ Opens (cs.drop j)) →
      (n = cs.length ∨ Opens (cs.drop n)) → Front cs n
  | markup {cs : List Char} {k : PieceKind} {o c : List Char} {i : Nat} :
      (k, o, c) ∈ delimiters → o <+: cs → FirstAt c (cs.drop 2) i → Front cs (i + 4)

/-- At the start of `cs` stands the opener `o` of a kind of markup whose closer `c` does not
follow it. -/
def Unclosed (cs o c : List Char) : Prop :=
  (∃ k, (k, o, c) ∈ delimiters) ∧ o <+: cs ∧ ¬ c <:+: cs.drop 2

/-- How markup stands in the template: the opener `o`, an inner text without the closer `c`, and
the closer; the token's value is the inner text stripped. -/
def Markup (o c : List Char) (value : String) (piece : List Char) : Prop :=
  ∃ x, piece = o ++ x ++ c ∧ ¬ c <:+: x ∧ value = String.ofList (Text.strip x)

/-- What a token of kind `k` with value `value` says about its piece of the template. -/
def Shaped (k : PieceKind) (value : String) (piece : List Char) : Prop :=
  match k with
  | .text => value.toList = piece ∧ ¬ ['{', '{'] <:+: piece ∧ ¬ ['{', '%'] <:+: piece
  | .output => Markup ['{', '{'] ['}', '}'] value piece
  | .tag => Markup ['{', '%'] ['%', '}'] value piece
  | .eof => False

namespace Front

variable {cs : List Char} {n : Nat}

theorem pos (h : Front cs n) : 0 < n := by
  cases h with
  | text hn => exact hn
  | markup => omega

theorem le_length (h : Front cs n) : n ≤ cs.length := by
  cases h with
  | text _ _ hend =>
    rcases hend with rfl | hopen
    · exact Nat.le_refl _
    · -- an opener stands at position `n`, so the text goes on past it
      rcases hopen with h | h <;>
        (have hlen := h.length_le; simp only [List.length_drop, List.length_cons] at hlen; omega)
  | @markup _ _ c _ hk _ hfirst =>
    have hlen := hfirst.1.length_le
    have hc : c.length = 2 := by rcases mem_delimiters hk with ⟨-, -, rfl⟩ | ⟨-, -, rfl⟩ <;> rfl
    simp only [List.length_drop] at hlen
    omega

theorem not_unclosed (h : Front cs n) {o c : List Char} : ¬ Unclosed cs o c := by
  rintro ⟨⟨k, hk⟩, ho, hnone⟩
  cases h with
  | text hn hno _ => exact hno 0 hn (by simpa using opens_of_delimiter hk ho)
  | markup hk' ho' hfirst =>
    obtain ⟨rfl, rfl⟩ := delimiters_unique hk' hk ho' ho
    exact hnone (infix_iff_prefix_drop.2 ⟨_, hfirst.1⟩)

/-- A text run ends at the first opener: a run of `m` characters holding no opener stops no
later than where another run stops. -/
theorem run_le {n m : Nat} (hend : n = cs.length ∨ Opens (cs.drop n))
    (hno : ∀ j < m, ¬ Opens (cs.drop j)) (hm : m ≤ cs.length) : m ≤ n := by
  rcases Nat.lt_or_ge n m with hlt | hge
  · rcases hend with rfl | hopen
    · omega
    · exact absurd hopen (hno n hlt)
  · exact hge

/-- The scan reads one token at a time: its length is fixed by the text. -/
theorem unique {m : Nat} (h : Front cs n) (h' : Front cs m) : n = m := by
  have hle := h.le_length
  have hle' := h'.le_length
  cases h with
  | text hn hno hend =>
    cases h' with
    | text _ hno' hend' => exact Nat.le_antisymm (run_le hend' hno hle) (run_le hend hno' hle')
    | markup hk ho _ => exact absurd (by simpa using opens_of_delimiter hk ho) (hno 0 hn)
  | markup hk ho hfirst =>
    cases h' with
    | text hm hno' _ => exact absurd (by simpa using opens_of_delimiter hk ho) (hno' 0 hm)
    | markup hk' ho' hfirst' =>
      obtain ⟨rfl, rfl⟩ := delimiters_unique hk hk' ho ho'
      rw [hfirst.unique hfirst']

end Front

/-- Text runs up to the first opener, or to the end when there is none. -/
theorem textLength_spec {cs : List Char} (hne : cs ≠ []) (hopen : ¬ Opens cs) :
    0 < textLength cs ∧ (∀ j < textLength cs, ¬ Opens (cs.drop j)) ∧
      (textLength cs = cs.length ∨ Opens (cs.drop (textLength cs))) := by
  have hpos {i : Nat} {w : List Char} (hw : w <+: cs.drop i) (hw' : w = ['{', '{'] ∨ w = ['{', '%']) :
      0 < i := by
    rcases Nat.eq_zero_or_pos i with rfl | hi
    · rcases hw' with rfl | rfl
      · exact absurd (.inl (by simpa using hw)) hopen
      · exact absurd (.inr (by simpa using hw)) hopen
    · exact hi
  unfold textLength
  split
  · rename_i i j h1 h2
    have f1 := findPair_eq_some_iff.1 h1
    have f2 := findPair_eq_some_iff.1 h2
    refine ⟨by have := hpos f1.1 (.inl rfl); have := hpos f2.1 (.inr rfl); omega, ?_, ?_⟩
    · rintro m hm (h | h)
      · exact f1.2 m (by omega) h
      · exact f2.2 m (by omega) h
    · rcases Nat.le_total i j with hij | hji
      · exact .inr (.inl (by rw [Nat.min_eq_left hij]; exact f1.1))
      · exact .inr (.inr (by rw [Nat.min_eq_right hji]; exact f2.1))
  · rename_i i h1 h2
    have f1 := findPair_eq_some_iff.1 h1
    refine ⟨hpos f1.1 (.inl rfl), ?_, .inr (.inl f1.1)⟩
    rintro m hm (h | h)
    · exact f1.2 m hm h
    · exact not_prefix_drop_of_findPair h2 m h
  · rename_i j h1 h2
    have f2 := findPair_eq_some_iff.1 h2
    refine ⟨hpos f2.1 (.inr rfl), ?_, .inr (.inr f2.1)⟩
    rintro m hm (h | h)
    · exact not_prefix_drop_of_findPair h1 m h
    · exact f2.2 m hm h
  · rename_i h1 h2
    refine ⟨List.length_pos_iff.2 hne, ?_, .inl rfl⟩
    rintro m - (h | h)
    · exact not_prefix_drop_of_findPair h1 m h
    · exact not_prefix_drop_of_findPair h2 m h

/-- The piece a text token spans holds no opener. -/
theorem shaped_text {cs : List Char} {n : Nat} (h : ∀ j < n, ¬ Opens (cs.drop j)) :
    Shaped .text (String.ofList (cs.take n)) (cs.take n) :=
  ⟨String.toList_ofList, not_infix_take (by simp) fun j hj hp => h j hj (.inl hp),
    not_infix_take (by simp) fun j hj hp => h j hj (.inr hp)⟩

/-- Markup is its opener, the inner text up to the first closer, and the closer. -/
theorem markup_take {o c r : List Char} {i : Nat} (ho : o.length = 2) (hc : c.length = 2)
    (h : FirstAt c r i) : Markup o c (String.ofList (Text.strip (r.take i))) ((o ++ r).take (i + 4)) := by
  refine ⟨r.take i, ?_, not_infix_take (by rintro rfl; simp at hc) h.2, rfl⟩
  have hclose : (r.drop i).take 2 = c := by
    have := List.prefix_iff_eq_take.1 h.1
    rw [hc] at this
    exact this.symm
  calc (o ++ r).take (i + 4) = o ++ r.take (i + 2) := by
        rw [show i + 4 = o.length + (i + 2) by omega, List.take_length_add_append]
    _ = o ++ r.take i ++ c := by rw [List.take_add, hclose, List.append_assoc]

theorem markupAt_eq_ok_iff {cs : List Char} {at_ : Place} {kind : PieceKind} {opener : String}
    {a b : Char} {piece : Piece} {n : Nat} :
    markupAt cs at_ kind opener a b = .ok (piece, n) ↔ ∃ i, FirstAt [a, b] (cs.drop 2) i ∧
      piece = ⟨kind, String.ofList (Text.strip ((cs.drop 2).take i)), at_.position, at_.line,
        at_.column⟩ ∧ n = i + 4 := by
  unfold markupAt
  dsimp only
  cases hf : findPair a b (cs.drop 2) with
  | none =>
    simp only [reduceCtorEq, false_iff, not_exists, not_and]
    intro i hi
    rw [findPair_eq_some_iff.2 hi] at hf
    cases hf
  | some i =>
    simp only [Except.ok.injEq, Prod.mk.injEq]
    constructor
    · rintro ⟨rfl, rfl⟩
      exact ⟨i, findPair_eq_some_iff.1 hf, rfl, rfl⟩
    · rintro ⟨i', hi', rfl, rfl⟩
      obtain rfl := (findPair_eq_some_iff.1 hf).unique hi'
      exact ⟨rfl, rfl⟩

theorem markupAt_eq_error_iff {cs : List Char} {at_ : Place} {kind : PieceKind} {opener : String}
    {a b : Char} {e : SyntaxError} :
    markupAt cs at_ kind opener a b = .error e ↔ ¬ [a, b] <:+: cs.drop 2 ∧
      e = { fault := .unterminatedDelimiter opener (String.ofList [a, b]),
            markup := some (String.ofList (cs.take 40)), line := some at_.line } := by
  unfold markupAt
  dsimp only
  cases hf : findPair a b (cs.drop 2) with
  | none =>
    simp only [Except.error.injEq, findPair_eq_none_iff.1 hf, not_false_eq_true, true_and]
    exact eq_comm
  | some i =>
    simp only [reduceCtorEq, false_iff, not_and]
    intro hnone
    exact absurd (findPair_eq_none_iff.2 hnone) (by simp [hf])

/-- A token the scan reads from non-empty text spans the length `Front` gives, has the shape of its
kind, and stands at the scan's place. -/
theorem front_of_next {cs : List Char} {at_ : Place} {piece : Piece} {n : Nat} (hne : cs ≠ [])
    (h : next cs at_ = .ok (piece, n)) :
    Front cs n ∧ Shaped piece.kind piece.value (cs.take n) ∧ piece.position = at_.position ∧
      piece.line = at_.line ∧ piece.column = at_.column := by
  unfold next at h
  split at h
  · rename_i rest
    obtain ⟨i, hi, rfl, rfl⟩ := markupAt_eq_ok_iff.1 h
    exact ⟨.markup (show (PieceKind.output, ['{', '{'], ['}', '}']) ∈ delimiters by
      simp [delimiters]) (by simp) hi, markup_take (o := ['{', '{']) rfl rfl hi, rfl, rfl, rfl⟩
  · rename_i rest
    obtain ⟨i, hi, rfl, rfl⟩ := markupAt_eq_ok_iff.1 h
    exact ⟨.markup (show (PieceKind.tag, ['{', '%'], ['%', '}']) ∈ delimiters by
      simp [delimiters]) (by simp) hi, markup_take (o := ['{', '%']) rfl rfl hi, rfl, rfl, rfl⟩
  · rename_i h1 h2
    simp only [Except.ok.injEq, Prod.mk.injEq] at h
    obtain ⟨rfl, rfl⟩ := h
    have hopen : ¬ Opens cs := by
      rintro (⟨t, rfl⟩ | ⟨t, rfl⟩)
      · exact h1 t rfl
      · exact h2 t rfl
    obtain ⟨hpos, hno, hend⟩ := textLength_spec hne hopen
    exact ⟨.text hpos hno hend, shaped_text hno, rfl, rfl, rfl⟩

/-- The scan fails at the start of a text exactly when an opener stands there with no closer
after it; the error names the opener, the closer, the forty characters from the opener and the
line of the scan's place. -/
theorem next_eq_error_iff {cs : List Char} {at_ : Place} {e : SyntaxError} :
    next cs at_ = .error e ↔ ∃ o c, Unclosed cs o c ∧
      e = { fault := .unterminatedDelimiter (String.ofList o) (String.ofList c),
            markup := some (String.ofList (cs.take 40)), line := some at_.line } := by
  unfold next
  split
  · rename_i rest
    rw [markupAt_eq_error_iff]
    constructor
    · rintro ⟨hnone, rfl⟩
      exact ⟨_, _, ⟨⟨.output, by simp [delimiters]⟩, by simp, hnone⟩, rfl⟩
    · rintro ⟨o, c, ⟨⟨k, hk⟩, ho, hnone⟩, rfl⟩
      obtain ⟨rfl, rfl⟩ := delimiters_unique hk
        (show (PieceKind.output, ['{', '{'], ['}', '}']) ∈ delimiters by simp [delimiters]) ho
        (by simp)
      exact ⟨hnone, rfl⟩
  · rename_i rest
    rw [markupAt_eq_error_iff]
    constructor
    · rintro ⟨hnone, rfl⟩
      exact ⟨_, _, ⟨⟨.tag, by simp [delimiters]⟩, by simp, hnone⟩, rfl⟩
    · rintro ⟨o, c, ⟨⟨k, hk⟩, ho, hnone⟩, rfl⟩
      obtain ⟨rfl, rfl⟩ := delimiters_unique hk
        (show (PieceKind.tag, ['{', '%'], ['%', '}']) ∈ delimiters by simp [delimiters]) ho
        (by simp)
      exact ⟨hnone, rfl⟩
  · rename_i h1 h2
    simp only [reduceCtorEq, false_iff, not_exists, not_and]
    rintro o c ⟨⟨k, hk⟩, ho, -⟩ -
    rcases mem_delimiters hk with ⟨-, rfl, -⟩ | ⟨-, rfl, -⟩
    · obtain ⟨t, rfl⟩ := ho
      exact h1 t rfl
    · obtain ⟨t, rfl⟩ := ho
      exact h2 t rfl

/-! ### Whole scans -/

theorem not_unclosed_nil {o c : List Char} : ¬ Unclosed [] o c := by
  rintro ⟨⟨k, hk⟩, ho, -⟩
  rcases mem_delimiters hk with ⟨-, rfl, -⟩ | ⟨-, rfl, -⟩ <;> simp at ho

theorem Unclosed.unique {cs o c o' c' : List Char} (h : Unclosed cs o c) (h' : Unclosed cs o' c') :
    o = o' ∧ c = c' :=
  delimiters_unique h.1.choose_spec h'.1.choose_spec h.2.1 h'.2.1

/-- The scan of the template `s` from position `p` reaches position `q`. -/
inductive Reaches (s : List Char) : Nat → Nat → Prop
  | refl (p : Nat) : Reaches s p p
  | step {p n q : Nat} : Front (s.drop p) n → Reaches s (p + n) q → Reaches s p q

/-- From position `p` of the template `s` on, `ts` are the tokens the scan reads, each with the
shape of its kind, and then the end token at the end of `s`. -/
inductive Tiled (s : List Char) : Nat → List Piece → Prop
  | last {line column : Nat} : Tiled s s.length [⟨.eof, "", s.length, line, column⟩]
  | piece {p n : Nat} {k : PieceKind} {value : String} {line column : Nat} {ts : List Piece} :
      Front (s.drop p) n → Shaped k value ((s.drop p).take n) → Tiled s (p + n) ts →
      Tiled s p (⟨k, value, p, line, column⟩ :: ts)

namespace Tiled

variable {s : List Char} {p : Nat} {ts : List Piece}

theorem le_position (h : Tiled s p ts) : ∀ t ∈ ts, p ≤ t.position := by
  induction h with
  | last => simp
  | @piece p n _ _ _ _ _ hfront _ _ ih =>
    intro t ht
    rcases List.mem_cons.1 ht with rfl | ht
    · exact Nat.le_refl _
    · have := ih t ht
      omega

/-- The positions of the tokens increase strictly. -/
theorem positions_increase (h : Tiled s p ts) : (ts.map Piece.position).Pairwise (· < ·) := by
  induction h with
  | last => simp
  | @piece p n _ _ _ _ _ hfront _ htail ih =>
    refine List.pairwise_cons.2 ⟨?_, ih⟩
    intro q hq
    obtain ⟨t, ht, rfl⟩ := List.mem_map.1 hq
    have := htail.le_position t ht
    have := hfront.pos
    show p < t.position
    omega

end Tiled

/-- The scan from position `p` fails exactly when it reaches an opener with no closer after it;
the error names that opener's line. -/
theorem scanFrom_eq_error_iff {s cs : List Char} {p : Nat} {at_ : Place} {done : List Piece}
    {e : SyntaxError} (hcs : cs = s.drop p) (hat : at_.After (s.take p)) :
    scanFrom cs at_ done = .error e ↔ ∃ q o c, Reaches s p q ∧ Unclosed (s.drop q) o c ∧
      e = { fault := .unterminatedDelimiter (String.ofList o) (String.ofList c),
            markup := some (String.ofList ((s.drop q).take 40)),
            line := some (1 + (s.take q).count '\n') } := by
  fun_induction scanFrom cs at_ done generalizing p with
  | case1 at_ done =>
    -- nothing is left: no token can be read and no opener stands there
    simp only [reduceCtorEq, false_iff, not_exists, not_and]
    intro q o c hreach hun _
    cases hreach with
    | refl => rw [← hcs] at hun; exact not_unclosed_nil hun
    | step hfront _ =>
      rw [← hcs] at hfront
      have := hfront.le_length
      have := hfront.pos
      simp at *
      omega
  | case2 cs at_ done hne e' hnext =>
    subst hcs
    obtain ⟨o, c, hun, rfl⟩ := next_eq_error_iff.1 hnext
    constructor
    · rintro ⟨⟩
      exact ⟨p, o, c, .refl p, hun, by rw [hat.2.1]⟩
    · rintro ⟨q, o', c', hreach, hun', rfl⟩
      cases hreach with
      | refl =>
        obtain ⟨rfl, rfl⟩ := hun.unique hun'
        rw [hat.2.1]
      | step hfront _ => exact absurd hun hfront.not_unclosed
  | case3 cs at_ done hne piece n hnext k hlt =>
    rename_i ih
    subst hcs
    obtain ⟨hfront, -, -, -, -⟩ := front_of_next hne hnext
    have hk : max n 1 = n := Nat.max_eq_left hfront.pos
    simp +zetaDelta only [hk] at ih ⊢
    -- the scan goes on after the token, from position `p + n`
    rw [ih (by simp only [List.drop_drop]) (hat.next n)]
    constructor
    · rintro ⟨q, o, c, hreach, hun, rfl⟩
      exact ⟨q, o, c, .step hfront hreach, hun, rfl⟩
    · rintro ⟨q, o, c, hreach, hun, rfl⟩
      cases hreach with
      | refl => exact absurd hun hfront.not_unclosed
      | step hfront' hreach' =>
        obtain rfl := hfront.unique hfront'
        exact ⟨q, o, c, hreach', hun, rfl⟩

/-- What the scan from position `p` returns: the tokens it read before, then tokens that tile the
rest of the template, each at the line and column of its position. -/
theorem scanFrom_eq_ok {s cs : List Char} {p : Nat} {at_ : Place} {done ts : List Piece}
    (hcs : cs = s.drop p) (hat : at_.After (s.take p)) (hp : p ≤ s.length)
    (h : scanFrom cs at_ done = .ok ts) :
    ∃ rest, ts = done.reverse ++ rest ∧ Tiled s p rest ∧
      ∀ t ∈ rest, t.line = 1 + (s.take t.position).count '\n' ∧
        IsColumn (s.take t.position) t.column := by
  fun_induction scanFrom cs at_ done generalizing p ts with
  | case1 at_ done =>
    -- nothing is left, so the scan stands at the template's end and adds only the end token
    have hend : p = s.length := by
      have := congrArg List.length hcs
      simp only [List.length_nil, List.length_drop] at this
      omega
    subst hend
    obtain ⟨hpos, hline, hcol⟩ := hat
    rw [List.take_length] at hpos hline hcol
    simp only [Except.ok.injEq] at h
    refine ⟨_, h.symm, ?_, ?_⟩
    · rw [hpos]
      exact .last
    · intro t ht
      simp only [List.mem_singleton] at ht
      subst ht
      simp only [hpos, List.take_length]
      exact ⟨hline, hcol⟩
  | case2 => cases h
  | case3 cs at_ done hne piece n hnext k hlt =>
    -- one token is read at `p`; by induction the tokens after it tile the rest from `p + n`
    rename_i ih
    subst hcs
    obtain ⟨hfront, hshape, hpos, hline, hcol⟩ := front_of_next hne hnext
    have hk : max n 1 = n := Nat.max_eq_left hfront.pos
    have hat' : at_.position = p := by
      rw [hat.1, List.length_take]
      exact Nat.min_eq_left hp
    have hle : p + n ≤ s.length := by
      have := hfront.le_length
      simp only [List.length_drop] at this
      omega
    simp +zetaDelta only [hk] at ih h
    obtain ⟨rest, rfl, htiled, hplaces⟩ :=
      ih (by simp only [List.drop_drop]) (hat.next n) hle h
    refine ⟨piece :: rest, by simp, ?_, ?_⟩
    · obtain ⟨kind, value, position, line, column⟩ := piece
      simp only at hpos hshape
      rw [hpos, hat']
      exact .piece hfront hshape htiled
    · intro t ht
      rcases List.mem_cons.1 ht with rfl | ht
      · rw [hpos, hat', hline, hcol]
        exact hat.2
      · exact hplaces t ht

/-- The template lexer tiles the template and tracks positions exactly. It fails exactly at the
first opener its scan reaches that has no closer after it, naming the opener, its closer, the
forty characters from it and its line. Otherwise its tokens start at position 0, their positions
increase strictly up to the end token at the template's length, each token is what the scan reads
there (text up to the next opener, or markup through the first closer) with the shape of its
kind, and each has the line and column of its position: one more than the line feeds before it,
and the position less the index of the last line feed before it (or the position plus one). -/
theorem scan_tiles_template (s : String) :
    (∀ e, scan s = .error e ↔ ∃ p o c, Reaches s.toList 0 p ∧ Unclosed (s.toList.drop p) o c ∧
      e = { fault := .unterminatedDelimiter (String.ofList o) (String.ofList c),
            markup := some (String.ofList ((s.toList.drop p).take 40)),
            line := some (1 + (s.toList.take p).count '\n') }) ∧
    (∀ ts, scan s = .ok ts → Tiled s.toList 0 ts ∧ (ts.map Piece.position).Pairwise (· < ·) ∧
      ∀ t ∈ ts, t.line = 1 + (s.toList.take t.position).count '\n' ∧
        IsColumn (s.toList.take t.position) t.column) := by
  have hcs : s.toList = s.toList.drop 0 := rfl
  have hat : ({} : Place).After (s.toList.take 0) := Place.after_start
  refine ⟨fun e => scanFrom_eq_error_iff hcs hat, fun ts h => ?_⟩
  obtain ⟨rest, rfl, htiled, hplaces⟩ := scanFrom_eq_ok hcs hat (Nat.zero_le _) h
  exact ⟨htiled, htiled.positions_increase, hplaces⟩

end Piece

end Branching
