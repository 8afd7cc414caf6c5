import Branching.Proofs.StrictText
import Branching.Condition.Lenient
import Branching.Condition.Mode

/-!
# Printed chains read back in the lenient grammar

The lenient grammar cuts a header into words and the words into chunks at the words `and` and
`or`; a chunk is read as an operand, an operator and an operand. A chain the lenient parser reads
prints to a text it reads back as the same chain, as long as no operand prints as `and` or `or` and
no operator is one of those words: the printed text puts spaces around every operator, and a
keyword with spaces around it divides two links. The header `a and(b..c)` shows that the condition
is needed: its one link compares `a` to `(b..c)` with the operator `and`, and its text
`a and (b..c)` has two links.

Each operand the parser reads is a run of units (`Lenient.Run`); its markup squeezes white space out
of that text, and leaving white space out of a run keeps it a run (`Lenient.Thins`). So each operand
prints as one word, read back as the same run of units and the same operand.

## Main statements

- `Lenient.runLength_run`: the run of units at the start of a printed word is the whole word.
- `Lenient.words_joinWords`: the words of words joined by spaces are those words.
- `Lenient.parse_text`: a chain the lenient parser reads prints to a text it reads as that chain,
  when no word of a link is a keyword.
- `Mode.read_text`: both modes read a chain's text back as the chain they read it from, the
  lenient mode under the same condition on its words.
-/

namespace Branching

namespace Lenient

open Text Operand

/-! ### Units and runs -/

/-- The opening and closing characters of quoted, bracketed and parenthesized units. -/
def groupMarks : List (Char × Char) := [('"', '"'), ('\'', '\''), ('[', ']'), ('(', ')')]

/-- One unit: a group from an opening character to the first closing one after it, or one
character that `single` takes alone. -/
inductive IsUnit (single : Char → Bool) : List Char → Prop
  | group {o c : Char} {body : List Char} : (o, c) ∈ groupMarks → c ∉ body →
      IsUnit single (o :: body ++ [c])
  | char {c : Char} : single c = true → IsUnit single [c]

/-- Units end to end. -/
inductive Run (single : Char → Bool) : List Char → Prop
  | nil : Run single []
  | cons {u v : List Char} : IsUnit single u → Run single v → Run single (u ++ v)

/-- A test for lone units that takes no white space and no character that opens a group. -/
def Lone (single : Char → Bool) : Prop :=
  ∀ c, single c = true → isSpace c = false ∧ ∀ p ∈ groupMarks, c ≠ p.1

theorem lone_wordSingle : Lone wordSingle := by
  intro c hc
  simp only [wordSingle, Bool.and_eq_true, Bool.not_eq_eq_eq_not, Bool.not_true,
    bne_iff_ne, ne_eq] at hc
  obtain ⟨⟨⟨⟨hs, h1⟩, h2⟩, h3⟩, h4⟩ := hc
  refine ⟨hs, fun p hp => ?_⟩
  simp only [groupMarks, List.mem_cons, List.not_mem_nil, or_false] at hp
  rcases hp with rfl | rfl | rfl | rfl <;> assumption

theorem fragmentSingle_wordSingle {c : Char} (h : fragmentSingle c = true) : wordSingle c = true := by
  simp only [fragmentSingle, Bool.and_eq_true] at h
  exact h.1

theorem lone_fragmentSingle : Lone fragmentSingle := fun c hc =>
  lone_wordSingle c (fragmentSingle_wordSingle hc)

section

variable {single : Char → Bool}

theorem throughChar_append {c : Char} {body : List Char} (hc : c ∉ body) (w : List Char) :
    throughChar c (body ++ c :: w) = some (body.length + 1) := by
  have hne : ∀ x ∈ body, (x != c) = true := by
    intro x hx
    have : x ≠ c := fun h => hc (h ▸ hx)
    simpa using this
  have htake : (body ++ c :: w).takeWhile (· != c) = body := by
    rw [List.takeWhile_append_of_pos hne, List.takeWhile_cons_of_neg (by simp)]
    simp
  simp [throughChar, htake]

theorem throughChar_nil (c : Char) : throughChar c [] = none := rfl

theorem throughChar_cons_self (c : Char) (cs : List Char) : throughChar c (c :: cs) = some 1 := by
  simp [throughChar]

theorem throughChar_cons {c x : Char} (hx : x ≠ c) (cs : List Char) :
    throughChar c (x :: cs) = (throughChar c cs).map (· + 1) := by
  have hne : (x != c) = true := by simpa using hx
  unfold throughChar
  simp only
  rw [List.takeWhile_cons_of_pos (p := fun y => y != c) hne]
  by_cases h : (cs.takeWhile (· != c)).length < cs.length <;> simp [h]

theorem throughChar_some {c : Char} {cs : List Char} {n : Nat} (h : throughChar c cs = some n) :
    ∃ body w, cs = body ++ c :: w ∧ c ∉ body ∧ n = body.length + 1 := by
  induction cs generalizing n with
  | nil => cases h
  | cons x cs ih =>
    by_cases hx : x = c
    · subst hx
      rw [throughChar_cons_self, Option.some.injEq] at h
      exact ⟨[], cs, rfl, by simp, by simp [h]⟩
    · rw [throughChar_cons hx] at h
      obtain ⟨m, hm, rfl⟩ := Option.map_eq_some_iff.1 h
      obtain ⟨body, w, rfl, hc, rfl⟩ := ih hm
      exact ⟨x :: body, w, rfl, by simp [hc, Ne.symm hx], by simp⟩

/-- A unit at the start of a text is read as that unit, whatever follows it. -/
theorem unitLength_unit (hs : Lone single) {u : List Char} (hu : IsUnit single u) (w : List Char) :
    unitLength single (u ++ w) = some u.length := by
  cases hu with
  | @group o c body hm hc =>
    simp only [groupMarks, List.mem_cons, Prod.mk.injEq, List.not_mem_nil, or_false] at hm
    have hth := throughChar_append hc w
    rcases hm with ⟨rfl, rfl⟩ | ⟨rfl, rfl⟩ | ⟨rfl, rfl⟩ | ⟨rfl, rfl⟩ <;>
      simp [unitLength, groupLength, hth]
  | @char c hc =>
    obtain ⟨-, hopen⟩ := hs c hc
    have hg : groupLength (c :: w) = none := by
      have h1 := hopen _ (by simp [groupMarks] : ('"', '"') ∈ groupMarks)
      have h2 := hopen _ (by simp [groupMarks] : ('\'', '\'') ∈ groupMarks)
      have h3 := hopen _ (by simp [groupMarks] : ('[', ']') ∈ groupMarks)
      have h4 := hopen _ (by simp [groupMarks] : ('(', ')') ∈ groupMarks)
      simp only at h1 h2 h3 h4
      unfold groupLength
      split <;> simp_all
    simp [unitLength, hg, hc]

/-- No unit starts at white space. -/
theorem unitLength_space (hs : Lone single) {x : Char} (hx : isSpace x = true) (w : List Char) :
    unitLength single (x :: w) = none := by
  obtain ⟨h1, h2, h3, -, h5, -, -, -⟩ := ne_of_isSpace hx
  have hg : groupLength (x :: w) = none := by
    unfold groupLength
    split <;> simp_all
  have hsingle : single x = false := by
    cases h : single x with
    | false => rfl
    | true => rw [(hs x h).1] at hx; cases hx
  simp [unitLength, hg, hsingle]

theorem runLength_of_unitLength {cs : List Char} {n : Nat} (h : unitLength single cs = some n) :
    runLength single cs = n + runLength single (cs.drop n) := by
  rw [runLength]
  split
  · rename_i m hm
    rw [h] at hm
    cases hm
    rfl
  · rename_i hm
    rw [h] at hm
    cases hm

theorem runLength_of_unitLength_none {cs : List Char} (h : unitLength single cs = none) :
    runLength single cs = 0 := by
  rw [runLength]
  split
  · rename_i m hm
    rw [h] at hm
    cases hm
  · rfl

/-- A text that ends a run: nothing, or white space. -/
def EndsRun (w : List Char) : Prop := ∀ x r, w = x :: r → isSpace x = true

/-- The run of units at the start of a run followed by white space is the whole run. -/
theorem runLength_run (hs : Lone single) {v : List Char} (hv : Run single v) {w : List Char}
    (hw : EndsRun w) : runLength single (v ++ w) = v.length := by
  induction hv with
  | nil =>
    cases w with
    | nil => exact runLength_of_unitLength_none rfl
    | cons x r => exact runLength_of_unitLength_none (unitLength_space hs (hw x r rfl) r)
  | @cons u v hu _ ih =>
    rw [List.append_assoc, runLength_of_unitLength (unitLength_unit hs hu _), List.drop_left, ih,
      List.length_append]

theorem isUnit_of_groupLength {cs : List Char} {n : Nat} (h : groupLength cs = some n) :
    IsUnit single (cs.take n) := by
  -- each kind of group reads to its first closing character
  have hgroup : ∀ o c rest, (o, c) ∈ groupMarks → (throughChar c rest).map (· + 1) = some n →
      IsUnit single ((o :: rest).take n) := by
    intro o c rest hm hn
    obtain ⟨m, hm', rfl⟩ := Option.map_eq_some_iff.1 hn
    obtain ⟨body, w, rfl, hc, rfl⟩ := throughChar_some hm'
    have htake : (o :: (body ++ c :: w)).take (body.length + 1 + 1) = o :: body ++ [c] := by
      simp [List.take_append, List.take_of_length_le]
    rw [htake]
    exact .group hm hc
  unfold groupLength at h
  split at h
  all_goals first
    | exact hgroup _ _ _ (by simp [groupMarks]) h
    | cases h

theorem isUnit_of_unitLength {cs : List Char} {n : Nat} (h : unitLength single cs = some n) :
    IsUnit single (cs.take n) := by
  cases cs with
  | nil => cases h
  | cons c rest =>
    simp only [unitLength] at h
    split at h
    · rename_i m hm
      simp only [Option.some.injEq] at h
      subst h
      exact isUnit_of_groupLength hm
    · by_cases hc : single c = true
      · simp only [hc, if_true, Option.some.injEq] at h
        subst h
        exact .char hc
      · simp [hc] at h

/-- The run of units at the start of a text is a run. -/
theorem run_take_runLength (cs : List Char) : Run single (cs.take (runLength single cs)) := by
  fun_induction runLength single cs with
  | case1 cs n hn _ _ ih =>
    rw [List.take_add]
    exact .cons (isUnit_of_unitLength hn) ih
  | case2 cs _ => exact .nil

theorem IsUnit.mono {single' : Char → Bool} (h : ∀ c, single c = true → single' c = true)
    {u : List Char} (hu : IsUnit single u) : IsUnit single' u := by
  cases hu with
  | group hm hc => exact .group hm hc
  | char hc => exact .char (h _ hc)

theorem Run.mono {single' : Char → Bool} (h : ∀ c, single c = true → single' c = true)
    {v : List Char} (hv : Run single v) : Run single' v := by
  induction hv with
  | nil => exact .nil
  | cons hu _ ih => exact .cons (hu.mono h) ih

/-! ### Leaving out white space -/

/-- `Thins a b`: `b` is `a` with some of its white space left out. -/
inductive Thins : List Char → List Char → Prop
  | nil : Thins [] []
  | keep (c : Char) {a b : List Char} : Thins a b → Thins (c :: a) (c :: b)
  | drop {c : Char} {a b : List Char} : isSpace c = true → Thins a b → Thins (c :: a) b

/-- Squeezing a text leaves out some of its white space. -/
theorem thins_squeezeFrom (q : Option Char) (a : List Char) : Thins a (squeezeFrom q a) := by
  induction a generalizing q with
  | nil => cases q <;> exact .nil
  | cons c a ih =>
    cases q with
    | none =>
      by_cases hc : isSpace c = true
      · simpa [squeezeFrom, hc] using Thins.drop hc (ih none)
      · simpa [squeezeFrom, hc] using Thins.keep c (ih (quoteStep none c))
    | some q => simpa [squeezeFrom] using Thins.keep c (ih (quoteStep (some q) c))

namespace Thins

variable {a b y : List Char}

theorem sublist (h : Thins a b) : b.Sublist a := by
  induction h with
  | nil => exact .slnil
  | keep c _ ih => exact ih.cons_cons c
  | drop _ _ ih => exact ih.cons _

theorem nil_inv (h : Thins [] y) : y = [] := by
  cases h
  rfl

theorem cons_inv {c : Char} (h : Thins (c :: a) y) (hc : isSpace c = false) :
    ∃ y', y = c :: y' ∧ Thins a y' := by
  cases h with
  | keep _ h => exact ⟨_, rfl, h⟩
  | drop hs _ => rw [hc] at hs; cases hs

theorem append_inv (h : Thins (a ++ b) y) : ∃ ya yb, y = ya ++ yb ∧ Thins a ya ∧ Thins b yb := by
  induction a generalizing y with
  | nil => exact ⟨[], y, rfl, .nil, h⟩
  | cons c a ih =>
    cases h with
    | keep _ h =>
      obtain ⟨ya, yb, rfl, ha, hb⟩ := ih h
      exact ⟨c :: ya, yb, rfl, .keep c ha, hb⟩
    | drop hs h =>
      obtain ⟨ya, yb, rfl, ha, hb⟩ := ih h
      exact ⟨ya, yb, rfl, .drop hs ha, hb⟩

end Thins

theorem groupMarks_solid : ∀ p ∈ groupMarks, isSpace p.1 = false ∧ isSpace p.2 = false := by
  decide

/-- Leaving white space out of a unit leaves a unit. -/
theorem IsUnit.thins (hs : Lone single) {u u' : List Char} (hu : IsUnit single u)
    (ht : Thins u u') : IsUnit single u' := by
  cases hu with
  | @group o c body hm hc =>
    obtain ⟨ho, hcs⟩ := groupMarks_solid _ hm
    -- the opening and closing characters stay, and the body keeps no new closing character
    obtain ⟨y, rfl, hy⟩ := ht.cons_inv ho
    obtain ⟨yb, yc, rfl, hb, hcl⟩ := hy.append_inv
    obtain ⟨y', rfl, hy'⟩ := hcl.cons_inv hcs
    rw [hy'.nil_inv]
    exact .group hm fun hm' => hc (hb.sublist.subset hm')
  | @char c hc =>
    obtain ⟨y, rfl, hy⟩ := ht.cons_inv (hs c hc).1
    rw [hy.nil_inv]
    exact .char hc

/-- Leaving white space out of a run leaves a run. -/
theorem Run.thins (hs : Lone single) {v v' : List Char} (hv : Run single v) (ht : Thins v v') :
    Run single v' := by
  induction hv generalizing v' with
  | nil => rw [ht.nil_inv]; exact .nil
  | cons hu _ ih =>
    obtain ⟨ya, yb, rfl, ha, hb⟩ := ht.append_inv
    exact .cons (hu.thins hs ha) (ih hb)

/-- A run starts with no white space. -/
theorem Run.head_solid (hs : Lone single) {v : List Char} (hv : Run single v) :
    ∀ c, v.head? = some c → isSpace c = false := by
  intro c hc
  cases hv with
  | nil => cases hc
  | cons hu _ =>
    cases hu with
    | @group o _ body hm _ =>
      simp only [List.cons_append, List.head?_cons, Option.some.injEq] at hc
      exact hc ▸ (groupMarks_solid _ hm).1
    | @char x hx =>
      simp only [List.cons_append, List.nil_append, List.head?_cons, Option.some.injEq] at hc
      exact hc ▸ (hs x hx).1

end

/-! ### Words -/

theorem words_of_dropSpace {cs rest : List Char} {c : Char} (h : dropSpace cs = c :: rest) :
    words cs = (c :: rest).take (wordLength (c :: rest)) ::
      words ((c :: rest).drop (wordLength (c :: rest))) := by
  rw [words]
  split
  · rename_i h'
    rw [h] at h'
    cases h'
  · rename_i c' rest' h'
    rw [h] at h'
    cases h'
    rfl

theorem words_of_dropSpace_nil {cs : List Char} (h : dropSpace cs = []) : words cs = [] := by
  rw [words]
  split
  · rfl
  · rename_i c' rest' h'
    rw [h] at h'
    cases h'

/-- Texts that start alike after white space have the same words. -/
theorem words_congr {a b : List Char} (h : dropSpace a = dropSpace b) : words a = words b := by
  cases hd : dropSpace a with
  | nil => rw [words_of_dropSpace_nil hd, words_of_dropSpace_nil (h ▸ hd)]
  | cons c rest => exact (words_of_dropSpace hd).trans (words_of_dropSpace (h ▸ hd)).symm

theorem words_space (r : List Char) : words (' ' :: r) = words r :=
  words_congr (Token.dropSpace_of_spaces (g := [' ']) (Text.forall_mem_of_all (by decide)))

/-- A run of word units, before white space, is a word. -/
theorem words_word {v w : List Char} (hv : Run wordSingle v) (hne : v ≠ []) (hw : EndsRun w) :
    words (v ++ w) = v :: words w := by
  obtain ⟨c, v', rfl⟩ := List.exists_cons_of_ne_nil hne
  have hc := hv.head_solid lone_wordSingle c rfl
  have hlen : wordLength (c :: (v' ++ w)) = v'.length + 1 := by
    have := runLength_run lone_wordSingle hv hw
    simp only [List.cons_append, List.length_cons] at this
    simp [wordLength, this]
  rw [List.cons_append, words_of_dropSpace (Token.dropSpace_cons hc), hlen]
  simp

/-- Joining words with spaces and cutting the text into words again gives them back. -/
theorem words_joinWords {ws : List (List Char)} (h : ∀ w ∈ ws, Run wordSingle w ∧ w ≠ []) :
    words (joinWords ws) = ws := by
  induction ws with
  | nil => exact words_of_dropSpace_nil (show dropSpace ([] : List Char) = [] from rfl)
  | cons w ws ih =>
    have hw := h w (by simp)
    have ih' := ih fun x hx => h x (by simp [hx])
    cases ws with
    | nil =>
      have := words_word hw.1 hw.2 (w := []) (by simp [EndsRun])
      simpa [joinWords, words_of_dropSpace_nil (show dropSpace ([] : List Char) = [] from rfl)]
        using this
    | cons w' ws =>
      have hjoin : joinWords (w :: w' :: ws) = w ++ ' ' :: joinWords (w' :: ws) := by
        simp [joinWords, List.intercalate_cons_cons]
      have hends : EndsRun (' ' :: joinWords (w' :: ws)) := by
        intro x r hx
        simp only [List.cons.injEq] at hx
        rw [← hx.1]
        decide
      rw [hjoin, words_word hw.1 hw.2 hends, words_space, ih']

theorem joinWords_cons (w : List Char) (ws : List (List Char)) :
    joinWords (w :: ws) = w ++ ws.flatMap (' ' :: ·) := by
  induction ws generalizing w with
  | nil => simp [joinWords]
  | cons w' ws ih =>
    have := ih w'
    simp only [joinWords] at this ⊢
    rw [List.intercalate_cons_cons, this]
    simp

/-! ### Chunks -/

theorem keyword?_keyword (k : Combinator) : keyword? k.keyword.toList = some k := by
  cases k <;> rfl

theorem keyword?_eq_none {s : String} (h : s ≠ "and" ∧ s ≠ "or") : keyword? s.toList = none := by
  have h1 : s.toList ≠ ['a', 'n', 'd'] := fun hs => h.1 (by
    rw [← String.ofList_toList (s := s), hs])
  have h2 : s.toList ≠ ['o', 'r'] := fun hs => h.2 (by
    rw [← String.ofList_toList (s := s), hs])
  simp [keyword?, h1, h2]

section

variable (markup : String)

/-- Words that are no keywords join the chunk being built. -/
theorem group_plain {ws : List (List Char)} (h : ∀ w ∈ ws, keyword? w = none)
    (rest pending : List (List Char)) (closed : List (List Char × Combinator)) :
    group markup (ws ++ rest) pending closed = group markup rest (ws.reverse ++ pending) closed := by
  induction ws generalizing pending with
  | nil => rfl
  | cons w ws ih =>
    rw [List.cons_append, group, h w (by simp), ih (fun x hx => h x (by simp [hx]))]
    simp

/-- A keyword after a chunk closes it. -/
theorem group_keyword {w : List Char} {k : Combinator} (hw : keyword? w = some k)
    {pending : List (List Char)} (hp : pending ≠ []) (rest : List (List Char))
    (closed : List (List Char × Combinator)) :
    group markup (w :: rest) pending closed =
      group markup rest [] ((joinWords pending.reverse, k) :: closed) := by
  rw [group, hw]
  simp [hp]

theorem group_end {pending : List (List Char)} (hp : pending ≠ [])
    (closed : List (List Char × Combinator)) :
    group markup [] pending closed = .ok (assemble closed.reverse (joinWords pending.reverse)) := by
  simp [group, hp]

end

end Lenient

namespace Link

/-- The words a link prints as: its left operand's markup, then, when it compares, the operator
and the right operand's markup. -/
def words (l : Link) : List String :=
  match l.comparison with
  | none => [l.left.markup]
  | some (op, right) => [l.left.markup, op, right.markup]

theorem words_ne_nil (l : Link) : l.words ≠ [] := by
  unfold words
  split <;> simp

theorem text_words (l : Link) : l.text.toList = Lenient.joinWords (l.words.map String.toList) := by
  obtain ⟨o, cmp⟩ := l
  cases cmp with
  | none => simp [words, text, Lenient.joinWords]
  | some p =>
    obtain ⟨op, r⟩ := p
    rw [text_compare]
    simp [words, Lenient.joinWords, List.intercalate_cons_cons]

end Link

namespace Lenient

open Text Operand

/-- The chunks of a printed chain before its last link, each with the keyword after it. -/
def closedChunks : Link → List (Combinator × Link) → List (List Char × Combinator)
  | _, [] => []
  | l, (k, l') :: rest => (l.text.toList, k) :: closedChunks l' rest

/-- The text of the last link of a printed chain. -/
def lastChunk : Link → List (Combinator × Link) → List Char
  | l, [] => l.text.toList
  | _, (_, l') :: rest => lastChunk l' rest

theorem assemble_closedChunks (l : Link) (rest : List (Combinator × Link)) :
    assemble (closedChunks l rest) (lastChunk l rest) =
      ⟨l.text.toList, rest.map fun p => (p.1, p.2.text.toList)⟩ := by
  induction rest generalizing l with
  | nil => rfl
  | cons p rest ih =>
    obtain ⟨k, l'⟩ := p
    simp only [closedChunks, lastChunk, assemble, ih l', List.map_cons]

/-- The words of the links after the first, each after its keyword. -/
def restWords (rest : List (Combinator × Link)) : List (List Char) :=
  rest.flatMap fun p => p.1.keyword.toList :: p.2.words.map String.toList

/-- Grouping the words of printed links whose words are no keywords closes one chunk per link. -/
theorem group_links (markup : String) (l : Link) (rest : List (Combinator × Link))
    (hkw : ∀ l' ∈ l :: rest.map Prod.snd, ∀ w ∈ l'.words, w ≠ "and" ∧ w ≠ "or")
    (closed : List (List Char × Combinator)) :
    group markup (l.words.map String.toList ++ restWords rest) [] closed =
      .ok (assemble (closed.reverse ++ closedChunks l rest) (lastChunk l rest)) := by
  have hplain : ∀ l' : Link, (∀ w ∈ l'.words, w ≠ "and" ∧ w ≠ "or") →
      ∀ w ∈ l'.words.map String.toList, keyword? w = none := by
    intro l' hl' w hw
    obtain ⟨s, hs, rfl⟩ := List.mem_map.1 hw
    exact keyword?_eq_none (hl' s hs)
  have hne : ∀ l' : Link, (l'.words.map String.toList).reverse ++ [] ≠ [] := by
    intro l'
    simp [l'.words_ne_nil]
  have hjoin : ∀ l' : Link, joinWords ((l'.words.map String.toList).reverse ++ []).reverse =
      l'.text.toList := by
    intro l'
    simp [Link.text_words]
  induction rest generalizing l closed with
  | nil =>
    rw [restWords, List.flatMap_nil, List.append_nil,
      ← List.append_nil (l.words.map String.toList),
      group_plain markup (hplain l (hkw l List.mem_cons_self)),
      group_end markup (hne l), hjoin]
    simp [closedChunks, lastChunk]
  | cons p rest ih =>
    obtain ⟨k, l'⟩ := p
    have hrest : restWords ((k, l') :: rest) =
        k.keyword.toList :: (l'.words.map String.toList ++ restWords rest) := by
      simp [restWords]
    rw [hrest, group_plain markup (hplain l (hkw l List.mem_cons_self)),
      group_keyword markup (keyword?_keyword k) (hne l), hjoin,
      ih l' (fun x hx => hkw x (List.mem_cons_of_mem l (by simpa using hx)))]
    simp [closedChunks, lastChunk]

theorem joinWords_links (l : Link) (rest : List (Combinator × Link)) :
    l.text.toList ++ Chain.restText rest =
      joinWords (l.words.map String.toList ++ restWords rest) := by
  -- after the first word, every word follows a space
  have hspace : ∀ l' : Link, ' ' :: l'.text.toList =
      (l'.words.map String.toList).flatMap (' ' :: ·) := by
    intro l'
    obtain ⟨w, ws, hws⟩ := List.exists_cons_of_ne_nil (by simpa using l'.words_ne_nil :
      l'.words.map String.toList ≠ [])
    rw [Link.text_words, hws, joinWords_cons]
    simp
  have hrest : Chain.restText rest = (restWords rest).flatMap (' ' :: ·) := by
    induction rest with
    | nil => rfl
    | cons p rest ih =>
      obtain ⟨k, l'⟩ := p
      rw [Chain.restText_cons, ih]
      simp [restWords, ← hspace]
  obtain ⟨w, ws, hws⟩ := List.exists_cons_of_ne_nil (by simpa using l.words_ne_nil :
    l.words.map String.toList ≠ [])
  rw [Link.text_words, hws, hrest, List.cons_append, joinWords_cons, joinWords_cons]
  simp

/-! ### Links that print to text the lenient grammar reads back -/

/-- An operator as the lenient grammar reads one: a run of `=!<>`, or of lower-case letters and
`_`. -/
def IsOperator (op : List Char) : Prop :=
  op ≠ [] ∧ ((∀ c ∈ op, c ∈ "=!<>".toList) ∨ ∀ c ∈ op, (('a' ≤ c && c ≤ 'z') || c == '_') = true)

/-- An operand whose markup is a run of fragment units that reads as the operand. -/
def Rereads (o : Operand) : Prop :=
  Run fragmentSingle o.markup.toList ∧ o.markup.toList ≠ [] ∧ parseChars o.markup.toList = .ok o

/-- A link whose operands reread from their markups and whose operator is one. -/
def Printable (l : Link) : Prop :=
  Rereads l.left ∧ ∀ op r, l.comparison = some (op, r) → IsOperator op.toList ∧ Rereads r

theorem run_of_singles {single : Char → Bool} {v : List Char} (h : ∀ c ∈ v, single c = true) :
    Run single v := by
  induction v with
  | nil => exact .nil
  | cons c v ih =>
    exact Run.cons (u := [c]) (.char (h c (by simp))) (ih fun x hx => h x (by simp [hx]))

theorem wordSingle_of_lower {c : Char} (h : (('a' ≤ c && c ≤ 'z') || c == '_') = true) :
    wordSingle c = true := by
  have hlt : c.toNat < 128 := by
    simp only [Bool.or_eq_true, Bool.and_eq_true, decide_eq_true_eq, beq_iff_eq] at h
    rcases h with ⟨-, h⟩ | rfl
    · have : c.toNat ≤ 122 := h
      omega
    · decide
  revert h
  exact of_ascii (P := fun c => (('a' ≤ c && c ≤ 'z') || c == '_') = true → wordSingle c = true)
    (by decide +kernel) hlt

theorem IsOperator.run {op : List Char} (h : IsOperator op) : Run wordSingle op := by
  refine run_of_singles fun c hc => ?_
  rcases h.2 with h | h
  · have hm := h c hc
    rw [show "=!<>".toList = ['=', '!', '<', '>'] from rfl] at hm
    simp only [List.mem_cons, List.not_mem_nil, or_false] at hm
    rcases hm with rfl | rfl | rfl | rfl <;> decide
  · exact wordSingle_of_lower (h c hc)

theorem keyword_run (k : Combinator) : Run wordSingle k.keyword.toList ∧ k.keyword.toList ≠ [] := by
  cases k <;> exact ⟨run_of_singles (Text.forall_mem_of_all (by decide)), by decide⟩

theorem Printable.words {l : Link} (h : Printable l) :
    ∀ w ∈ l.words.map String.toList, Run wordSingle w ∧ w ≠ [] := by
  obtain ⟨o, cmp⟩ := l
  obtain ⟨⟨hrun, hne, -⟩, hcmp⟩ := h
  have hleft : Run wordSingle o.markup.toList ∧ o.markup.toList ≠ [] :=
    ⟨hrun.mono fun _ => fragmentSingle_wordSingle, hne⟩
  cases cmp with
  | none =>
    intro w hw
    simp only [Link.words, List.map_cons, List.map_nil, List.mem_singleton] at hw
    exact hw ▸ hleft
  | some p =>
    obtain ⟨op, r⟩ := p
    obtain ⟨hop, hr, hrne, -⟩ := hcmp op r rfl
    intro w hw
    simp only [Link.words, List.map_cons, List.map_nil, List.mem_cons, List.not_mem_nil,
      or_false] at hw
    rcases hw with rfl | rfl | rfl
    · exact hleft
    · exact ⟨hop.run, hop.1⟩
    · exact ⟨hr.mono fun _ => fragmentSingle_wordSingle, hrne⟩

/-- A chain whose links print to words and whose words are no keywords is cut into the texts of
its links. -/
theorem split_text {c : Chain} (hp : ∀ l ∈ c.links, Printable l)
    (hkw : ∀ l ∈ c.links, ∀ w ∈ l.words, w ≠ "and" ∧ w ≠ "or") :
    split c.text = .ok ⟨c.head.text.toList, c.rest.map fun p => (p.1, p.2.text.toList)⟩ := by
  have htext := joinWords_links c.head c.rest
  rw [← Chain.text_toList] at htext
  have hwords : ∀ w ∈ c.head.words.map String.toList ++ restWords c.rest,
      Run wordSingle w ∧ w ≠ [] := by
    intro w hw
    rcases List.mem_append.1 hw with hw | hw
    · exact (hp c.head List.mem_cons_self).words w hw
    · obtain ⟨⟨k, l⟩, hkl, hw⟩ := List.mem_flatMap.1 hw
      rcases List.mem_cons.1 hw with rfl | hw
      · exact keyword_run k
      · exact (hp l (List.mem_cons_of_mem _ (List.mem_map.2 ⟨_, hkl, rfl⟩))).words w hw
  rw [split, htext, words_joinWords hwords, group_links _ _ _ hkw, List.reverse_nil,
    List.nil_append, assemble_closedChunks]

/-! ### Reading a printed link -/

/-- An operator before a space is read whole. -/
theorem operatorLength_operator {op : List Char} (h : IsOperator op) (r : List Char) :
    operatorLength (op ++ ' ' :: r) = op.length := by
  have hspace : ("=!<>".toList.contains ' ') = false := by decide
  obtain ⟨hne, hsym | hlow⟩ := h
  · have hall : ∀ c ∈ op, ("=!<>".toList.contains c) = true := by
      intro c hc
      simpa using hsym c hc
    have htake : (op ++ ' ' :: r).takeWhile (fun c => "=!<>".toList.contains c) = op := by
      rw [List.takeWhile_append_of_pos hall, List.takeWhile_cons_of_neg (by rw [hspace]; decide)]
      simp
    have hpos : 0 < op.length := List.length_pos_iff.2 hne
    simp only [operatorLength, htake, hpos, if_true]
  · obtain ⟨c, cs, rfl⟩ := List.exists_cons_of_ne_nil hne
    have hc : ("=!<>".toList.contains c) = false := by
      have hl := hlow c (by simp)
      have : c.toNat < 128 := by
        simp only [Bool.or_eq_true, Bool.and_eq_true, decide_eq_true_eq, beq_iff_eq] at hl
        rcases hl with ⟨-, h⟩ | rfl
        · have : c.toNat ≤ 122 := h
          omega
        · decide
      revert hl
      exact of_ascii (P := fun c => (('a' ≤ c && c ≤ 'z') || c == '_') = true →
        ("=!<>".toList.contains c) = false) (by decide +kernel) this
    have hall : ∀ x ∈ c :: cs, (('a' ≤ x && x ≤ 'z') || x == '_') = true := hlow
    have htake : (c :: cs ++ ' ' :: r).takeWhile (fun x => ('a' ≤ x && x ≤ 'z') || x == '_') =
        c :: cs := by
      rw [List.takeWhile_append_of_pos hall, List.takeWhile_cons_of_neg (by decide)]
      simp
    have hsym : (c :: cs ++ ' ' :: r).takeWhile (fun x => "=!<>".toList.contains x) = [] := by
      rw [List.cons_append, List.takeWhile_cons_of_neg (by rw [hc]; decide)]
    simp only [operatorLength, hsym, htake, List.length_nil, Nat.lt_irrefl, if_false]

section

variable {lm opl rm : List Char}

/-- The text of a link with no comparison matches as a lone operand. -/
theorem shape?_single (hl : Run fragmentSingle lm) (hne : lm ≠ []) :
    shape? lm = some ⟨lm, none, none, []⟩ := by
  obtain ⟨c, cs, rfl⟩ := List.exists_cons_of_ne_nil hne
  have hds : dropSpace (c :: cs) = c :: cs :=
    Token.dropSpace_cons (hl.head_solid lone_fragmentSingle c rfl)
  have hlen : runLength fragmentSingle (c :: cs) = cs.length + 1 := by
    simpa using runLength_run lone_fragmentSingle hl (w := []) (by simp [EndsRun])
  simp only [shape?, hds, hlen, Nat.add_eq_zero_iff, Nat.one_ne_zero, and_false, if_false]
  simp [operatorLength, show dropSpace ([] : List Char) = [] from rfl]

/-- The text of a comparison matches as its left operand, operator and right operand. -/
theorem shape?_compare (hl : Run fragmentSingle lm) (hlne : lm ≠ []) (hop : IsOperator opl)
    (hr : Run fragmentSingle rm) (hrne : rm ≠ []) :
    shape? (lm ++ ' ' :: (opl ++ ' ' :: rm)) = some ⟨lm, some opl, some rm, []⟩ := by
  have hends : EndsRun (' ' :: (opl ++ ' ' :: rm)) := by
    intro x r hx
    simp only [List.cons.injEq] at hx
    rw [← hx.1]
    decide
  obtain ⟨c, cs, rfl⟩ := List.exists_cons_of_ne_nil hlne
  have hds : dropSpace (c :: cs ++ ' ' :: (opl ++ ' ' :: rm)) = c :: cs ++ ' ' :: (opl ++ ' ' :: rm) :=
    Token.dropSpace_cons (hl.head_solid lone_fragmentSingle c rfl)
  have hlen := runLength_run lone_fragmentSingle hl hends
  -- after the left operand comes the operator, then the right operand
  obtain ⟨d, ds, rfl⟩ := List.exists_cons_of_ne_nil hop.1
  have hop' : dropSpace (' ' :: (d :: ds ++ ' ' :: rm)) = d :: ds ++ ' ' :: rm := by
    rw [show ' ' :: (d :: ds ++ ' ' :: rm) = [' '] ++ (d :: (ds ++ ' ' :: rm)) from rfl,
      Token.dropSpace_of_spaces (Text.forall_mem_of_all (by decide)),
      Token.dropSpace_cons (hop.run.head_solid lone_wordSingle d rfl)]
    rfl
  have hoplen := operatorLength_operator hop rm
  obtain ⟨e, es, rfl⟩ := List.exists_cons_of_ne_nil hrne
  have hr' : dropSpace (' ' :: (e :: es)) = e :: es := by
    rw [show ' ' :: (e :: es) = [' '] ++ (e :: es) from rfl,
      Token.dropSpace_of_spaces (Text.forall_mem_of_all (by decide)), Token.dropSpace_cons (hr.head_solid lone_fragmentSingle e rfl)]
  have hrlen : runLength fragmentSingle (e :: es) = es.length + 1 := by
    simpa using runLength_run lone_fragmentSingle hr (w := []) (by simp [EndsRun])
  simp only [shape?, hds, hlen]
  simp only [List.length_cons, Nat.add_eq_zero_iff, Nat.one_ne_zero, and_false, if_false]
  rw [List.take_left' (by simp), List.drop_left' (by simp), hop', hoplen]
  simp only [List.length_cons, Nat.add_eq_zero_iff, Nat.one_ne_zero, and_false, if_false]
  rw [List.take_left' (by simp), List.drop_left' (by simp), hr', hrlen]
  simp

end

/-- A printable link is read back from its text. -/
theorem link_text {l : Link} (hp : Printable l) (markup : String) :
    link markup l.text.toList = .ok l := by
  obtain ⟨o, cmp⟩ := l
  obtain ⟨⟨hrun, hne, hparse⟩, hcmp⟩ := hp
  cases cmp with
  | none =>
    have htext : (⟨o, none⟩ : Link).text.toList = o.markup.toList := rfl
    rw [htext]
    simp [link, shape?_single hrun hne, strip, dropSpace, hparse]
  | some p =>
    obtain ⟨op, r⟩ := p
    obtain ⟨hop, hr, hrne, hrparse⟩ := hcmp op r rfl
    have htext : (⟨o, some (op, r)⟩ : Link).text.toList =
        o.markup.toList ++ ' ' :: (op.toList ++ ' ' :: r.markup.toList) := by
      rw [Link.text_compare]
      simp
    rw [htext]
    simp [link, shape?_compare hrun hne hop hr hrne, hparse, hrparse]

/-! ### What the lenient parser reads prints back -/

theorem take_length_takeWhile (p : Char → Bool) (t : List Char) :
    t.take (t.takeWhile p).length = t.takeWhile p :=
  (List.prefix_iff_eq_take.1 (List.takeWhile_prefix p)).symm

/-- What the operator of a chunk matches is an operator. -/
theorem isOperator_take {t : List Char} (h : operatorLength t ≠ 0) :
    IsOperator (t.take (operatorLength t)) := by
  unfold operatorLength at h ⊢
  simp only at h ⊢
  split
  · rename_i hpos
    rw [take_length_takeWhile]
    refine ⟨fun hnil => ?_, .inl fun c hc => ?_⟩
    · rw [hnil] at hpos
      exact absurd hpos (by simp)
    · simpa using List.all_eq_true.1 List.all_takeWhile c hc
  · rename_i hpos
    rw [if_neg hpos] at h
    rw [take_length_takeWhile]
    refine ⟨fun hnil => h (by rw [hnil]; rfl), .inr fun c hc => ?_⟩
    exact List.all_eq_true.1 List.all_takeWhile c hc

/-- The run of fragment units at the start of a text, when there is one. -/
theorem fragment_take {cs : List Char} (h : runLength fragmentSingle cs ≠ 0) :
    Run fragmentSingle (cs.take (runLength fragmentSingle cs)) ∧
      cs.take (runLength fragmentSingle cs) ≠ [] := by
  refine ⟨run_take_runLength cs, fun hnil => ?_⟩
  rcases List.take_eq_nil_iff.1 hnil with h0 | rfl
  · exact h h0
  · exact h (runLength_of_unitLength_none rfl)

/-- What a chunk matches: fragment runs and an operator. -/
theorem shape?_some {chunk : List Char} {sh : Shape} (h : shape? chunk = some sh) :
    Run fragmentSingle sh.left ∧ sh.left ≠ [] ∧ (∀ op, sh.op = some op → IsOperator op) ∧
      ∀ r, sh.right = some r → Run fragmentSingle r ∧ r ≠ [] := by
  unfold shape? at h
  simp only at h
  split at h
  · cases h
  rename_i hleft
  obtain ⟨hrun, hne⟩ := fragment_take hleft
  split at h
  · simp only [Option.some.injEq] at h
    subst h
    refine ⟨hrun, hne, ?_, ?_⟩ <;> intro _ h <;> simp at h
  rename_i hop
  have hop' := isOperator_take hop
  split at h
  · simp only [Option.some.injEq] at h
    subst h
    refine ⟨hrun, hne, fun op h => ?_, fun _ h => by simp at h⟩
    simp only [Option.some.injEq] at h
    exact h ▸ hop'
  · rename_i hright
    simp only [Option.some.injEq] at h
    subst h
    refine ⟨hrun, hne, fun op h => ?_, fun r h => ?_⟩
    · simp only [Option.some.injEq] at h
      exact h ▸ hop'
    · simp only [Option.some.injEq] at h
      exact h ▸ fragment_take hright

/-- An operand read from a run of fragment units prints as a run that reads as the operand. -/
theorem rereads_of_fragment {f : List Char} {o : Operand} (hf : Run fragmentSingle f) (hne : f ≠ [])
    (hp : parseChars f = .ok o) : Rereads o := by
  rw [Rereads, markup_of_parseChars hp]
  refine ⟨hf.thins lone_fragmentSingle (thins_squeezeFrom none f), fun hnil => ?_,
    parseChars_squeeze hp⟩
  -- the first character is no white space, so squeezing keeps it
  obtain ⟨c, cs, rfl⟩ := List.exists_cons_of_ne_nil hne
  have hc := hf.head_solid lone_fragmentSingle c rfl
  simp [squeeze, squeezeFrom, hc] at hnil

/-- A link the lenient parser reads from a chunk is printable. -/
theorem printable_of_link {markup : String} {chunk : List Char} {l : Link}
    (h : link markup chunk = .ok l) : Printable l := by
  unfold link at h
  split at h
  · cases h
  rename_i sh hsh
  obtain ⟨hleft, hlne, hop, hright⟩ := shape?_some hsh
  split at h
  · split at h
    · split at h
      · cases h
      · rename_i o hp
        simp only [Except.ok.injEq] at h
        subst h
        exact ⟨rereads_of_fragment hleft hlne hp, fun _ _ h => by cases h⟩
    · cases h
  · cases h
  · rename_i op r hsop hsr
    split at h
    · cases h
    rename_i o hp
    split at h
    · cases h
    rename_i o2 hp2
    simp only [Except.ok.injEq] at h
    subst h
    obtain ⟨hr, hrne⟩ := hright r hsr
    refine ⟨rereads_of_fragment hleft hlne hp, fun op' r' h => ?_⟩
    simp only [Option.some.injEq, Prod.mk.injEq] at h
    obtain ⟨rfl, rfl⟩ := h
    exact ⟨by simpa using hop op hsop, rereads_of_fragment hr hrne hp2⟩

section

variable {α β ε : Type} {f : α → Except ε β}

/-- A map that may fail succeeds with `ys` exactly when each element maps to the matching element
of `ys`. -/
theorem mapM_eq_ok_iff {xs : List α} {ys : List β} : xs.mapM f = .ok ys ↔ xs.map f = ys.map .ok := by
  induction xs generalizing ys with
  | nil => cases ys <;> simp [pure, Except.pure]
  | cons x xs ih =>
    rw [List.mapM_cons]
    cases hx : f x with
    | error e => cases ys <;> simp [bind, Except.bind, hx]
    | ok y =>
      cases hxs : xs.mapM f with
      | error e =>
        simp only [bind, Except.bind, reduceCtorEq, false_iff]
        intro h
        cases ys with
        | nil => simp at h
        | cons y' ys' =>
          simp only [List.map_cons, List.cons.injEq] at h
          rw [ih.2 h.2] at hxs
          cases hxs
      | ok ys' =>
        have hmap := ih.1 hxs
        cases ys with
        | nil => simp [bind, Except.bind, pure, Except.pure]
        | cons y'' ys'' =>
          simp only [bind, Except.bind, pure, Except.pure, Except.ok.injEq, List.cons.injEq,
            List.map_cons, hx, hmap, List.map_inj_right (fun _ _ h => Except.ok.inj h)]

/-- Mapping the reversed list succeeds with the results reversed. -/
theorem mapM_reverse_eq_ok_iff {xs : List α} {ys : List β} :
    xs.reverse.mapM f = .ok ys ↔ xs.mapM f = .ok ys.reverse := by
  rw [mapM_eq_ok_iff, mapM_eq_ok_iff, List.map_reverse, List.reverse_eq_iff, List.map_reverse]

/-- A list mapped without error keeps its length, and each result comes from an element. -/
theorem mapM_ok {xs : List α} {ys : List β} (h : xs.mapM f = .ok ys) :
    ys.length = xs.length ∧ ∀ y ∈ ys, ∃ x ∈ xs, f x = .ok y := by
  have hmap := mapM_eq_ok_iff.1 h
  refine ⟨by simpa using (congrArg List.length hmap).symm, fun y hy => ?_⟩
  have hmem : Except.ok y ∈ xs.map f := hmap ▸ List.mem_map_of_mem hy
  obtain ⟨x, hx, hfx⟩ := List.mem_map.1 hmem
  exact ⟨x, hx, hfx⟩

theorem forall_of_mapM_ok {xs : List α} {ys : List β} (h : xs.mapM f = .ok ys) :
    ∀ x ∈ xs, ∃ y, f x = .ok y := by
  intro x hx
  have hmem : f x ∈ ys.map .ok := (mapM_eq_ok_iff.1 h) ▸ List.mem_map_of_mem hx
  obtain ⟨y, -, hy⟩ := List.mem_map.1 hmem
  exact ⟨y, hy.symm⟩

theorem mapM_ok_of_forall {xs : List α} (h : ∀ x ∈ xs, ∃ y, f x = .ok y) :
    ∃ ys, xs.mapM f = .ok ys := by
  induction xs with
  | nil => exact ⟨[], rfl⟩
  | cons x xs ih =>
    obtain ⟨y, hy⟩ := h x (by simp)
    obtain ⟨ys, hys⟩ := ih fun x' hx' => h x' (by simp [hx'])
    refine ⟨y :: ys, ?_⟩
    rw [mapM_eq_ok_iff] at hys ⊢
    simp [hy, hys]

/-- Mapping the images of results gives the results back. -/
theorem mapM_map_ok {g : β → α} {ys : List β} (h : ∀ y ∈ ys, f (g y) = .ok y) :
    (ys.map g).mapM f = .ok ys := by
  rw [mapM_eq_ok_iff, List.map_map]
  exact List.map_congr_left h

/-- A map that fails fails at an element, with that element's error. -/
theorem mapM_eq_error {xs : List α} {e : ε} (h : xs.mapM f = .error e) : ∃ x ∈ xs, f x = .error e := by
  induction xs with
  | nil => cases h
  | cons x xs ih =>
    rw [List.mapM_cons] at h
    cases hx : f x with
    | error e' =>
      simp only [hx, bind, Except.bind, Except.error.injEq] at h
      exact ⟨x, by simp, by rw [hx, h]⟩
    | ok y =>
      cases hxs : xs.mapM f with
      | error e' =>
        simp only [hx, hxs, bind, Except.bind, Except.error.injEq] at h
        obtain ⟨x', hx', hfx'⟩ := ih (by rw [hxs, h])
        exact ⟨x', by simp [hx'], hfx'⟩
      | ok ys => simp [hx, hxs, bind, Except.bind, pure, Except.pure] at h

end

/-- A chain whose links print to words the lenient grammar reads back, none a keyword, and that
has room in the bound is read from its text. -/
theorem parse_printed {limit : Int} {c : Chain} (hprint : ∀ l ∈ c.links, Printable l)
    (hkw : ∀ l ∈ c.links, ∀ w ∈ l.words, w ≠ "and" ∧ w ≠ "or") (hlen : (c.length : Int) ≤ limit) :
    parse limit c.text = .ok c := by
  obtain ⟨head, rest⟩ := c
  unfold parse
  rw [split_text hprint hkw]
  -- the chunks are as many as the links, and each reads as its link
  have hcount : ¬ limit < (Pieces.count ⟨head.text.toList, rest.map fun p => (p.1, p.2.text.toList)⟩) := by
    simp only [Pieces.count, List.length_map, Chain.length] at hlen ⊢
    omega
  dsimp only
  rw [if_neg hcount, ← List.map_reverse, mapM_map_ok ?chunks]
  · simp only [link_text (hprint head List.mem_cons_self), List.reverse_reverse]
  · rintro ⟨k, l⟩ hkl
    have hl : Printable l := hprint l (List.mem_cons_of_mem _
      (List.mem_map.2 ⟨(k, l), List.mem_reverse.1 hkl, rfl⟩))
    simp only [link_text hl]
    rfl

/-- A chain the lenient parser reads prints to a text that it reads as the same chain, when no link
prints a keyword as one of its words. -/
theorem parse_text {limit : Int} {markup : String} {c : Chain} (h : parse limit markup = .ok c)
    (hkw : ∀ l ∈ c.links, ∀ w ∈ l.words, w ≠ "and" ∧ w ≠ "or") : parse limit c.text = .ok c := by
  unfold parse at h
  split at h
  · cases h
  rename_i pieces hsplit
  split at h
  · cases h
  rename_i hcount
  split at h
  · cases h
  rename_i restRev hmap
  split at h
  · cases h
  rename_i head hhead
  simp only [Except.ok.injEq] at h
  subst h
  obtain ⟨hlen, hmem⟩ := mapM_ok hmap
  -- every link the parser read is printable
  have hprint : ∀ l ∈ (⟨head, restRev.reverse⟩ : Chain).links, Printable l := by
    intro l hl
    rcases List.mem_cons.1 hl with rfl | hl
    · exact printable_of_link hhead
    · obtain ⟨⟨k, l'⟩, hkl, rfl⟩ := List.mem_map.1 hl
      obtain ⟨⟨k', chunk⟩, -, hchunk⟩ := hmem (k, l') (List.mem_reverse.1 hkl)
      have hlink : link markup chunk = .ok l' := by
        simp only at hchunk
        cases hl : link markup chunk with
        | error e =>
          rw [hl] at hchunk
          cases hchunk
        | ok l'' =>
          rw [hl] at hchunk
          simp only [Except.map, Except.ok.injEq, Prod.mk.injEq] at hchunk
          rw [hchunk.2]
      exact printable_of_link hlink
  refine parse_printed hprint hkw ?_
  simp only [Pieces.count, List.length_reverse, Chain.length, hlen] at hcount ⊢
  omega

end Lenient

/-! ### Both modes -/

/-- A chain read in the strict or the lenient mode prints to a text that the same mode reads as the
same chain; in the lenient mode, as long as no link prints `and` or `or` as one of its words. -/
theorem Mode.read_text {limit : Int} (hlim : 1 ≤ limit) {markup : String} {c : Chain} :
    ((Mode.strict.read limit markup).2 = .ok c → (Mode.strict.read limit c.text).2 = .ok c) ∧
      ((Mode.lax.read limit markup).2 = .ok c →
        (∀ l ∈ c.links, ∀ w ∈ l.words, w ≠ "and" ∧ w ≠ "or") →
        (Mode.lax.read limit c.text).2 = .ok c) :=
  ⟨Strict.parse_text hlim, Lenient.parse_text⟩

/-- With room for five links, both modes read `x  ==  1 or y` as the comparison of `x` with `1`
joined by `or` to `y`; no word of it is a keyword, and each mode reads its text back as it. -/
theorem Mode.read_text_five_links :
    let c : Chain := ⟨⟨.path (.name "x") [], some ("==", .literal (.int 1) "1")⟩,
      [(.or, ⟨.path (.name "y") [], none⟩)]⟩
    (1 : Int) ≤ 5 ∧
      (Mode.strict.read 5 "x  ==  1 or y").2 = .ok c ∧ (Mode.strict.read 5 c.text).2 = .ok c ∧
      (Mode.lax.read 5 "x  ==  1 or y").2 = .ok c ∧
      (∀ l ∈ c.links, ∀ w ∈ l.words, w ≠ "and" ∧ w ≠ "or") ∧ (Mode.lax.read 5 c.text).2 = .ok c := by
  intro c
  have hstrict : (Mode.strict.read 5 "x  ==  1 or y").2 = .ok c := by
    with_unfolding_all rfl
  have hlax : (Mode.lax.read 5 "x  ==  1 or y").2 = .ok c := by
    with_unfolding_all rfl
  have hwords : ∀ l ∈ c.links, ∀ w ∈ l.words, w ≠ "and" ∧ w ≠ "or" := by
    decide
  have hlim : (1 : Int) ≤ 5 := by decide
  exact ⟨hlim, hstrict, (Mode.read_text hlim).1 hstrict, hlax, hwords, (Mode.read_text hlim).2 hlax hwords⟩

/-- Read leniently, `a and(b..c)` compares `a` to `(b..c)` with the operator `and`; its text
`a and (b..c)` reads leniently as two links joined by `and`. -/
theorem Mode.read_lax_text_splits_at_operator :
    (Mode.lax.read 50 "a and(b..c)").2 =
        .ok ⟨⟨.path (.name "a") [], some ("and", .range (.path (.name "b") []) (.path (.name "c") []))⟩,
          []⟩ ∧
      Chain.text ⟨⟨.path (.name "a") [],
          some ("and", .range (.path (.name "b") []) (.path (.name "c") []))⟩, []⟩ = "a and (b..c)" ∧
      (Mode.lax.read 50 "a and (b..c)").2 =
        .ok ⟨⟨.path (.name "a") [], none⟩,
          [(.and, ⟨.range (.path (.name "b") []) (.path (.name "c") []), none⟩)]⟩ :=
  ⟨by with_unfolding_all rfl, by with_unfolding_all rfl, by with_unfolding_all rfl⟩

end Branching
