import Branching.Text.Space
import Branching.Text.Word

/-!
# Scanning operand text

The pieces an operand's text is cut into before it is read: names, lookup
keys, bracketed parts and the two ends of a range. Each scanner returns the
piece and the rest of the text; the lemmas here say that both are shorter than
the text, which is what lets the operand reader recurse on them.
-/

namespace Branching.Operand

open Text

/-- Whether a character may start a name: an ASCII letter or the underscore. -/
def isNameStart (c : Char) : Bool :=
  ('A' ≤ c && c ≤ 'Z') || ('a' ≤ c && c ≤ 'z') || c == '_'

/-- Whether a character may continue a name or key: a word character or `-`. -/
def isNameChar (c : Char) : Bool := isWordChar c || c == '-'

/-- A name at the start of the text: a name start, name characters, and an
optional `?`; with the rest of the text. -/
def spanName : List Char → Option (List Char × List Char)
  | [] => none
  | c :: rest =>
    if isNameStart c then
      match rest.dropWhile isNameChar with
      | '?' :: after => some (c :: rest.takeWhile isNameChar ++ ['?'], after)
      | after => some (c :: rest.takeWhile isNameChar, after)
    else none

/-- A lookup key at the start of the text: one or more name characters and an
optional `?`; with the rest of the text. -/
def spanKey (cs : List Char) : Option (List Char × List Char) :=
  if (cs.takeWhile isNameChar).isEmpty then none
  else
    match cs.dropWhile isNameChar with
    | '?' :: after => some (cs.takeWhile isNameChar ++ ['?'], after)
    | after => some (cs.takeWhile isNameChar, after)

/-- The inside of a bracketed part whose `[` has been read, and the text after
its closing `]`. `depth` counts the open brackets; inside quotes brackets do not
count. -/
def bracketRest : Nat → Option Char → List Char → Option (List Char × List Char)
  | _, _, [] => none
  | depth, some q, c :: rest =>
    (bracketRest depth (if c = q then none else some q) rest).map fun p => (c :: p.1, p.2)
  | depth, none, c :: rest =>
    if c = '"' ∨ c = '\'' then
      (bracketRest depth (some c) rest).map fun p => (c :: p.1, p.2)
    else if c = '[' then
      (bracketRest (depth + 1) none rest).map fun p => (c :: p.1, p.2)
    else if c = ']' then
      if depth ≤ 1 then some ([], rest)
      else (bracketRest (depth - 1) none rest).map fun p => (c :: p.1, p.2)
    else (bracketRest depth none rest).map fun p => (c :: p.1, p.2)

/-- A bracketed part at the start of the text: its inside and the rest. -/
def spanBracket : List Char → Option (List Char × List Char)
  | '[' :: rest => bracketRest 1 none rest
  | _ => none

/-- The end of a range after its `..`, given the text up to the closing
parenthesis: the text without white space at either end, or, when it is all
white space, its last character. -/
def rangeEnd (r : List Char) : Option (List Char) :=
  if (dropSpace r).isEmpty then r.getLast?.map fun c => [c] else some (strip r)

/-- The range end that follows `rem` when `rem` is white space, `..` and an end. -/
def afterDots (rem : List Char) : Option (List Char) :=
  match dropSpace rem with
  | '.' :: '.' :: r => rangeEnd r
  | _ => none

/-- The first split of `taken ++ rem` into a non-empty start (at least `taken`
and one more character) and a range end behind `..`. -/
def splitDots (taken : List Char) : List Char → Option (List Char × List Char)
  | [] => none
  | c :: rem =>
    match afterDots rem with
    | some b => some (taken ++ [c], b)
    | none => splitDots (taken ++ [c]) rem

/-- The two ends of a range `(first..last)`: the shortest first end after the
opening white space such that `..` and a last end follow; failing that, the
last white space character before the first end when `..` comes right after. -/
def rangeSplit (t : List Char) : Option (List Char × List Char) :=
  match t with
  | '(' :: rest =>
    if rest.getLast? = some ')' then
      let body := rest.dropLast
      let lead := body.takeWhile isSpace
      let start := body.dropWhile isSpace
      match splitDots [] start with
      | some p => some p
      | none =>
        match lead.getLast?, afterDots start with
        | some c, some b => some ([c], b)
        | _, _ => none
    else none
  | _ => none

/-! ### Length facts -/

theorem length_spanName {cs piece rest : List Char} (h : spanName cs = some (piece, rest)) :
    rest.length < cs.length := by
  match cs, h with
  | c :: tail, h =>
    simp only [spanName] at h
    split at h
    · have hsplit := List.takeWhile_append_dropWhile (p := isNameChar) (l := tail)
      have hlen := congrArg List.length hsplit
      simp only [List.length_append] at hlen
      split at h
      · rename_i after heq
        simp only [Option.some.injEq, Prod.mk.injEq] at h
        obtain ⟨-, rfl⟩ := h
        rw [heq] at hlen
        simp only [List.length_cons] at hlen
        simp only [List.length_cons]
        omega
      · rename_i heq
        simp only [Option.some.injEq, Prod.mk.injEq] at h
        obtain ⟨-, rfl⟩ := h
        simp only [List.length_cons]
        omega
    · simp at h

theorem length_spanKey {cs piece rest : List Char} (h : spanKey cs = some (piece, rest)) :
    rest.length < cs.length := by
  simp only [spanKey] at h
  split at h
  · simp at h
  · rename_i hne
    have hsplit := List.takeWhile_append_dropWhile (p := isNameChar) (l := cs)
    have hlen := congrArg List.length hsplit
    simp only [List.length_append] at hlen
    have hpos : 0 < (cs.takeWhile isNameChar).length := by
      cases hc : cs.takeWhile isNameChar with
      | nil => simp [hc] at hne
      | cons _ _ => simp
    split at h
    · rename_i after heq
      simp only [Option.some.injEq, Prod.mk.injEq] at h
      obtain ⟨-, rfl⟩ := h
      rw [heq] at hlen
      simp only [List.length_cons] at hlen
      omega
    · simp only [Option.some.injEq, Prod.mk.injEq] at h
      obtain ⟨-, rfl⟩ := h
      omega

/-- A character kept in front of the inside: the bound on the rest of the scan holds one
character longer. -/
theorem length_keep_cons {c : Char} {tail inner rest : List Char}
    {x : Option (List Char × List Char)} (h : x.map (fun p => (c :: p.1, p.2)) = some (inner, rest))
    (hx : ∀ {i r : List Char}, x = some (i, r) → i.length + r.length < tail.length) :
    inner.length + rest.length < (c :: tail).length := by
  obtain ⟨⟨i, r⟩, hp, he⟩ := Option.map_eq_some_iff.1 h
  simp only [Prod.mk.injEq] at he
  obtain ⟨rfl, rfl⟩ := he
  have := hx hp
  simp only [List.length_cons]
  omega

theorem length_bracketRest {d : Nat} {q : Option Char} {cs inner rest : List Char}
    (h : bracketRest d q cs = some (inner, rest)) :
    inner.length + rest.length < cs.length := by
  induction cs generalizing d q inner rest with
  | nil => simp [bracketRest] at h
  | cons c tail ih =>
    cases q with
    | some q =>
      simp only [bracketRest] at h
      exact length_keep_cons h ih
    | none =>
      simp only [bracketRest] at h
      -- every branch but the closing bracket keeps `c` and scans on
      split at h
      · exact length_keep_cons h ih
      · split at h
        · exact length_keep_cons h ih
        · split at h
          · split at h
            · simp only [Option.some.injEq, Prod.mk.injEq] at h
              obtain ⟨rfl, rfl⟩ := h
              simp
            · exact length_keep_cons h ih
          · exact length_keep_cons h ih

theorem length_spanBracket {cs inner rest : List Char} (h : spanBracket cs = some (inner, rest)) :
    inner.length < cs.length ∧ rest.length < cs.length := by
  unfold spanBracket at h
  split at h
  · have := length_bracketRest h
    simp only [List.length_cons]
    omega
  · simp at h

theorem length_rangeEnd {r b : List Char} (h : rangeEnd r = some b) : b.length ≤ r.length := by
  simp only [rangeEnd] at h
  split at h
  · obtain ⟨c, hc, rfl⟩ := Option.map_eq_some_iff.1 h
    have : r ≠ [] := by
      intro hr
      simp [hr] at hc
    cases r with
    | nil => exact absurd rfl this
    | cons _ _ => simp
  · simp only [Option.some.injEq] at h
    subst h
    exact length_strip_le r

theorem length_afterDots {rem b : List Char} (h : afterDots rem = some b) : b.length < rem.length := by
  simp only [afterDots] at h
  have hd := length_dropSpace_le rem
  split at h
  · rename_i r heq
    have := length_rangeEnd h
    rw [heq] at hd
    simp only [List.length_cons] at hd
    omega
  · simp at h

theorem length_splitDots {taken rem a b : List Char} (h : splitDots taken rem = some (a, b)) :
    a.length ≤ taken.length + rem.length ∧ b.length < rem.length := by
  induction rem generalizing taken with
  | nil => simp [splitDots] at h
  | cons c tail ih =>
    simp only [splitDots] at h
    split at h
    · rename_i b' hb
      simp only [Option.some.injEq, Prod.mk.injEq] at h
      obtain ⟨rfl, rfl⟩ := h
      have := length_afterDots hb
      simp only [List.length_append, List.length_cons, List.length_nil]
      omega
    · have := ih h
      simp only [List.length_append, List.length_cons, List.length_nil] at this ⊢
      omega

theorem length_rangeSplit {t a b : List Char} (h : rangeSplit t = some (a, b)) :
    a.length < t.length ∧ b.length < t.length := by
  unfold rangeSplit at h
  split at h
  · rename_i rest
    split at h
    · have hbody : rest.dropLast.length < rest.length + 1 := by
        simp only [List.length_dropLast]
        omega
      have hsplit := List.takeWhile_append_dropWhile (p := isSpace) (l := rest.dropLast)
      have hlen := congrArg List.length hsplit
      simp only [List.length_append] at hlen
      simp only at h
      split at h
      · rename_i p hp
        simp only [Option.some.injEq] at h
        subst h
        have := length_splitDots hp
        simp only [List.length_nil, List.length_cons] at this ⊢
        omega
      · split at h
        · rename_i c b' _ hb
          simp only [Option.some.injEq, Prod.mk.injEq] at h
          obtain ⟨rfl, rfl⟩ := h
          have := length_afterDots hb
          simp only [List.length_cons, List.length_nil]
          omega
        · simp at h
    · simp at h
  · simp at h

end Branching.Operand
