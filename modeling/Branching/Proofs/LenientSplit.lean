import Branching.Proofs.LenientText

/-!
# The lenient parser: split, then read each chunk

The lenient grammar reads a header in two steps. It cuts the header's words at the keywords `and`
and `or` (`Lenient.split`): the runs of other words between keywords, each joined by single
spaces, are the chunks, and the keywords between the runs join them. Then it reads each chunk as a
link (`Lenient.link`) and chains the links with the keywords in source order.

Cutting succeeds exactly when no run between keywords is empty: there is a word, no keyword begins
or ends the header, and no two keywords stand side by side. The runs are the library's
`List.splitOnP` at the keywords. The chunks are counted against the bound before any is read, and
the parser reads them from the last to the first; the order decides which error is reported, but
neither whether the header is read nor what it is read as.

## Main statements

- `Lenient.group_eq_ok_iff`: what grouping words into chunks gives, through the runs between
  keywords.
- `Lenient.separable_iff`: the conditions on the words under which no run is empty.
- `Lenient.parse_ok_iff_chunks`: a header reads as a chain exactly when it splits into no more
  chunks than the bound and the chunks read, in order, as the chain's links.
- `Lenient.parse_splits_then_reads_chunks`: the lenient parser is the split followed by reading
  each chunk, in source order.
-/

namespace Branching

namespace Lenient

/-- A word that divides chunks: `and` or `or`. -/
def isKeyword (w : List Char) : Bool := (keyword? w).isSome

/-- The chunks of a split header, in source order. -/
def Pieces.chunks (p : Pieces) : List (List Char) := p.first :: p.rest.map Prod.snd

/-- The keywords between the chunks, in source order. -/
def Pieces.keywords (p : Pieces) : List Combinator := p.rest.map Prod.fst

/-- Words a header can be split at: there is a word, no keyword comes first or last, and no two
keywords stand next to each other. -/
def Separable (ws : List (List Char)) : Prop :=
  ws ≠ [] ∧ (∀ w ∈ ws.head?, keyword? w = none) ∧ (∀ w ∈ ws.getLast?, keyword? w = none) ∧
    ∀ before x y after, ws = before ++ x :: y :: after → keyword? x = none ∨ keyword? y = none

theorem isKeyword_eq_false {w : List Char} : isKeyword w = false ↔ keyword? w = none := by
  simp [isKeyword]

namespace Pieces

theorem ext_chunks {p q : Pieces} (hc : p.chunks = q.chunks) (hk : p.keywords = q.keywords) :
    p = q := by
  obtain ⟨first, rest⟩ := p
  obtain ⟨first', rest'⟩ := q
  simp only [chunks, keywords, List.cons.injEq] at hc hk
  obtain ⟨rfl, hsnd⟩ := hc
  -- a list of pairs is the zip of its first and its second parts
  rw [← List.zip_unzip rest, ← List.zip_unzip rest', List.unzip_fst, List.unzip_snd,
    List.unzip_fst, List.unzip_snd, hk, hsnd]

/-- The count the bound is checked against is the number of chunks. -/
theorem count_eq (p : Pieces) : p.count = p.chunks.length := by
  simp [count, chunks]

end Pieces

@[simp] theorem assemble_chunks (closed : List (List Char × Combinator)) (last : List Char) :
    (assemble closed last).chunks = closed.map Prod.fst ++ [last] := by
  induction closed with
  | nil => rfl
  | cons q closed ih =>
    simp only [assemble, Pieces.chunks, List.map_cons, List.cons_append] at ih ⊢
    rw [ih]

@[simp] theorem assemble_keywords (closed : List (List Char × Combinator)) (last : List Char) :
    (assemble closed last).keywords = closed.map Prod.snd := by
  induction closed with
  | nil => rfl
  | cons q closed ih =>
    simp only [assemble, Pieces.keywords, List.map_cons] at ih ⊢
    rw [ih]

/-! ### Grouping words into chunks -/

section

variable (markup : String)

/-- Grouping words into chunks succeeds exactly when no run of words between keywords is empty.
It then gives the chunks already closed followed by those runs, each joined by spaces, with the
keywords between them. `pending` holds the words of the open run, last first, as the accumulator
of `List.splitOnPPrepend` does. -/
theorem group_eq_ok_iff (ws pending : List (List Char)) (closed : List (List Char × Combinator))
    (p : Pieces) :
    group markup ws pending closed = .ok p ↔
      (∀ run ∈ ws.splitOnPPrepend isKeyword pending, run ≠ []) ∧
        p.chunks = closed.reverse.map Prod.fst ++
          (ws.splitOnPPrepend isKeyword pending).map joinWords ∧
        p.keywords = closed.reverse.map Prod.snd ++ ws.filterMap keyword? := by
  induction ws generalizing pending closed with
  | nil =>
    rw [List.splitOnPPrepend_nil, List.filterMap_nil, List.append_nil]
    cases pending with
    | nil =>
      -- no word before the end: the header is empty or ends with a keyword
      have hne : group markup [] [] closed ≠ .ok p := by
        rcases closed with _ | ⟨⟨_, _⟩, _⟩ <;> simp [group]
      simp [hne]
    | cons w pending =>
      simp only [group, List.isEmpty_cons, Bool.false_eq_true, if_false, Except.ok.injEq]
      constructor
      · rintro rfl
        simp
      · rintro ⟨-, hc, hk⟩
        apply Pieces.ext_chunks <;> simp [hc, hk]
  | cons w ws ih =>
    cases hk : keyword? w with
    | none =>
      rw [List.splitOnPPrepend_cons_neg (isKeyword_eq_false.2 hk), List.filterMap_cons_none hk,
        ← ih]
      simp only [group, hk]
    | some k =>
      rw [List.splitOnPPrepend_cons_pos (by simp [isKeyword, hk]), List.filterMap_cons_some hk]
      cases pending with
      | nil =>
        -- a keyword with no word before it
        simp [group, hk]
      | cons v pending =>
        -- a keyword closes the open run
        simp only [group, hk, List.isEmpty_cons, Bool.false_eq_true, if_false]
        rw [ih, ← List.splitOnPPrepend_nil_right]
        simp

theorem group_ok_iff (ws pending : List (List Char)) (closed : List (List Char × Combinator)) :
    (∃ p, group markup ws pending closed = .ok p) ↔
      ∀ run ∈ ws.splitOnPPrepend isKeyword pending, run ≠ [] := by
  constructor
  · rintro ⟨p, hp⟩
    exact ((group_eq_ok_iff markup ws pending closed p).1 hp).1
  · induction ws generalizing pending closed with
    | nil =>
      intro h
      rw [List.splitOnPPrepend_nil] at h
      cases pending with
      | nil => simp at h
      | cons v pending => exact ⟨assemble closed.reverse (joinWords (v :: pending).reverse), rfl⟩
    | cons w ws ih =>
      cases hk : keyword? w with
      | none =>
        rw [List.splitOnPPrepend_cons_neg (isKeyword_eq_false.2 hk)]
        intro h
        obtain ⟨p, hp⟩ := ih (w :: pending) closed h
        exact ⟨p, by simpa [group, hk] using hp⟩
      | some k =>
        rw [List.splitOnPPrepend_cons_pos (by simp [isKeyword, hk]), List.forall_mem_cons]
        rintro ⟨hne, h⟩
        obtain ⟨p, hp⟩ := ih [] ((joinWords pending.reverse, k) :: closed) (by simpa using h)
        refine ⟨p, ?_⟩
        have hpending : pending ≠ [] := by simpa using hne
        simpa [group, hk, hpending] using hp

end

/-! ### When no run is empty -/

theorem separable_plain {xs : List (List Char)} (hxs : ∀ w ∈ xs, keyword? w = none) :
    Separable xs ↔ xs ≠ [] := by
  constructor
  · exact fun h => h.1
  · intro hne
    refine ⟨hne, fun w hw => hxs w (List.mem_of_mem_head? hw),
      fun w hw => hxs w (List.mem_of_mem_getLast? hw), ?_⟩
    rintro before x y after rfl
    exact .inl (hxs x (by simp))

/-- Words after a run with no keyword and a keyword can be split exactly when the run has a word
and the words after the keyword can be split. -/
theorem separable_keyword {xs ws : List (List Char)} {k : List Char}
    (hxs : ∀ w ∈ xs, keyword? w = none) (hk : keyword? k ≠ none) :
    Separable (xs ++ k :: ws) ↔ xs ≠ [] ∧ Separable ws := by
  constructor
  · rintro ⟨-, hhead, hlast, hadj⟩
    have hxs_ne : xs ≠ [] := by
      rintro rfl
      exact hk (hhead k (by simp))
    have hws_ne : ws ≠ [] := by
      rintro rfl
      exact hk (hlast k (by simp))
    obtain ⟨y, ws', rfl⟩ := List.exists_cons_of_ne_nil hws_ne
    refine ⟨hxs_ne, hws_ne, ?_, ?_, ?_⟩
    · -- the word after a keyword is no keyword
      intro w hw
      simp only [List.head?_cons, Option.mem_def, Option.some.injEq] at hw
      rw [← hw]
      exact (hadj xs k y ws' rfl).resolve_left hk
    · intro w hw
      exact hlast w (by simpa [List.getLast?_append] using hw)
    · rintro before x z after heq
      exact hadj (xs ++ k :: before) x z after (by simp [heq])
  · rintro ⟨hxs_ne, hws_ne, hhead, hlast, hadj⟩
    obtain ⟨x₀, xs', rfl⟩ := List.exists_cons_of_ne_nil hxs_ne
    obtain ⟨y₀, ws', rfl⟩ := List.exists_cons_of_ne_nil hws_ne
    have hlast_eq : (x₀ :: xs' ++ k :: y₀ :: ws').getLast? = (y₀ :: ws').getLast? := by
      rw [List.getLast?_append, List.getLast?_cons_cons, List.getLast?_cons, Option.some_or]
    refine ⟨by simp, ?_, ?_, ?_⟩
    · intro w hw
      simp only [List.cons_append, List.head?_cons, Option.mem_def, Option.some.injEq] at hw
      rw [← hw]
      exact hxs x₀ (by simp)
    · intro w hw
      exact hlast w (hlast_eq ▸ hw)
    · intro before x y after heq
      rcases List.append_eq_append_iff.1 heq with ⟨as, rfl, has⟩ | ⟨bs, hbefore, hbs⟩
      · -- the pair starts at the keyword or after it
        rcases as with _ | ⟨a, as⟩
        · simp only [List.nil_append, List.cons.injEq] at has
          obtain ⟨-, hy, -⟩ := has
          rw [← hy]
          exact .inr (hhead y₀ (by simp))
        · simp only [List.cons_append, List.cons.injEq] at has
          obtain ⟨rfl, heq'⟩ := has
          exact hadj as x y after heq'
      · -- the pair starts in the run before the keyword
        rcases bs with _ | ⟨b, bs⟩
        · simp only [List.nil_append, List.cons.injEq] at hbs
          obtain ⟨-, hy, -⟩ := hbs
          rw [hy]
          exact .inr (hhead y₀ (by simp))
        · simp only [List.cons_append, List.cons.injEq] at hbs
          obtain ⟨rfl, -⟩ := hbs
          exact .inl (hxs x (by rw [hbefore]; simp))

/-- No run between keywords is empty exactly when the words, after those of the open run, can be
split. -/
theorem runs_ne_nil_iff {ws acc : List (List Char)} (hacc : ∀ w ∈ acc, keyword? w = none) :
    (∀ run ∈ ws.splitOnPPrepend isKeyword acc, run ≠ []) ↔ Separable (acc.reverse ++ ws) := by
  induction ws generalizing acc with
  | nil =>
    rw [List.splitOnPPrepend_nil, List.append_nil, separable_plain (by simpa using hacc)]
    simp
  | cons w ws ih =>
    cases hk : keyword? w with
    | none =>
      rw [List.splitOnPPrepend_cons_neg (isKeyword_eq_false.2 hk),
        ih (by simpa [hk] using hacc)]
      simp
    | some k =>
      have hrest := @ih [] (by simp)
      simp only [List.splitOnPPrepend_nil_right, List.reverse_nil, List.nil_append] at hrest
      rw [List.splitOnPPrepend_cons_pos (by simp [isKeyword, hk]), List.forall_mem_cons, hrest,
        separable_keyword (by simpa using hacc) (by simp [hk])]

theorem separable_iff (ws : List (List Char)) :
    Separable ws ↔ ∀ run ∈ ws.splitOnP isKeyword, run ≠ [] := by
  simpa using (@runs_ne_nil_iff ws [] (by simp)).symm

/-! ### Splitting a header -/

/-- A header splits into the runs of its words between keywords, each joined by spaces, with the
keywords between them; it splits exactly when no run is empty. -/
theorem split_eq_ok_iff (markup : String) (p : Pieces) :
    split markup = .ok p ↔ (∀ run ∈ (words markup.toList).splitOnP isKeyword, run ≠ []) ∧
      p.chunks = ((words markup.toList).splitOnP isKeyword).map joinWords ∧
      p.keywords = (words markup.toList).filterMap keyword? := by
  simpa [split] using group_eq_ok_iff markup (words markup.toList) [] [] p

theorem split_ok_iff (markup : String) :
    (∃ p, split markup = .ok p) ↔ Separable (words markup.toList) := by
  rw [separable_iff]
  simpa [split] using group_ok_iff markup (words markup.toList) [] []

/-! ### Reading the chunks -/

/-- Reading the chunks after the first, each kept with its keyword, gives `out` exactly when the
chunks read as the links of `out`, and the keywords of `out` are theirs. -/
theorem map_keyed_eq_ok_iff {markup : String}
    {g : Combinator × List Char → Except SyntaxError (Combinator × Link)}
    (hg : ∀ k chunk, g (k, chunk) = (link markup chunk).map (k, ·))
    {rest : List (Combinator × List Char)} {out : List (Combinator × Link)} :
    rest.map g = out.map .ok ↔
      (rest.map Prod.snd).map (link markup) = (out.map Prod.snd).map .ok ∧
        out.map Prod.fst = rest.map Prod.fst := by
  induction rest generalizing out with
  | nil => cases out <;> simp
  | cons q rest ih =>
    obtain ⟨k, chunk⟩ := q
    cases out with
    | nil => simp
    | cons o out =>
      obtain ⟨k', l⟩ := o
      simp only [List.map_cons, List.cons.injEq, hg, ih]
      cases link markup chunk with
      | error e => simp [Except.map]
      | ok l' =>
        simp only [Except.map, Except.ok.injEq, Prod.mk.injEq]
        constructor
        · rintro ⟨⟨rfl, rfl⟩, h₁, h₂⟩
          exact ⟨⟨rfl, h₁⟩, rfl, h₂⟩
        · rintro ⟨⟨rfl, h₁⟩, rfl, h₂⟩
          exact ⟨⟨rfl, rfl⟩, h₁, h₂⟩

/-- A header reads as the chain `c` exactly when it splits into no more chunks than the bound, the
chunks read in order as the links of `c`, and the keywords between the chunks join them. -/
theorem parse_ok_iff_chunks (limit : Int) (markup : String) (c : Chain) :
    parse limit markup = .ok c ↔
      ∃ p, split markup = .ok p ∧ (p.count : Int) ≤ limit ∧
        p.chunks.mapM (link markup) = .ok c.links ∧ c.rest.map Prod.fst = p.keywords := by
  -- the chunks read as the links: the first as the head, each later one as its link
  have hchunks : ∀ p : Pieces, p.chunks.mapM (link markup) = .ok c.links ↔
      link markup p.first = .ok c.head ∧
        (p.rest.map Prod.snd).map (link markup) = (c.rest.map Prod.snd).map .ok := by
    intro p
    rw [mapM_eq_ok_iff]
    simp [Pieces.chunks, Chain.links]
  constructor
  · intro h
    unfold parse at h
    split at h
    · cases h
    rename_i pieces hsplit
    split at h
    · cases h
    rename_i hcount
    split at h
    · cases h
    rename_i restRev hmap
    split at h
    · cases h
    rename_i head hhead
    simp only [Except.ok.injEq] at h
    subst h
    rw [mapM_reverse_eq_ok_iff, mapM_eq_ok_iff, map_keyed_eq_ok_iff (fun _ _ => rfl)] at hmap
    refine ⟨pieces, hsplit, by omega, (hchunks pieces).2 ⟨hhead, hmap.1⟩, hmap.2⟩
  · rintro ⟨p, hsplit, hcount, hmapc, hkw⟩
    obtain ⟨hhead, hrest⟩ := (hchunks p).1 hmapc
    unfold parse
    rw [hsplit]
    simp only
    rw [if_neg (by omega), (@mapM_reverse_eq_ok_iff _ _ _ _ _ c.rest.reverse).2 ?later]
    case later =>
      rw [List.reverse_reverse, mapM_eq_ok_iff, map_keyed_eq_ok_iff (fun _ _ => rfl)]
      exact ⟨hrest, hkw⟩
    simp only [hhead, List.reverse_reverse]

/-- A header reads as some chain exactly when it splits into no more chunks than the bound and
every chunk reads as a link. -/
theorem parse_ok_iff_chunks_read (limit : Int) (markup : String) :
    (∃ c, parse limit markup = .ok c) ↔
      ∃ p, split markup = .ok p ∧ (p.count : Int) ≤ limit ∧
        ∀ chunk ∈ p.chunks, ∃ l, link markup chunk = .ok l := by
  simp only [parse_ok_iff_chunks]
  constructor
  · rintro ⟨c, p, hsplit, hcount, hmap, -⟩
    exact ⟨p, hsplit, hcount, forall_of_mapM_ok hmap⟩
  · rintro ⟨p, hsplit, hcount, hall⟩
    obtain ⟨links, hlinks⟩ := mapM_ok_of_forall hall
    -- one link per chunk: a first one, then one after each keyword
    have hlen : links.length = p.keywords.length + 1 := by
      rw [(mapM_ok hlinks).1]
      simp [Pieces.chunks, Pieces.keywords]
    obtain ⟨head, tail, rfl⟩ : ∃ head tail, links = head :: tail := by
      cases links with
      | nil => simp at hlen
      | cons head tail => exact ⟨head, tail, rfl⟩
    have htail : tail.length = p.keywords.length := by simpa using hlen
    refine ⟨⟨head, p.keywords.zip tail⟩, p, hsplit, hcount, ?_, ?_⟩
    · simpa [Chain.links, List.map_snd_zip (by omega : tail.length ≤ p.keywords.length)]
        using hlinks
    · simp [List.map_fst_zip (by omega : p.keywords.length ≤ tail.length)]

/-- The lenient parser splits the header, then reads each chunk, in source order.

The header splits exactly when its words can be split: there is one, no keyword begins or ends
them, and no two keywords stand side by side. The chunks are then the runs of words between the
keywords, each joined by single spaces, and the keywords between them are the split's, in order.
For every bound the header reads as a chain exactly when it splits into no more chunks than the
bound and every chunk reads as a link; the chain's links are then the chunks read in order, each
joined to the next by the keyword between their chunks. -/
theorem parse_splits_then_reads_chunks (markup : String) :
    ((∃ p, split markup = .ok p) ↔ Separable (words markup.toList)) ∧
    (∀ p, split markup = .ok p →
      p.chunks = ((words markup.toList).splitOnP isKeyword).map joinWords ∧
        p.keywords = (words markup.toList).filterMap keyword?) ∧
    (∀ limit : Int, (∃ c, parse limit markup = .ok c) ↔
      ∃ p, split markup = .ok p ∧ (p.count : Int) ≤ limit ∧
        ∀ chunk ∈ p.chunks, ∃ l, link markup chunk = .ok l) ∧
    ∀ (limit : Int) (c : Chain), parse limit markup = .ok c ↔
      ∃ p, split markup = .ok p ∧ (p.count : Int) ≤ limit ∧
        p.chunks.mapM (link markup) = .ok c.links ∧ c.rest.map Prod.fst = p.keywords :=
  ⟨split_ok_iff markup, fun p hp => ((split_eq_ok_iff markup p).1 hp).2,
    fun limit => parse_ok_iff_chunks_read limit markup,
    fun limit c => parse_ok_iff_chunks limit markup c⟩

end Lenient

end Branching
