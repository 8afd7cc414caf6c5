import Branching.Proofs.TemplateGrammar
import Branching.Proofs.BranchSelection

/-!
# Blank conditionals print nothing

A node is blank when it can print nothing but white space: text of white space only, or a
conditional all of whose bodies hold blank nodes. When a conditional is closed and it is blank,
the white-space text of its bodies is dropped, so that a construct made of logic alone prints
nothing at all; a conditional that is not blank is closed as it was read.

Here that is followed through a whole template. Every conditional of the tree was closed from the
bodies the reader gave it (`Template.Body`). Once closed and blank, its bodies hold no text, and
each node left in them is a conditional that was closed blank before it. Such a node is
`Node.Mute`: it has nothing but conditionals at any depth, and rendering it gives the empty text
or the error of a guard, never text and never the error of an output.

## Main statements

- `Conditional.close_ok_cases`: closing keeps whether a conditional is blank, and its bodies as
  they were unless it is blank, when their white-space text goes.
- `Template.Body.mute`: every blank conditional of a tree the grammar derives is mute.
- `Node.Mute.render`: a mute node renders nothing or raises the error of a guard inside it.
- `Template.blank_conditionals_print_nothing`: every blank conditional of a template that reads
  holds no white-space text and prints nothing; a conditional that is not blank keeps its bodies.
-/

namespace Branching

/-- `c` stands in the body `ns`: at its top level, or inside a branch of a conditional there. -/
inductive Node.Holds (c : Conditional Node) : List Node → Prop
  | head {ns : List Node} : Holds c (.conditional c :: ns)
  | tail {n : Node} {ns : List Node} : Holds c ns → Holds c (n :: ns)
  | inside {c' : Conditional Node} {ns : List Node} {a : Option Chain × List Node} :
      a ∈ c'.arms → Holds c a.2 → Holds c (.conditional c' :: ns)

/-- A node that prints nothing at any depth: a conditional whose bodies hold only such nodes. -/
inductive Node.Mute : Node → Prop
  | conditional {c : Conditional Node} :
      (∀ a ∈ c.arms, ∀ n ∈ a.2, Mute n) → Mute (.conditional c)

namespace Node.Holds

variable {c : Conditional Node}

theorem not_nil : ¬ Holds c [] := nofun

theorem of_mem {n : Node} {ns : List Node} (hn : n ∈ ns) (h : Holds c [n]) : Holds c ns := by
  induction ns with
  | nil => cases hn
  | cons m ns ih =>
    rcases List.mem_cons.1 hn with rfl | hn
    · cases h with
      | head => exact .head
      | tail h => exact absurd h not_nil
      | inside ha h => exact .inside ha h
    · exact .tail (ih hn)

/-- What stands in a body stands in every body that holds its nodes. -/
theorem mono {ns ns' : List Node} (hsub : ∀ n ∈ ns, n ∈ ns') (h : Holds c ns) : Holds c ns' := by
  induction h with
  | head => exact of_mem (hsub _ List.mem_cons_self) .head
  | tail _ ih => exact ih fun n hn => hsub n (List.mem_cons_of_mem _ hn)
  | inside ha h => exact of_mem (hsub _ List.mem_cons_self) (.inside ha h)

end Node.Holds

/-! ### Blank bodies and their white-space text -/

theorem Node.allBlank_iff (ns : List Node) : Node.allBlank ns = true ↔ ∀ n ∈ ns, n.blank = true := by
  induction ns with
  | nil => simp [Node.allBlank]
  | cons n ns ih => simp [Node.allBlank, ih]

theorem Node.armsBlank_iff (alternatives : List (Chain × List Node)) :
    Node.armsBlank alternatives = true ↔ ∀ p ∈ alternatives, ∀ n ∈ p.2, n.blank = true := by
  induction alternatives with
  | nil => simp [Node.armsBlank]
  | cons p alternatives ih =>
    obtain ⟨g, body⟩ := p
    simp [Node.armsBlank, ih, Node.allBlank_iff]

/-- A conditional is blank when every node of every branch is. -/
theorem Conditional.blank_iff (c : Conditional Node) :
    c.blank = true ↔ ∀ a ∈ c.arms, ∀ n ∈ a.2, n.blank = true := by
  obtain ⟨g, body, alternatives, otherwise, closed⟩ := c
  simp only [Conditional.blank, Node.blank, Bool.and_eq_true, Node.allBlank_iff,
    Node.armsBlank_iff, arms, List.cons_append, List.forall_mem_cons, List.forall_mem_append,
    List.forall_mem_map, and_assoc]
  cases otherwise <;> simp [Node.elseBlank, Node.allBlank_iff]

/-- Dropping white-space text keeps every other node. -/
theorem Node.mem_dropBlankText {n : Node} {ns : List Node} :
    n ∈ Node.dropBlankText ns ↔ n ∈ ns ∧ ∀ s, n = .text s → Text.isAllSpace s.toList = false := by
  unfold dropBlankText
  rw [List.mem_filter]
  cases n <;> simp

namespace Conditional

/-- Closing keeps whether a conditional is blank. A conditional that is not blank keeps its
branches as they were; a blank one keeps its guards and loses the white-space text of its
bodies. -/
theorem close_ok_cases {c₀ c : Conditional Node} (h : c₀.close = .ok c) :
    c.blank = c₀.blank ∧ (c₀.blank = false → c.arms = c₀.arms) ∧
      (c₀.blank = true → c.arms = c₀.arms.map fun a => (a.1, Node.dropBlankText a.2)) := by
  obtain ⟨g, body, alternatives, otherwise, closed⟩ := c₀
  unfold close at h
  split at h
  · cases h
  split at h
  · rename_i hblank
    simp only [Except.ok.injEq] at h
    have harms : c.arms = (arms ⟨g, body, alternatives, otherwise, closed⟩).map
        fun a => (a.1, Node.dropBlankText a.2) := by
      rw [← h]
      cases otherwise <;> simp [arms, Function.comp_def]
    refine ⟨?_, fun h => absurd hblank (by simp [h]), fun _ => harms⟩
    -- dropping white-space text leaves only blank nodes
    rw [hblank, blank_iff, harms]
    intro a ha n hn
    obtain ⟨a₀, ha₀, rfl⟩ := List.mem_map.1 ha
    exact (blank_iff _).1 hblank a₀ ha₀ n (Node.mem_dropBlankText.1 hn).1
  · rename_i hblank
    cases h
    exact ⟨rfl, fun _ => rfl, fun h => absurd h hblank⟩

/-- Each branch of a closed conditional holds only nodes of the branch it was closed from. -/
theorem arms_of_close {c₀ c : Conditional Node} (h : c₀.close = .ok c) :
    ∀ a ∈ c.arms, ∃ a₀ ∈ c₀.arms, ∀ n ∈ a.2, n ∈ a₀.2 := by
  obtain ⟨-, hkeep, hdrop⟩ := close_ok_cases h
  intro a ha
  cases hb₀ : c₀.blank with
  | false => exact ⟨a, hkeep hb₀ ▸ ha, fun n hn => hn⟩
  | true =>
    rw [hdrop hb₀] at ha
    obtain ⟨a₀, ha₀, rfl⟩ := List.mem_map.1 ha
    exact ⟨a₀, ha₀, fun n hn => (Node.mem_dropBlankText.1 hn).1⟩

/-- A conditional closed blank is mute when the blank conditionals in the bodies it was closed
from are: its white-space text is gone, and every other blank node is a conditional. -/
theorem mute_of_close {c₀ c : Conditional Node} (h : c₀.close = .ok c) (hblank : c.blank = true)
    (hin : ∀ a ∈ c₀.arms, ∀ c', Node.conditional c' ∈ a.2 → c'.blank = true →
      (Node.conditional c').Mute) :
    (Node.conditional c).Mute := by
  obtain ⟨hb, -, hdrop⟩ := close_ok_cases h
  have hb₀ : c₀.blank = true := hb ▸ hblank
  refine .conditional fun a ha n hn => ?_
  rw [hdrop hb₀] at ha
  obtain ⟨a₀, ha₀, rfl⟩ := List.mem_map.1 ha
  obtain ⟨hn₀, hkept⟩ := Node.mem_dropBlankText.1 hn
  have hnb : n.blank = true := (blank_iff c₀).1 hb₀ a₀ ha₀ n hn₀
  cases n with
  | text s =>
    -- blank text is white space, which was dropped
    simp [Node.blank, hkept s rfl] at hnb
  | output o => simp [Node.blank] at hnb
  | conditional c' => exact hin a₀ ha₀ c' hn₀ hnb

theorem mem_arms_mk {g : Chain} {body : List Node} {alternatives : List (Chain × List Node)}
    {otherwise : Option (List Node)} {closed : Bool} {a : Option Chain × List Node}
    (ha : a ∈ (Conditional.mk g body alternatives otherwise closed).arms) :
    a.2 = body ∨ a.2 ∈ alternatives.map Prod.snd ++ otherwise.toList := by
  simp only [arms, List.cons_append, List.mem_cons, List.mem_append, List.mem_map] at ha
  rcases ha with rfl | ⟨p, hp, rfl⟩ | ha
  · exact .inl rfl
  · exact .inr (List.mem_append_left _ (List.mem_map_of_mem hp))
  · cases otherwise with
    | none => cases ha
    | some b =>
      simp only [Option.map_some, Option.toList_some, List.mem_singleton] at ha
      subst ha
      exact .inr (by simp)

end Conditional

/-! ### What a mute node renders -/

namespace Node

open Conditional

variable {ctx : Context}

/-- A body whose nodes each render nothing or raise an error of some kind renders nothing or
raises the first such error. -/
theorem renderAll_quiet {P : Error → Prop} {ns : List Node}
    (h : ∀ n ∈ ns, n.render ctx = .ok "" ∨ ∃ e, n.render ctx = .error e ∧ P e) :
    renderAll ctx ns = .ok "" ∨ ∃ e, renderAll ctx ns = .error e ∧ P e := by
  induction ns with
  | nil => exact .inl rfl
  | cons n ns ih =>
    simp only [renderAll]
    rcases h n List.mem_cons_self with hn | ⟨e, hn, he⟩
    · rw [hn]
      rcases ih fun m hm => h m (List.mem_cons_of_mem _ hm) with hr | ⟨e, hr, he⟩
      · rw [hr]
        exact .inl rfl
      · rw [hr]
        exact .inr ⟨e, rfl, he⟩
    · rw [hn]
      exact .inr ⟨e, rfl, he⟩

/-- A mute node renders nothing, or raises the error of a guard of a conditional standing in it.
The induction is on muteness: the body a mute conditional takes holds mute nodes only. -/
theorem Mute.render (ctx : Context) {n : Node} (h : n.Mute) :
    n.render ctx = .ok "" ∨ ∃ e, n.render ctx = .error e ∧
      ∃ c', Holds c' [n] ∧ ∃ a ∈ c'.arms, Raises ctx a e := by
  induction h with
  | @conditional c _ ih =>
    rw [render_conditional]
    rcases (renderFirst_eq_iff c.arms (renderFirst ctx c.arms)).1 rfl with
      ⟨a, hr, ⟨-, hv⟩ | ⟨e, he, hv⟩⟩ | ⟨-, hv⟩
    · -- the body taken holds only mute nodes, each printing nothing
      rw [← hv]
      refine renderAll_quiet fun n hn => ?_
      rcases ih a hr.mem n hn with hn' | ⟨e, hn', c', hc', he⟩
      · exact .inl hn'
      · exact .inr ⟨e, hn', c', .inside hr.mem (Holds.of_mem hn hc'), he⟩
    · -- a guard of the conditional itself raised
      exact .inr ⟨e, hv, c, .head, a, hr.mem, he⟩
    · exact .inl hv

end Node

/-! ### Through a whole template -/

namespace Template

variable {cfg : Config}

mutual

/-- Every blank conditional standing in the nodes of a body derivation is mute. By induction on
the derivation: a conditional is closed from bodies whose blank conditionals are mute. -/
theorem Body.mute : ∀ {d : Nat} {toks : List Piece} {ns : List Node}, Body cfg d toks ns →
    ∀ c, Node.Holds c ns → c.blank = true → (Node.conditional c).Mute
  | _, _, _, .nil, _, h, _ => absurd h Node.Holds.not_nil
  | _, _, _, .text _ hb, c, h, hc => by
    have ih := Body.mute hb
    cases h with
    | tail h => exact ih c h hc
  | _, _, _, .output _ _ hb, c, h, hc => by
    have ih := Body.mute hb
    cases h with
    | tail h => exact ih c h hc
  | _, _, _, @Body.cond _ _ _ _ g _ _ _ ns _ alts els _ _ _ _ hbody hbr hclose hrest, c, h, hc => by
    have ihbody := Body.mute hbody
    have ihbr := Branches.mute hbr
    have ihrest := Body.mute hrest
    -- what stands in the bodies the conditional was closed from
    have hin : ∀ a ∈ (Conditional.mk g ns alts els false).arms, ∀ c', Node.Holds c' a.2 →
        c'.blank = true → (Node.conditional c').Mute := by
      intro a ha c' h' hc'
      rcases Conditional.mem_arms_mk ha with hns | hmem
      · exact ihbody c' (hns ▸ h') hc'
      · exact ihbr a.2 hmem c' h' hc'
    cases h with
    | head =>
      exact Conditional.mute_of_close hclose hc fun a ha c' hmem hc' =>
        hin a ha c' (Node.Holds.of_mem hmem .head) hc'
    | tail h => exact ihrest c h hc
    | inside ha h =>
      obtain ⟨a₀, ha₀, hsub⟩ := Conditional.arms_of_close hclose _ ha
      exact hin a₀ ha₀ c (h.mono hsub) hc

theorem Branches.mute : ∀ {d : Nat} {qs : List Piece} {alts : List (Chain × List Node)}
    {els : Option (List Node)}, Branches cfg d qs alts els →
    ∀ body ∈ alts.map Prod.snd ++ els.toList, ∀ c, Node.Holds c body → c.blank = true →
      (Node.conditional c).Mute
  | _, _, _, _, .endif _, _, hmem, _, _, _ => by simp at hmem
  | _, _, _, _, .elsif _ _ hb hbr, body, hmem, c, h, hc => by
    have ihb := Body.mute hb
    have ihbr := Branches.mute hbr
    simp only [List.map_cons, List.cons_append, List.mem_cons] at hmem
    rcases hmem with rfl | hmem
    · exact ihb c h hc
    · exact ihbr body hmem c h hc
  | _, _, _, _, .otherwise _ _ hb _, body, hmem, c, h, hc => by
    have ihb := Body.mute hb
    simp only [List.map_nil, Option.toList_some, List.nil_append, List.mem_singleton] at hmem
    subst hmem
    exact ihb c h hc

end

/-- The nodes of a template that reads are derived by the grammar. -/
theorem body_of_parse {source : String} {t : Template} (h : (Template.parse source cfg).2 = .ok t) :
    ∃ toks, Body cfg 0 toks t.body := by
  obtain ⟨pieces, -, hb⟩ := parse_body_iff.1 ⟨t, h, rfl⟩
  obtain ⟨toks, -, -, hbody, -⟩ := body_sound hb
  exact ⟨toks, hbody⟩

/-- White-space control at the close of a conditional is sound. Every conditional standing
anywhere in a template that reads and that is blank holds no white-space text at the top of its
bodies, and prints nothing: rendering it gives the empty text, or raises the error of a guard of
it or of a conditional inside it. A conditional that is not blank is closed with its branches as
they were, every text node in place and in order. -/
theorem blank_conditionals_print_nothing :
    (∀ (source : String) (cfg : Config) (t : Template), (Template.parse source cfg).2 = .ok t →
      ∀ c, Node.Holds c t.body → c.blank = true →
        (∀ a ∈ c.arms, ∀ s, Node.text s ∈ a.2 → Text.isAllSpace s.toList = false) ∧
        ∀ ctx, (Node.conditional c).render ctx = .ok "" ∨
          ∃ e, (Node.conditional c).render ctx = .error e ∧
            ∃ c', Node.Holds c' [.conditional c] ∧ ∃ a ∈ c'.arms, Conditional.Raises ctx a e) ∧
    ∀ c₀ c : Conditional Node, c₀.close = .ok c → c.blank = false → c.arms = c₀.arms := by
  refine ⟨fun source cfg t ht c hc hblank => ?_, fun c₀ c h hb => ?_⟩
  · obtain ⟨toks, hbody⟩ := body_of_parse ht
    have hmute := Body.mute hbody c hc hblank
    refine ⟨fun a ha s hs => ?_, fun ctx => hmute.render ctx⟩
    -- a mute body holds no text at all
    cases hmute with
    | conditional hall => cases hall a ha _ hs
  · obtain ⟨hsame, hkeep, -⟩ := Conditional.close_ok_cases h
    exact hkeep (hsame ▸ hb)

end Template

end Branching
