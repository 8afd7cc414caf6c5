import Branching.Proofs.Lexing

/-!
# The header lexer tiles the header

`Token.scan` reads a header from left to right, passing white space and taking at each other
position the token `tokenAt` finds there. It either stops at a character where no token starts,
or returns tokens that tile the header. Two relations say so, free of the scanner's accumulator:

* `Token.Stuck p cs q c`: the scan of `cs`, the header from position `p` on, passes white space
  and tokens and reaches position `q`, where the character `c` starts no token.
* `Token.Tiles p cs ts`: `cs` is white space, the text of the first token of `ts` at its position,
  white space, and so on; no token is empty, and the last token is the end token at the end of
  `cs`.

The scan terminates by construction (each step reads at least one character), so the two cases
cover every header.

## Main statements

- `Token.scanFrom_eq_error_iff`: the scan fails exactly where it gets stuck, naming the character
  and its position.
- `Token.Lexed.tiles`: what the scan reads tiles the header.
- `Token.scan_tiles_header`: both, for whole headers, with the positions increasing and each
  token's text the piece of the header at its position.
-/

namespace Branching

namespace Token

open Text

/-- The scan of `cs`, the header from position `p` on, passes white space and tokens and reaches
position `q`, where the character `c` starts no token. -/
inductive Stuck : Nat → List Char → Nat → Char → Prop
  | here {p : Nat} {c : Char} {rest : List Char} :
      tokenAt (c :: rest) = none → Stuck p (c :: rest) p c
  | past {p n q : Nat} {k : Option TokenKind} {c d : Char} {rest : List Char} :
      tokenAt (c :: rest) = some (k, n) → Stuck (p + n) ((c :: rest).drop n) q d →
      Stuck p (c :: rest) q d

/-- The scan from a position fails exactly when it gets stuck, with the character it is stuck at
and the position of that character. -/
theorem scanFrom_eq_error_iff {markup : String} {p : Nat} {cs : List Char} {done : List Token}
    {e : SyntaxError} :
    scanFrom markup p cs done = .error e ↔
      ∃ q c, Stuck p cs q c ∧ e = { fault := .unexpectedCharacter c q, markup := some markup } := by
  fun_induction scanFrom markup p cs done with
  | case1 p done =>
    -- nothing is left: the scan succeeds, and no character is there to be stuck at
    simp only [reduceCtorEq, false_iff, not_exists, not_and]
    intro q c hstuck
    cases hstuck
  | case2 p done c rest hnone =>
    constructor
    · rintro ⟨⟩
      exact ⟨p, c, .here hnone, rfl⟩
    · rintro ⟨q, d, hstuck, rfl⟩
      cases hstuck with
      | here => rfl
      | past htok => rw [hnone] at htok; cases htok
  | case3 p done c rest kind n htok hpos done' ih =>
    rw [ih]
    constructor
    · rintro ⟨q, d, hstuck, rfl⟩
      exact ⟨q, d, .past htok hstuck, rfl⟩
    · rintro ⟨q, d, hstuck, rfl⟩
      cases hstuck with
      | here hnone => rw [hnone] at htok; cases htok
      | past htok' hstuck =>
        -- `tokenAt` reads one piece there, so the stuck scan went on from where this one does
        rw [htok] at htok'
        cases htok'
        exact ⟨q, d, hstuck, rfl⟩

/-- `cs`, the header from position `p` on, is white space, the text of the first token of `ts` at
its position, white space, and so on; no token is empty, and the last one is the end token at the
end of `cs`. -/
inductive Tiles : Nat → List Char → List Token → Prop
  | last {p : Nat} {g : List Char} :
      (∀ c ∈ g, isSpace c = true) → Tiles p g [⟨.eof, "", p + g.length⟩]
  | token {p : Nat} {g v cs : List Char} {k : TokenKind} {ts : List Token} :
      (∀ c ∈ g, isSpace c = true) → v ≠ [] → Tiles (p + g.length + v.length) cs ts →
      Tiles p (g ++ v ++ cs) (⟨k, String.ofList v, p + g.length⟩ :: ts)

namespace Tiles

variable {p : Nat} {cs : List Char} {ts : List Token}

/-- White space in front of a tiled text joins the first gap. -/
theorem space {w : List Char} (hw : ∀ c ∈ w, isSpace c = true) (h : Tiles (p + w.length) cs ts) :
    Tiles p (w ++ cs) ts := by
  have hgap {g : List Char} (hg : ∀ c ∈ g, isSpace c = true) : ∀ c ∈ w ++ g, isSpace c = true := by
    exact fun c hc => (List.mem_append.1 hc).elim (hw c) (hg c)
  cases h with
  | last hg =>
    simpa [Nat.add_assoc] using Tiles.last (p := p) (hgap hg)
  | @token _ g v rest k ts hg hv htail =>
    have htail' : Tiles (p + (w ++ g).length + v.length) rest ts := by
      simpa [Nat.add_assoc] using htail
    simpa [Nat.add_assoc] using Tiles.token (k := k) (hgap hg) hv htail'

/-- The tiles end with the end token at the end of the text; every token before it has text. -/
theorem eq_append_last (h : Tiles p cs ts) :
    ∃ body, ts = body ++ [⟨.eof, "", p + cs.length⟩] ∧ ∀ t ∈ body, t.value ≠ "" := by
  induction h with
  | last _ => exact ⟨[], rfl, by simp⟩
  | @token p g v rest k ts _ hv _ ih =>
    obtain ⟨body, rfl, hbody⟩ := ih
    refine ⟨⟨k, String.ofList v, p + g.length⟩ :: body, ?_, ?_⟩
    · simp [Nat.add_assoc]
    · intro t ht
      rcases List.mem_cons.1 ht with rfl | ht
      · simpa [← String.toList_inj] using hv
      · exact hbody t ht

/-- Every token stands in the tiled text at its position, as the piece of its length there. -/
theorem slice (h : Tiles p cs ts) :
    ∀ t ∈ ts, p ≤ t.position ∧ t.value.toList = (cs.drop (t.position - p)).take t.value.length := by
  induction h with
  | @last p g _ => simp
  | @token p g v rest k ts _ _ _ ih =>
    intro t ht
    rcases List.mem_cons.1 ht with rfl | ht
    · -- the first token stands after the gap
      simp [List.take_left']
    · obtain ⟨hle, hval⟩ := ih t ht
      refine ⟨by omega, ?_⟩
      have hdrop : (g ++ v ++ rest).drop (t.position - p) =
          rest.drop (t.position - (p + g.length + v.length)) := by
        have : t.position - p = (g ++ v).length + (t.position - (p + g.length + v.length)) := by
          simp only [List.length_append]
          omega
        rw [this, ← List.drop_drop, List.drop_left' rfl]
      rw [hdrop]
      exact hval

/-- The positions of the tokens increase strictly. -/
theorem positions_increase (h : Tiles p cs ts) : (ts.map Token.position).Pairwise (· < ·) := by
  induction h with
  | last _ => simp
  | @token p g v rest k ts _ hv htail ih =>
    refine List.pairwise_cons.2 ⟨?_, ih⟩
    intro q hq
    obtain ⟨t, ht, rfl⟩ := List.mem_map.1 hq
    have hle := (htail.slice t ht).1
    have hv' : 0 < v.length := List.length_pos_iff.2 hv
    simp only
    omega

end Tiles

/-- A run of white space that `tokenAt` passes over is the white space at the start. -/
theorem take_of_tokenAt_space {cs : List Char} {n : Nat} (h : tokenAt cs = some (none, n)) :
    cs.take n = cs.takeWhile isSpace :=
  calc cs.take n = (cs.takeWhile isSpace ++ cs.dropWhile isSpace).take n := by
        rw [List.takeWhile_append_dropWhile]
    _ = cs.takeWhile isSpace := List.take_left' (tokenAt_space h).symm

/-- What the scan reads tiles the text it reads: a run of white space joins the gap before the
next token, and each token is read where it stands. -/
theorem Lexed.tiles {p : Nat} {cs : List Char} {ts : List Token} (h : Lexed p cs ts) :
    Tiles p cs ts := by
  induction h with
  | done p => simpa using Tiles.last (p := p) (g := []) (by simp)
  | @space p n cs ts htok _ ih =>
    have hspace : ∀ c ∈ cs.take n, isSpace c = true := by
      rw [take_of_tokenAt_space htok]
      exact fun c hc => Text.isSpace_of_mem_takeWhile hc
    have h' := Tiles.space hspace (by rw [length_take_of_tokenAt htok]; exact ih)
    rwa [List.take_append_drop] at h'
  | @token p n k cs ts htok _ ih =>
    have hlen := length_take_of_tokenAt htok
    have hne : cs.take n ≠ [] := by
      rw [← List.length_pos_iff, hlen]
      exact tokenAt_pos htok
    have h' := Tiles.token (p := p) (g := []) (k := k) (by simp) hne (by simpa [hlen] using ih)
    simpa only [List.nil_append, List.length_nil, Nat.add_zero, List.take_append_drop] using h'

/-- The header lexer terminates and tiles its input: it fails exactly at the position where the
scan reaches a character no token starts with, naming that character and position; otherwise its
tokens, at strictly increasing positions, are pieces of the header with only white space before,
between and after them, none is empty, and the end token closes the list at the header's
length. -/
theorem scan_tiles_header (t : String) :
    (∀ e, scan t = .error e ↔
      ∃ q c, Stuck 0 t.toList q c ∧ e = { fault := .unexpectedCharacter c q, markup := some t }) ∧
    (∀ ts, scan t = .ok ts →
      Tiles 0 t.toList ts ∧ (ts.map Token.position).Pairwise (· < ·) ∧
      (∃ body, ts = body ++ [⟨.eof, "", t.length⟩] ∧ ∀ tok ∈ body, tok.value ≠ "") ∧
      ∀ tok ∈ ts, tok.value.toList = (t.toList.drop tok.position).take tok.value.length) := by
  refine ⟨fun e => scanFrom_eq_error_iff, fun ts h => ?_⟩
  have htiles := (lexed_of_scan h).tiles
  obtain ⟨body, hts, hbody⟩ := htiles.eq_append_last
  refine ⟨htiles, htiles.positions_increase, ⟨body, ?_, hbody⟩, fun tok htok => ?_⟩
  · simpa [String.length_toList] using hts
  · simpa using (htiles.slice tok htok).2

end Token

end Branching
