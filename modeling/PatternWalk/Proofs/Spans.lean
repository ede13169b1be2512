import PatternWalk.Proofs.Canonical
import PatternWalk.Proofs.Nesting
/-!
# Spans — where the terms of a pattern stand in its text

The terms of each level fill a stretch of the pattern text, one span behind the other: the whole text on the outermost
level, and the text between its parentheses inside a group.  What a span covers is a pattern text of its own, and read
alone it gives the term back, moved to the front (`spans_of_read`).

A term stands for a run of phrases of the derivation, and the text of the run is what its span covers.
-/
namespace PatternWalk

/-- **The span of a term covers the term**: its ends are boundaries of the text, what stands between them is read as
this one term, moved to the front, and if the term is a group, its body fills the text from behind the parenthesis it
begins with up to the matching one. -/
structure Term.SpannedIn (text : Text) (limits : Limits) (t : Term) : Prop where
  start : text.IsBoundary t.span.start
  stop : text.IsBoundary t.span.stop
  body : ∀ body, t.node = .group body →
    ∃ closed, text.Encloses t.span.start closed ∧ Span.Tile (body.map (·.span)) (t.span.start + 1) closed
  alone : ∃ s u, t.span.textIn? text = some s ∧ Pattern.read s limits = .ok [u] ∧ u.shift t.span.start = t

namespace Pattern

theorem tile_prepend {t : Term} {p : Pattern} {start stop : Nat} (h : Span.Tile ((t :: p).map (·.span)) start stop) :
    Span.Tile ((prepend t p).map (·.span)) start stop := by
  cases p with
  | nil => exact h
  | cons u p =>
    rw [Pattern.prepend]
    split
    · rename_i v hv
      obtain ⟨s, s', a, b, rfl, rfl, rfl⟩ := exists_of_join? hv
      obtain ⟨ha, hlt, hb, hlt', hp⟩ := h
      dsimp only at ha hlt hb hlt' hp
      have hcover : a.cover b = ⟨start, b.stop⟩ := by
        rw [Span.cover, ha, hb, Nat.min_eq_left (by omega), Nat.max_eq_right (by omega)]
      rw [hcover]
      exact ⟨rfl, by dsimp only; omega, hp⟩
    · exact h

theorem tile_coalesce : ∀ {p : Pattern} {start stop : Nat}, Span.Tile (p.map (·.span)) start stop →
    Span.Tile ((coalesce p).map (·.span)) start stop
  | [], _, _, h => h
  | _ :: _, _, _, ⟨hstart, hlt, hp⟩ => tile_prepend ⟨hstart, hlt, tile_coalesce hp⟩

theorem every_iff {P : Term → Prop} : ∀ {p : Pattern}, p.Every P ↔ ∀ t ∈ p, P t ∧ t.node.Every P
  | [] => by simp [Every]
  | ⟨node, q, span⟩ :: p => by simp [Every, Term.Every, every_iff (p := p)]

theorem every_joinRuns {P : Term → Prop} {p : Pattern} (hrun : ∀ run ∈ p.splitBy Term.adjoins, P (Term.ofRun run))
    (hnode : ∀ t ∈ p, t.node.Every P) : (joinRuns p).Every P := by
  rw [every_iff]
  intro t ht
  obtain ⟨run, hmem, rfl⟩ := List.mem_map.1 ht
  refine ⟨hrun run hmem, ?_⟩
  have hsub : ∀ t ∈ run, t ∈ p := fun t ht => by
    rw [← List.flatten_splitBy Term.adjoins p]
    exact List.mem_flatten_of_mem hmem ht
  unfold Term.ofRun
  split
  · rename_i t
    exact hnode t (hsub t List.mem_cons_self)
  · trivial

end Pattern

namespace Grammar

/-! ## Terms further on in a text -/

mutual
theorem Atom.node_add : ∀ (a : Atom) (start n : Nat), a.node (start + n) = (a.node start).shift n
  | .letter _, _, _ | .set _ _, _, _ => rfl
  | .group first body, start, n => by
    rw [Atom.node, Atom.node, ← Pattern.coalesce_eq_joinRuns, ← Pattern.coalesce_eq_joinRuns, Node.shift,
      ← Pattern.coalesce_shift, Pattern.shift, ← first.term_add, ← Derivation.terms_add body]
    simp only [Nat.add_right_comm]
theorem Phrase.term_add : ∀ (p : Phrase) (start n : Nat), p.term (start + n) = (p.term start).shift n
  | ⟨a, q⟩, start, n => by
    rw [Phrase.term, Phrase.term, Term.shift, a.node_add, Span.shift, Nat.add_right_comm]
theorem Derivation.terms_add : ∀ (d : Derivation) (start n : Nat),
    Derivation.terms d (start + n) = Pattern.shift n (Derivation.terms d start)
  | [], _, _ => rfl
  | p :: d, start, n => by
    rw [Derivation.terms, Derivation.terms, Pattern.shift, p.term_add, Nat.add_right_comm, Derivation.terms_add d]
end

theorem Phrase.text_ne_nil : ∀ p : Phrase, p.text ≠ []
  | ⟨a, q⟩ => by
    rw [Phrase.text]
    exact (a.text_append_ne _ []).1

theorem Derivation.tile_terms : ∀ (d : Derivation) (start : Nat),
    Span.Tile ((Derivation.terms d start).map (·.span)) start (start + (Derivation.text d).size)
  | [], _ => rfl
  | ⟨a, q⟩ :: d, start => by
    have hpos := Text.size_pos (Phrase.text_ne_nil ⟨a, q⟩)
    have hrest := Derivation.tile_terms d (start + (Phrase.text ⟨a, q⟩).size)
    rw [Nat.add_assoc, ← Text.size_append] at hrest
    exact ⟨rfl, Nat.lt_add_of_pos_right hpos, hrest⟩

theorem Derivation.tile_pattern (d : Derivation) (start : Nat) :
    Span.Tile ((Pattern.joinRuns (Derivation.terms d start)).map (·.span)) start
      (start + (Derivation.text d).size) := by
  rw [← Pattern.coalesce_eq_joinRuns]
  exact Pattern.tile_coalesce (d.tile_terms start)

/-! ## Runs of phrases -/

theorem Derivation.exists_of_terms_eq_append : ∀ {d : Derivation} {start : Nat} {p q : Pattern},
    Derivation.terms d start = p ++ q → ∃ d₁ d₂, d = d₁ ++ d₂ ∧ Derivation.terms d₁ start = p ∧
      Derivation.terms d₂ (start + (Derivation.text d₁).size) = q
  | d, start, [], q, h => ⟨[], d, rfl, rfl, by simpa [text] using h⟩
  | [], _, _ :: _, _, h => by cases h
  | phrase :: d, start, t :: p, q, h => by
    obtain ⟨ht, hrest⟩ := List.cons.inj h
    obtain ⟨d₁, d₂, rfl, hp, hq⟩ := Derivation.exists_of_terms_eq_append hrest
    refine ⟨phrase :: d₁, d₂, rfl, ?_, ?_⟩
    · rw [terms, ht, hp]
    · rw [text, Text.size_append, ← Nat.add_assoc, hq]

theorem Derivation.exists_of_mem_splitBy {d : Derivation} {start : Nat} {run : List Term}
    (h : run ∈ (Derivation.terms d start).splitBy Term.adjoins) : ∃ d₁ e d₂, d = d₁ ++ e ++ d₂ ∧
      run = Derivation.terms e (start + (Derivation.text d₁).size) := by
  obtain ⟨before, after, hcut⟩ := List.append_of_mem h
  have hflat := List.flatten_splitBy Term.adjoins (Derivation.terms d start)
  rw [hcut, List.flatten_append, List.flatten_cons, ← List.append_assoc] at hflat
  obtain ⟨x, d₂, rfl, hx, -⟩ := exists_of_terms_eq_append hflat.symm
  obtain ⟨d₁, e, rfl, -, he⟩ := exists_of_terms_eq_append hx
  exact ⟨d₁, e, d₂, rfl, he.symm⟩

/-- **A run of phrases is read alone** as the term in its place. -/
theorem Derivation.exists_pattern_eq {e : Derivation} {start : Nat} (hne : e ≠ [])
    (hrun : (Derivation.terms e start).IsChain (Term.adjoins · ·)) :
    ∃ u, e.pattern = [u] ∧ u.shift start = Term.ofRun (Derivation.terms e start) := by
  have hterms : Derivation.terms e start ≠ [] := by
    cases e with
    | nil => exact absurd rfl hne
    | cons phrase e => simp [terms]
  have hjoined : Pattern.shift start e.pattern = [Term.ofRun (Derivation.terms e start)] := by
    have hterms_zero : Derivation.terms e start = Pattern.shift start (Derivation.terms e 0) := by
      rw [← terms_add, Nat.zero_add]
    rw [pattern, ← Pattern.coalesce_eq_joinRuns, ← Pattern.coalesce_shift, ← hterms_zero,
      Pattern.coalesce_eq_joinRuns, Pattern.joinRuns, List.splitBy_of_isChain hterms hrun]
    rfl
  cases hp : e.pattern with
  | nil => rw [hp] at hjoined; cases hjoined
  | cons u p =>
    rw [hp, Pattern.shift] at hjoined
    obtain ⟨hu, hp⟩ := List.cons.inj hjoined
    cases p with
    | nil => exact ⟨u, rfl, hu⟩
    | cons v p => cases hp

/-! ## The text of a run -/

/-- **A part of a pattern text behind `front`**, where no set and no escape is open. -/
structure StandsIn (text front s : Text) : Prop where
  text_eq : ∃ rest, text = front ++ s ++ rest
  nesting_eq : ∃ groups, ({} : Nesting).past? front = some { groups := groups }

namespace StandsIn

variable {text front s t : Text}

theorem left (h : StandsIn text front (s ++ t)) : StandsIn text front s := by
  obtain ⟨⟨rest, rfl⟩, hnesting⟩ := h
  exact ⟨⟨t ++ rest, by simp only [List.append_assoc]⟩, hnesting⟩

theorem right {d : Derivation} (h : StandsIn text front (Derivation.text d ++ t)) :
    StandsIn text (front ++ Derivation.text d) t := by
  obtain ⟨⟨rest, rfl⟩, groups, hfront⟩ := h
  refine ⟨⟨rest, by simp only [List.append_assoc]⟩, groups, ?_⟩
  rw [Nesting.past?_append, hfront]
  exact d.past?_text groups

theorem inside {first : Phrase} {ps : List Phrase} (h : StandsIn text front (Atom.group first ps).text) :
    StandsIn text (front ++ ['(']) (Derivation.text (first :: ps)) := by
  obtain ⟨⟨rest, rfl⟩, groups, hfront⟩ := h
  refine ⟨⟨')' :: rest, ?_⟩, groups + 1, ?_⟩
  · rw [Atom.text, Derivation.text]
    simp only [List.append_assoc, List.cons_append, List.nil_append]
  · rw [Nesting.past?_append, hfront]
    rfl

end StandsIn

section
variable {text front : Text} {limits : Limits}

theorem encloses_group {first : Phrase} {ps : List Phrase} (h : StandsIn text front (Atom.group first ps).text) :
    ∃ closed, text.Encloses front.size closed ∧
      Span.Tile ((Pattern.joinRuns (Derivation.terms (first :: ps) (front.size + 1))).map (·.span)) (front.size + 1)
        closed := by
  obtain ⟨⟨rest, htext⟩, groups, hfront⟩ := h
  refine ⟨(front ++ '(' :: Derivation.text (first :: ps)).size, ?_, ?_⟩
  · refine ⟨front, Derivation.text (first :: ps), rest, groups, ?_, rfl, rfl, hfront, Derivation.past?_text _ 0⟩
    rw [htext, Atom.text, Derivation.text]
    simp only [List.append_assoc, List.cons_append, List.nil_append]
  · have hclosed : (front ++ '(' :: Derivation.text (first :: ps)).size =
        front.size + 1 + (Derivation.text (first :: ps)).size := by
      rw [Text.size_append, Text.size_cons, ← Nat.add_assoc]
      rfl
    rw [hclosed]
    exact Derivation.tile_pattern (first :: ps) (front.size + 1)

theorem exists_of_ofRun_group {e : Derivation} {start : Nat} {body : Pattern}
    (hbody : (Term.ofRun (Derivation.terms e start)).node = .group body) :
    ∃ first ps q, e = [⟨.group first ps, q⟩] ∧
      body = Pattern.joinRuns (Derivation.terms (first :: ps) (start + 1)) := by
  match e with
  | [] => cases hbody
  | [⟨.letter l, q⟩] => cases hbody
  | [⟨.set first items, q⟩] => cases hbody
  | [⟨.group first ps, q⟩] => exact ⟨first, ps, q, rfl, (Node.group.inj hbody).symm⟩
  | _ :: _ :: _ => cases hbody

/-- **The term in the place of a run** stands where the run does. -/
theorem spannedIn_ofRun {e : Derivation} (h : StandsIn text front (Derivation.text e))
    (hdepth : Derivation.depth e ≤ limits.nesting) (hne : e ≠ [])
    (hrun : (Derivation.terms e front.size).IsChain (Term.adjoins · ·)) :
    (Term.ofRun (Derivation.terms e front.size)).SpannedIn text limits := by
  obtain ⟨u, hu, hshift⟩ := Derivation.exists_pattern_eq hne hrun
  obtain ⟨rest, htext⟩ := h.text_eq
  have hspan : (Term.ofRun (Derivation.terms e front.size)).span = ⟨front.size, (front ++ Derivation.text e).size⟩ := by
    -- alone the term fills the text of the run, and here it stands behind the front
    obtain ⟨hstart, -, hstop⟩ : Span.Tile ([u].map (·.span)) 0 (0 + (Derivation.text e).size) := hu ▸ e.tile_pattern 0
    change u.span.stop = _ at hstop
    have hspan : (u.shift front.size).span = u.span.shift front.size := by cases u; rfl
    rw [← hshift, hspan, Span.shift, hstart, hstop, Nat.zero_add, Nat.zero_add, Text.size_append, Nat.add_comm]
  have hread : Pattern.read (Derivation.text e) limits = .ok [u] := read_eq_ok_iff.2 ⟨e, rfl, hdepth, hu⟩
  have hslice : text.slice? front.size (front ++ Derivation.text e).size = some (Derivation.text e) := by
    rw [htext]
    exact Text.slice?_append front (Derivation.text e) rest
  constructor
  case start => exact ⟨front, Derivation.text e ++ rest, by rw [htext, List.append_assoc], by rw [hspan]⟩
  case stop => exact ⟨front ++ Derivation.text e, rest, htext, by rw [hspan]⟩
  case body =>
    intro body hbody
    obtain ⟨first, ps, q, rfl, rfl⟩ := exists_of_ofRun_group hbody
    rw [Derivation.text, Derivation.text, Phrase.text, List.append_assoc] at h
    rw [hspan]
    exact encloses_group h.left
  case alone => exact ⟨Derivation.text e, u, by rw [hspan]; exact hslice, hread, by rw [hspan]; exact hshift⟩

theorem spannedIn_of_mem_splitBy {d : Derivation} (h : StandsIn text front (Derivation.text d))
    (hdepth : Derivation.depth d ≤ limits.nesting) :
    ∀ run ∈ (Derivation.terms d front.size).splitBy Term.adjoins, (Term.ofRun run).SpannedIn text limits := by
  intro run hrun
  have hchain := List.isChain_of_mem_splitBy hrun
  have hnil := List.ne_nil_of_mem_splitBy hrun
  -- the run is that of a part of the derivation, which stands behind another part
  obtain ⟨d₁, e, d₂, rfl, rfl⟩ := Derivation.exists_of_mem_splitBy hrun
  rw [Derivation.depth_append, Derivation.depth_append] at hdepth
  rw [Derivation.text_append, Derivation.text_append, List.append_assoc] at h
  rw [← Text.size_append] at hchain hnil ⊢
  exact spannedIn_ofRun h.right.left (by omega) (fun he => hnil (by rw [he]; rfl)) hchain

theorem every_node_cons {p : Phrase} {d : Derivation} (h : StandsIn text front (Derivation.text (p :: d)))
    (hp : StandsIn text front p.text → (p.term front.size).node.Every (Term.SpannedIn text limits))
    (hd : StandsIn text (front ++ p.text) (Derivation.text d) →
      ∀ t ∈ Derivation.terms d (front ++ p.text).size, t.node.Every (Term.SpannedIn text limits)) :
    ∀ t ∈ Derivation.terms (p :: d) front.size, t.node.Every (Term.SpannedIn text limits) := by
  have hone : Derivation.text [p] = p.text := by rw [Derivation.text, Derivation.text, List.append_nil]
  rw [Derivation.text] at h
  intro t ht
  rcases List.mem_cons.1 ht with rfl | ht
  · exact hp h.left
  · rw [← Text.size_append] at ht
    rw [← hone] at h hd ht
    exact hd h.right t ht

mutual
theorem Atom.every_node : ∀ (a : Atom) {front : Text}, StandsIn text front a.text → a.depth ≤ limits.nesting →
    (a.node front.size).Every (Term.SpannedIn text limits)
  | .letter _, _, _, _ | .set _ _, _, _, _ => trivial
  | .group first body, front, h, hdepth => by
    rw [Atom.depth] at hdepth
    have hfirst : first.depth ≤ limits.nesting := by omega
    have hbody : Derivation.depth body ≤ limits.nesting := by omega
    have hsize : front.size + 1 = (front ++ ['(']).size := (Text.size_append front ['(']).symm
    change Pattern.Every _ (Pattern.joinRuns (Derivation.terms (first :: body) (front.size + 1)))
    rw [hsize]
    apply Pattern.every_joinRuns
    · exact spannedIn_of_mem_splitBy h.inside (by rw [Derivation.depth]; omega)
    · exact every_node_cons h.inside (fun hp => first.every_node hp hfirst)
        fun hd => Derivation.every_node body hd hbody
theorem Phrase.every_node : ∀ (p : Phrase) {front : Text}, StandsIn text front p.text → p.depth ≤ limits.nesting →
    (p.term front.size).node.Every (Term.SpannedIn text limits)
  | ⟨a, q⟩, front, h, hdepth => by
    rw [Phrase.text] at h
    exact a.every_node h.left hdepth
theorem Derivation.every_node : ∀ (d : Derivation) {front : Text}, StandsIn text front (Derivation.text d) →
    Derivation.depth d ≤ limits.nesting →
    ∀ t ∈ Derivation.terms d front.size, t.node.Every (Term.SpannedIn text limits)
  | [], _, _, _ => by simp [Derivation.terms]
  | p :: d, front, h, hdepth => by
    rw [Derivation.depth] at hdepth
    exact every_node_cons h (fun hp => p.every_node hp (by omega)) fun hd => Derivation.every_node d hd (by omega)
end

end

end Grammar

/-- **The spans of a pattern that is read.**  The spans of its terms fill the text, one behind the other.  At every
depth the span of a term lies on characters, the body of a group fills the text between the parenthesis that the group
begins with and the matching one, and the text of the span is read, under the same limits, as this one term, with every
span moved to the front by the start of its own. -/
theorem Pattern.spans_of_read {text : Text} {limits : Limits} {p : Pattern} (h : Pattern.read text limits = .ok p) :
    Span.Tile (p.map (·.span)) 0 text.size ∧ p.Every (Term.SpannedIn text limits) := by
  obtain ⟨d, rfl, hdepth, rfl⟩ := Grammar.read_eq_ok_iff.1 h
  have hstands : Grammar.StandsIn (Grammar.Derivation.text d) [] (Grammar.Derivation.text d) :=
    ⟨⟨[], by simp⟩, 0, rfl⟩
  constructor
  · simpa [Grammar.Derivation.pattern] using d.tile_pattern 0
  · exact Pattern.every_joinRuns (Grammar.spannedIn_of_mem_splitBy hstands hdepth)
      (Grammar.Derivation.every_node d hstands hdepth)

/-- In `é(a\)+(bc)*)?d` the outer group begins at byte 2, and the parenthesis at byte 12 matches it, not the one behind
the backslash.  The inner group, cut out from byte 7 on, is read alone. -/
theorem Pattern.spans_of_read_groups : ∃ p body inner u,
    Pattern.read "é(a\\)+(bc)*)?d".toList ⟨2⟩ = .ok p ∧
    p = [⟨.literal ['é'], .once, ⟨0, 2⟩⟩, ⟨.group body, .zeroOrOne, ⟨2, 14⟩⟩, ⟨.literal ['d'], .once, ⟨14, 15⟩⟩] ∧
    body = [⟨.literal ['a'], .once, ⟨3, 4⟩⟩, ⟨.literal [')'], .oneOrMore, ⟨4, 7⟩⟩, inner] ∧
    Span.Tile (p.map (·.span)) 0 15 ∧ Text.Encloses "é(a\\)+(bc)*)?d".toList 2 12 ∧
    Span.Tile (body.map (·.span)) 3 12 ∧
    Pattern.read "(bc)*".toList ⟨2⟩ = .ok [u] ∧ u.shift 7 = inner := by
  obtain ⟨p, body, inner, hp, hbody, hinner, hread⟩ : ∃ p body inner,
      p = [⟨.literal ['é'], .once, ⟨0, 2⟩⟩, ⟨.group body, .zeroOrOne, ⟨2, 14⟩⟩, ⟨.literal ['d'], .once, ⟨14, 15⟩⟩] ∧
      body = [⟨.literal ['a'], .once, ⟨3, 4⟩⟩, ⟨.literal [')'], .oneOrMore, ⟨4, 7⟩⟩, inner] ∧
      inner = ⟨.group [⟨.literal ['b', 'c'], .once, ⟨8, 10⟩⟩], .zeroOrMore, ⟨7, 12⟩⟩ ∧
      Pattern.read "é(a\\)+(bc)*)?d".toList ⟨2⟩ = .ok p := ⟨_, _, _, rfl, rfl, rfl, by decide +kernel⟩
  obtain ⟨htile, hevery⟩ := spans_of_read hread
  have hsize : Text.size "é(a\\)+(bc)*)?d".toList = 15 := by decide +kernel
  rw [hsize] at htile
  subst hp
  -- the group is the second term, and the inner one the third of its body
  obtain ⟨-, ⟨hgroup, hbelow⟩, -⟩ := hevery
  obtain ⟨closed, hencloses, hclosed⟩ := hgroup.body body rfl
  change Pattern.Every _ body at hbelow
  subst hbody
  obtain rfl : 12 = closed := by simpa [Span.Tile, hinner] using hclosed
  subst hinner
  obtain ⟨-, -, ⟨halone, -⟩, -⟩ := hbelow
  obtain ⟨s, u, hs, hu, hshift⟩ := halone.alone
  obtain rfl : "(bc)*".toList = s := Option.some.inj (hs ▸ by decide +kernel)
  exact ⟨_, _, _, u, hread, rfl, rfl, htile, hencloses, hclosed, hu, hshift⟩

end PatternWalk
