import PatternWalk.Proofs.Limits
/-!
# Completing — what an unclosed delimiter leaves to be written

A text that ends inside a group or a set is not read, and its error is shown at the delimiter that is to be closed
first.  For a group this is the parenthesis behind which everything is closed, so the rest of the text is read alone.
For a set it is the last bracket that no backslash takes.  Nothing but an end is missing: from every draft that is in a
group or a set there is a reading to a complete one (`read_unclosed`).
-/
namespace PatternWalk

/-! ## Backslashes that take the next character -/

namespace Text

/-- **The text ends with a backslash that takes the next character**, and that no other backslash takes. -/
def endsEscaping (s : Text) : Bool := s.foldl (fun escaped c => !escaped && c == '\\') false

/-- **A character stands at the offset and no backslash takes it.** -/
def Unescaped (text : Text) (c : Char) (offset : Nat) : Prop :=
  ∃ front rest, text = front ++ c :: rest ∧ front.size = offset ∧ front.endsEscaping = false

/-- Wherever the character stands in the text, a backslash of the text takes it, and no backslash is left over. -/
def Hides (c : Char) (s : Text) : Prop :=
  s.endsEscaping = false ∧ ∀ front rest, s = front ++ c :: rest → front.endsEscaping = true

variable {c : Char} {s t : Text}

theorem endsEscaping_append (h : s.endsEscaping = false) (t : Text) : (s ++ t).endsEscaping = t.endsEscaping := by
  rw [endsEscaping, List.foldl_append, ← endsEscaping, h]
  rfl

theorem hides_nil (c : Char) : Hides c [] := ⟨rfl, fun front rest h => by simp at h⟩

theorem hides_singleton {d : Char} (hne : c ≠ d) (hd : d ≠ '\\') : Hides c [d] := by
  refine ⟨by simpa [endsEscaping] using hd, fun front rest h => ?_⟩
  cases front with
  | nil => exact absurd (List.cons.inj h).1.symm hne
  | cons e front => simp at h

theorem Hides.append (hs : Hides c s) (ht : Hides c t) : Hides c (s ++ t) := by
  refine ⟨by rw [endsEscaping_append hs.1, ht.1], fun front rest h => ?_⟩
  rcases List.append_eq_append_iff.1 h with ⟨u, rfl, hu⟩ | ⟨u, rfl, hu⟩
  · rw [endsEscaping_append hs.1]
    exact ht.2 u rest hu
  · cases u with
    | nil => exact absurd (ht.2 [] rest hu.symm) (by decide)
    | cons d u =>
      obtain ⟨rfl, -⟩ := List.cons.inj hu
      exact hs.2 front u rfl

theorem Unescaped.le_size {front inside : Text} {offset : Nat} (h : (front ++ c :: inside).Unescaped c offset)
    (hfront : front.endsEscaping = false) (hc : c ≠ '\\') (hinside : Hides c inside) : offset ≤ front.size := by
  obtain ⟨other, rest, heq, rfl, hother⟩ := h
  by_contra hlt
  obtain ⟨u, rfl, hu⟩ := exists_append_of_size_le heq (Nat.le_of_not_le hlt)
  cases u with
  | nil => simp at hlt
  | cons d u =>
    obtain ⟨rfl, hrest⟩ := List.cons.inj hu
    have hopener : endsEscaping [c] = false := by simpa [endsEscaping] using hc
    have hbehind : endsEscaping u = false := by
      rwa [endsEscaping_append hfront, ← List.singleton_append, endsEscaping_append hopener] at hother
    cases hbehind.symm.trans (hinside.2 u rest hrest)

end Text

theorem Nesting.next?_escaped {n n' : Nesting} {c : Char} (h : n.next? c = some n') :
    n'.escaped = (!n.escaped && c == '\\') := by
  unfold next? at h
  grind

theorem Nesting.past?_escaped {s : Text} : ∀ {n n' : Nesting}, n.past? s = some n' →
    n'.escaped = s.foldl (fun escaped c => !escaped && c == '\\') n.escaped := by
  induction s with
  | nil =>
    intro n n' h
    obtain rfl := Option.some.inj h
    rfl
  | cons c s ih =>
    intro n n' h
    rw [past?_cons] at h
    obtain ⟨m, hm, hs⟩ := Option.bind_eq_some_iff.1 h
    rw [ih hs, next?_escaped hm, List.foldl_cons]

namespace Grammar

theorem Letter.hides_bracket (l : Letter) : Text.Hides '[' l.text := by
  cases l with
  | plain c hc =>
    obtain ⟨hspecial, hescape⟩ := notMem_of_ordinary hc
    refine Text.hides_singleton ?_ hescape
    rintro rfl
    exact hspecial (by decide)
  | escaped c _ =>
    refine ⟨by simp [text, Text.endsEscaping], fun front rest h => ?_⟩
    cases front with
    | nil => simp [text] at h
    | cons d front =>
      obtain ⟨rfl, hfront⟩ := List.cons.inj h
      cases front with
      | nil => rfl
      | cons e front => simp at hfront

theorem hides_bracket_dash : Text.Hides '[' ['-'] := Text.hides_singleton (by decide) (by decide)

theorem Item.hides_bracket : ∀ i : Item, Text.Hides '[' i.text
  | member l => l.hides_bracket
  | range low high _ => low.hides_bracket.append (hides_bracket_dash.append high.hides_bracket)

theorem hides_bracket_items : ∀ items : List Item, Text.Hides '[' (items.flatMap Item.text)
  | [] => Text.hides_nil '['
  | i :: items => by
    rw [List.flatMap_cons]
    exact i.hides_bracket.append (hides_bracket_items items)

namespace Draft

variable {nesting : Nat} {z : Draft} {o : List Derivation} {ps : Derivation} {cause : Cause} {front shown : Text}

/-! ## What stands before the delimiter, and behind it -/

theorem past?_outerText : ∀ o : List Derivation, ({} : Nesting).past? (outerText o) = some { groups := o.length }
  | [] => rfl
  | before :: o => by
    rw [outerText, Nesting.past?_append, Nesting.past?_append, past?_outerText o, Option.bind_some,
      Derivation.past?_text]
    rfl

theorem past?_front (o : List Derivation) (ps : Derivation) :
    ({} : Nesting).past? (Draft.front o ps) = some { groups := o.length } := by
  rw [Draft.front, Nesting.past?_append, past?_outerText, Option.bind_some, Derivation.past?_text]

theorem endsEscaping_front (o : List Derivation) (ps : Derivation) : (Draft.front o ps).endsEscaping = false :=
  (Nesting.past?_escaped (past?_front o ps)).symm

theorem HasPhrases.settled (hz : z.HasPhrases o ps) :
    z.text = (⟨o, ps, .slot .term false⟩ : Draft).text ∧ z.depth = (⟨o, ps, .slot .term false⟩ : Draft).depth := by
  obtain rfl | ⟨front, a, rfl, rfl⟩ := hz
  · exact ⟨rfl, rfl⟩
  · exact ⟨text_endTerm o front a, (depth_endTerm o front a).symm⟩

theorem Unfinished.group (h : z.Unfinished cause front shown) (hcause : cause = .unclosedGroup) :
    ∃ before o ps, z.text = Draft.front o before ++ '(' :: Derivation.text ps ∧ Derivation.depth ps ≤ z.depth ∧
      front = Draft.front o before ∧ shown = ['('] := by
  obtain ⟨before, o, ps, hps, hfront, hshown⟩ : ∃ before o ps, z.HasPhrases (before :: o) ps ∧
      front = Draft.front o before ∧ shown = ['('] := by
    cases h with
    | @term before o ps => exact ⟨before, o, ps, .inl rfl, rfl, rfl⟩
    | @atom before o ps a => exact ⟨before, o, ps ++ [⟨a, none⟩], .inr ⟨ps, a, rfl, rfl⟩, rfl, rfl⟩
    | _ => cases hcause
  obtain ⟨htext, hdepth⟩ := hps.settled
  refine ⟨before, o, ps, ?_, ?_, hfront, hshown⟩
  · rw [htext]
    simp [Draft.text, Draft.front, outerText, Piece.text, Slot.text]
  · rw [hdepth]
    simp only [Draft.depth]
    omega

theorem Unfinished.set (h : z.Unfinished cause front shown) (hcause : cause = .unclosedCharSet) :
    ∃ o ps inside, z.text = Draft.front o ps ++ '[' :: inside ∧ Text.Hides '[' inside ∧ front = Draft.front o ps ∧
      shown = ['['] := by
  cases h with
  | @slot o ps s hs =>
    cases s with
    | term => exact absurd rfl hs
    | item items => exact ⟨o, ps, _, rfl, hides_bracket_items items, rfl, rfl⟩
    | rangeEnd items low =>
      have hinside := ((hides_bracket_items items).append low.hides_bracket).append hides_bracket_dash
      exact ⟨o, ps, _, rfl, hinside, rfl, rfl⟩
  | @letter o ps items l => exact ⟨o, ps, _, rfl, (hides_bracket_items items).append l.hides_bracket, rfl, rfl⟩
  | _ => cases hcause

theorem Refuses.not_isUnclosed {c : Char} (h : z.Refuses nesting c cause front shown) : cause.isUnclosed = false := by
  induction h with
  | endTerm hc h ih | endItem hc h ih => exact ih
  | _ => rfl

/-! ## What can be written behind -/

theorem reads_closing : ∀ (o : List Derivation) {ps : Derivation} {z : Draft}, z.HasPhrases o ps → ps ≠ [] →
    ∃ z' d, Reads nesting z (List.replicate o.length ')') z' ∧ z'.HasPhrases [] d
  | [], ps, z, hz, _ => ⟨z, ps, .done, hz⟩
  | before :: o, [], _, _, hne => absurd rfl hne
  | before :: o, first :: body, z, hz, _ => by
    have hclose : z.Moves nesting ')' ⟨o, before, .atom (.group first body)⟩ := hz.moves rfl .closeGroup
    obtain ⟨z', d, hz', hd⟩ : ∃ z' d, Reads nesting ⟨o, before, .atom (.group first body)⟩
      (List.replicate o.length ')') z' ∧ z'.HasPhrases [] d := reads_closing o (.inr ⟨before, _, rfl, rfl⟩) (by simp)
    exact ⟨z', d, .move hclose hz', hd⟩

/-- **Groups can be closed**: behind a letter, so that none is empty. -/
theorem HasPhrases.completes (hz : z.HasPhrases o ps) : ∃ s z' d, Reads nesting z s z' ∧ z'.HasPhrases [] d := by
  have hc : Text.needsEscape 'a' = false := by decide
  have hletter : z.Moves nesting 'a' ⟨o, ps, .atom (.letter (.plain 'a' hc))⟩ := hz.moves (by decide) (.plain hc rfl)
  obtain ⟨z', d, hz', hd⟩ : ∃ z' d, Reads nesting ⟨o, ps, .atom (.letter (.plain 'a' hc))⟩
    (List.replicate o.length ')') z' ∧ z'.HasPhrases [] d := reads_closing o (.inr ⟨ps, _, rfl, rfl⟩) (by simp)
  exact ⟨_, z', d, .move hletter hz', hd⟩

theorem HasItems.completes {items : List Item} (hz : z.HasItems o ps items) :
    ∃ s z' d, Reads nesting z s z' ∧ z'.HasPhrases [] d := by
  have hc : Text.needsEscape 'a' = false := by decide
  obtain ⟨y, hy, hitems⟩ := reads_item hz (.member (.plain 'a' hc))
  obtain ⟨first, rest, hcons⟩ : ∃ first rest, items ++ [.member (.plain 'a' hc)] = first :: rest :=
    List.exists_cons_of_ne_nil (by simp)
  rw [hcons] at hitems
  have hclose : y.Moves nesting ']' ⟨o, ps, .atom (.set first rest)⟩ := hitems.moves (by decide) .closeSet
  obtain ⟨s, z', d, hz', hd⟩ : ∃ s z' d, Reads nesting ⟨o, ps, .atom (.set first rest)⟩ s z' ∧ z'.HasPhrases [] d :=
    HasPhrases.completes (.inr ⟨ps, _, rfl, rfl⟩)
  exact ⟨_, z', d, hy.trans (.move hclose hz'), hd⟩

/-- **What ends in a group or a set can be completed.** -/
theorem Unfinished.completes (h : z.Unfinished cause front shown)
    (hcause : cause = .unclosedGroup ∨ cause = .unclosedCharSet) :
    ∃ s z' d, Reads nesting z s z' ∧ z'.HasPhrases [] d := by
  cases h with
  | escape | tooGreat | bound => simp at hcause
  | term => exact HasPhrases.completes (.inl rfl)
  | atom => exact HasPhrases.completes (.inr ⟨_, _, rfl, rfl⟩)
  | letter => exact HasItems.completes (.inr ⟨_, _, rfl, rfl⟩)
  | @slot o ps s hs =>
    cases s with
    | term => exact absurd rfl hs
    | item items => exact HasItems.completes (.inl rfl)
    | rangeEnd items low =>
      -- behind a dash the low end can be written again, as no range ends below itself
      have hle : low.char ≤ low.char := UInt32.le_refl _
      have hhigh : (Slot.rangeEnd items low).fill low = some (.slot (.item (items ++ [.range low low hle])) false) :=
        dif_pos hle
      obtain ⟨s, z', d, hz', hd⟩ : ∃ s z' d, Reads nesting
        ⟨o, ps, .slot (.item (items ++ [.range low low hle])) false⟩ s z' ∧ z'.HasPhrases [] d :=
        HasItems.completes (.inl rfl)
      exact ⟨_, z', d, (reads_letter low hhigh).trans hz', hd⟩

end Draft

variable {nesting : Nat} {text front shown : Text} {cause : Cause}

theorem Fails.exists_unfinished (h : Fails nesting text cause front shown) (hcause : cause.isUnclosed = true) :
    ∃ z, Draft.Reads nesting .initial text z ∧ z.Unfinished cause front shown := by
  cases h with
  | refused htext hz h => cases h.not_isUnclosed.symm.trans hcause
  | unfinished hz h => exact ⟨_, hz, h⟩

theorem read_of_reads {limits : Limits} {z : Draft} {d : Derivation} (hz : Draft.Reads limits.nesting .initial text z)
    (hd : z.HasPhrases [] d) : Pattern.read text limits = .ok d.pattern := by
  refine read_eq_ok_iff.2 ⟨d, ?_, ?_, rfl⟩
  · rw [← hd.text, hz.text_initial]
  · rw [← hd.depth]
    exact hz.depth_le (Nat.zero_le _)

end Grammar

open Grammar in
/-- **An unclosed delimiter is the innermost that is open, and the text can be completed.**  A group that is not closed
is shown at its parenthesis, and the rest of the text is read alone, so it closes what it opens.  A set that is not
closed is shown at the last bracket that no backslash takes.  Either way something can be written behind the text with
which it is read, under the same limit. -/
theorem Pattern.read_unclosed {text : Text} {limits : Limits} {e : GrammarError}
    (h : Pattern.read text limits = .error e) :
    (e.cause = .unclosedGroup → ∃ front rest, text = front ++ '(' :: rest ∧
      e.span = ⟨front.size, front.size + 1⟩ ∧ (∃ groups, text.OpensGroup front.size groups) ∧
      (∃ p, Pattern.read rest limits = .ok p) ∧ ∃ s p, Pattern.read (text ++ s) limits = .ok p) ∧
    (e.cause = .unclosedCharSet → ∃ front rest, text = front ++ '[' :: rest ∧
      e.span = ⟨front.size, front.size + 1⟩ ∧ text.Unescaped '[' front.size ∧
      (∀ offset, text.Unescaped '[' offset → offset ≤ front.size) ∧
      ∃ s p, Pattern.read (text ++ s) limits = .ok p) := by
  obtain ⟨cause, front, shown, hfails, rfl⟩ := Grammar.read_eq_error_iff.1 h
  have hcompletes : cause = .unclosedGroup ∨ cause = .unclosedCharSet →
      ∃ s p, Pattern.read (text ++ s) limits = .ok p := by
    intro hcause
    obtain ⟨z, hz, hend⟩ := hfails.exists_unfinished (by rcases hcause with rfl | rfl <;> rfl)
    obtain ⟨s, z', d, hs, hd⟩ := hend.completes hcause
    exact ⟨s, _, read_of_reads (hz.trans hs) hd⟩
  constructor
  · rintro rfl
    obtain ⟨z, hz, hend⟩ := hfails.exists_unfinished rfl
    obtain ⟨before, o, ps, htext, hdepth, rfl, rfl⟩ := hend.group rfl
    rw [hz.text_initial] at htext
    have hopens : text.OpensGroup (Draft.front o before).size (o.length + 1) :=
      ⟨_, _, o.length, htext, rfl, Draft.past?_front o before, rfl⟩
    have hrest : Pattern.read (Derivation.text ps) limits = .ok ps.pattern :=
      read_eq_ok_iff.2 ⟨ps, rfl, hdepth.trans (hz.depth_le (Nat.zero_le _)), rfl⟩
    exact ⟨_, _, htext, by rw [Text.size_append]; rfl, ⟨_, hopens⟩, ⟨_, hrest⟩, hcompletes (.inl rfl)⟩
  · rintro rfl
    obtain ⟨z, hz, hend⟩ := hfails.exists_unfinished rfl
    obtain ⟨o, ps, inside, htext, hinside, rfl, rfl⟩ := hend.set rfl
    rw [hz.text_initial] at htext
    have hfront : (Draft.front o ps).endsEscaping = false := Draft.endsEscaping_front o ps
    refine ⟨_, _, htext, by rw [Text.size_append]; rfl, ⟨_, _, htext, rfl, hfront⟩, fun offset hoffset => ?_,
      hcompletes (.inr rfl)⟩
    rw [htext] at hoffset
    exact hoffset.le_size hfront (by decide) hinside

/-- In `a(b(c)` the parenthesis at byte 1 is the one to be closed.  In `(é[\[z-` it is the bracket at byte 3, since the
other has a backslash; the text ends behind a dash, in a set, in a group. -/
theorem Pattern.read_unclosed_nested :
    (Pattern.read "a(b(c)".toList ⟨2⟩ = .error ⟨.unclosedGroup, ⟨1, 2⟩, "a(b(c)".toList⟩ ∧
      (∃ front rest : Text, "a(b(c)".toList = front ++ '(' :: rest ∧ front.size = 1 ∧
        ∃ p, Pattern.read rest ⟨2⟩ = .ok p) ∧
      ∃ s p, Pattern.read ("a(b(c)".toList ++ s) ⟨2⟩ = .ok p) ∧
    Pattern.read "(é[\\[z-".toList ⟨1⟩ = .error ⟨.unclosedCharSet, ⟨3, 4⟩, "(é[\\[z-".toList⟩ ∧
      Text.Unescaped "(é[\\[z-".toList '[' 3 ∧ (∀ offset, Text.Unescaped "(é[\\[z-".toList '[' offset → offset ≤ 3) ∧
      ∃ s p, Pattern.read ("(é[\\[z-".toList ++ s) ⟨1⟩ = .ok p := by
  have hgroup : Pattern.read "a(b(c)".toList ⟨2⟩ = .error ⟨.unclosedGroup, ⟨1, 2⟩, "a(b(c)".toList⟩ := by
    decide +kernel
  have hset : Pattern.read "(é[\\[z-".toList ⟨1⟩ = .error ⟨.unclosedCharSet, ⟨3, 4⟩, "(é[\\[z-".toList⟩ := by
    decide +kernel
  obtain ⟨front, rest, htext, hspan, -, hrest, hcompletes⟩ := (read_unclosed hgroup).1 rfl
  obtain ⟨front', rest', -, hspan', hopener, hlast, hcompletes'⟩ := (read_unclosed hset).2 rfl
  have hsize : 1 = front.size := congrArg Span.start hspan
  have hsize' : 3 = front'.size := congrArg Span.start hspan'
  rw [← hsize'] at hopener hlast
  exact ⟨⟨hgroup, ⟨front, rest, htext, hsize.symm, hrest⟩, hcompletes⟩, hset, hopener, hlast, hcompletes'⟩

end PatternWalk
