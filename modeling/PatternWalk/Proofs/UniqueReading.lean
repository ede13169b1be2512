import PatternWalk.Proofs.Grammar
import PatternWalk.Proofs.Roles
import PatternWalk.Proofs.SelfEnding
/-!
# UniqueReading — a text has at most one derivation

Letters, items and atoms show by themselves where they end, a suffix is looked for behind an atom, and what may follow
a phrase begins no suffix.  So two derivations of one text agree piece by piece (`eq_of_text_eq`).
-/
namespace PatternWalk
namespace Grammar

/-! ## First characters -/

def NoSuffix (s : Text) : Prop := ∀ c ∈ s.head?, (Token.Kind.ofChar c).startsQuantifier = false

theorem Letter.exists_text_eq_cons : ∀ l : Letter,
    ∃ c s, l.text = c :: s ∧ (Text.needsEscape c = false ∨ c = '\\')
  | plain c h => ⟨c, [], rfl, .inl h⟩
  | escaped c _ => ⟨'\\', [c], rfl, .inr rfl⟩

theorem Letter.text_eq : ∀ l : Letter, l.text = Text.escapeChar l.char
  | plain c h => by rw [text, char, Text.escapeChar, h, if_neg Bool.false_ne_true]
  | escaped c h => by rw [text, char, Text.escapeChar, if_pos h, Text.escape]

theorem Letter.head?_ne (l : Letter) (s : Text) {d : Char} (hd : Text.isSpecial d = true) :
    (l.text ++ s).head? ≠ some d := by
  rw [l.text_eq]
  exact Text.head?_escapeChar_ne hd l.char s

theorem Item.head?_ne (i : Item) (s : Text) {d : Char} (hd : Text.isSpecial d = true) :
    (i.text ++ s).head? ≠ some d := by
  cases i with
  | member l => exact l.head?_ne s hd
  | range low high _ =>
    rw [text, List.append_assoc]
    exact low.head?_ne _ hd

theorem Item.text_ne_nil (i : Item) : i.text ≠ [] := by
  cases i with
  | member l => cases l <;> simp [text, Letter.text]
  | range low high _ => simp [text]

theorem Atom.exists_text_eq_cons : ∀ a : Atom,
    ∃ c s, a.text = c :: s ∧ (Text.needsEscape c = false ∨ c ∈ ['\\', '[', '('])
  | letter l => by
    obtain ⟨c, s, hs, hc⟩ := l.exists_text_eq_cons
    exact ⟨c, s, by rw [text, hs], hc.imp id fun h => by simp [h]⟩
  | set first items => ⟨'[', _, by rw [text]; rfl, by simp⟩
  | group first body => ⟨'(', _, by rw [text]; rfl, by simp⟩

theorem Atom.noSuffix (a : Atom) (s : Text) : NoSuffix (a.text ++ s) := by
  obtain ⟨c, t, ht, hc⟩ := a.exists_text_eq_cons
  intro x hx
  obtain rfl : c = x := by simpa [ht] using hx
  rcases hc with hc | hc
  · rw [kind_of_ordinary hc]
    rfl
  · simp only [List.mem_cons, List.not_mem_nil, or_false] at hc
    rcases hc with rfl | rfl | rfl <;> rfl

theorem Atom.text_append_ne (a : Atom) (s r : Text) : a.text ++ s ≠ [] ∧ a.text ++ s ≠ ')' :: r := by
  obtain ⟨c, t, ht, hc⟩ := a.exists_text_eq_cons
  rw [ht]
  refine ⟨by simp, fun h => ?_⟩
  obtain rfl : c = ')' := (List.cons.inj h).1
  simp [Text.needsEscape, Text.isSpecial, Text.specials] at hc

/-! ## Letters, items, bounds and suffixes -/

theorem Letter.eq_of_char_eq : ∀ {l m : Letter}, l.char = m.char → l = m
  | plain _ _, plain _ _, rfl | escaped _ _, escaped _ _, rfl => rfl
  | plain _ hc, escaped _ hd, rfl | escaped _ hd, plain _ hc, rfl => by simp [hc] at hd

theorem Letter.eq_of_text_append {l m : Letter} {r s : Text} (h : l.text ++ r = m.text ++ s) : l = m ∧ r = s := by
  rw [l.text_eq, m.text_eq] at h
  obtain ⟨hchar, rfl⟩ := Text.escapeChar_endsItself h
  exact ⟨eq_of_char_eq hchar, rfl⟩

theorem Item.eq_of_text_append : ∀ {i j : Item} {r s : Text}, r.head? ≠ some '-' → s.head? ≠ some '-' →
    i.text ++ r = j.text ++ s → i = j ∧ r = s
  | member l, member m, r, s, _, _, h => by
    obtain ⟨rfl, rfl⟩ := Letter.eq_of_text_append h
    exact ⟨rfl, rfl⟩
  | member l, range low high _, r, s, hr, _, h => by
    rw [text, text, List.append_assoc, List.cons_append] at h
    obtain ⟨-, rfl⟩ := Letter.eq_of_text_append h
    exact absurd rfl hr
  | range low high _, member m, r, s, _, hs, h => by
    rw [text, text, List.append_assoc, List.cons_append] at h
    obtain ⟨-, rfl⟩ := Letter.eq_of_text_append h
    exact absurd rfl hs
  | range low high _, range low' high' _, r, s, _, _, h => by
    rw [text, text, List.append_assoc, List.append_assoc, List.cons_append, List.cons_append] at h
    obtain ⟨rfl, hhigh⟩ := Letter.eq_of_text_append h
    obtain ⟨rfl, rfl⟩ := Letter.eq_of_text_append (List.cons.inj hhigh).2
    exact ⟨rfl, rfl⟩

theorem head?_items_ne_dash (items : List Item) (r : Text) :
    (items.flatMap Item.text ++ ']' :: r).head? ≠ some '-' := by
  cases items with
  | nil => simp
  | cons i items =>
    rw [List.flatMap_cons, List.append_assoc]
    exact i.head?_ne _ rfl

theorem eq_of_items_append : ∀ {items others : List Item} {r s : Text},
    items.flatMap Item.text ++ ']' :: r = others.flatMap Item.text ++ ']' :: s → items = others ∧ r = s
  | [], [], r, s, h => ⟨rfl, by simpa using h⟩
  | [], j :: others, r, s, h => by
    rw [List.flatMap_cons, List.append_assoc] at h
    exact absurd (congrArg List.head? h).symm (j.head?_ne _ rfl)
  | i :: items, [], r, s, h => by
    rw [List.flatMap_cons, List.append_assoc] at h
    exact absurd (congrArg List.head? h) (i.head?_ne _ rfl)
  | i :: items, j :: others, r, s, h => by
    rw [List.flatMap_cons, List.flatMap_cons, List.append_assoc, List.append_assoc] at h
    obtain ⟨rfl, hrest⟩ := Item.eq_of_text_append (head?_items_ne_dash items r) (head?_items_ne_dash others s) h
    obtain ⟨rfl, rfl⟩ := eq_of_items_append hrest
    exact ⟨rfl, rfl⟩

theorem eq_of_digits_append {c : Char} (hc : c.isDigit = false) {ds es r s : Text}
    (hds : ∀ d ∈ ds, d.isDigit = true) (hes : ∀ e ∈ es, e.isDigit = true) (h : ds ++ c :: r = es ++ c :: s) :
    ds = es ∧ r = s := by
  have hnot : ∀ xs : Text, (∀ x ∈ xs, x.isDigit = true) → c ∉ xs := by
    intro xs hxs hmem
    exact absurd (hxs c hmem) (by simp [hc])
  exact Text.eq_of_append_cons (hnot ds hds) (hnot es hes) h

theorem Bound.eq_of_digits : ∀ {a b : Bound}, a.digits = b.digits → a = b
  | ⟨_, _, _, _⟩, ⟨_, _, _, _⟩, rfl => rfl

theorem Suffix.eq_of_text_append {q q' : Suffix} {r s : Text} (h : q.text ++ r = q'.text ++ s) : q = q' ∧ r = s := by
  cases q <;> cases q' <;> simp only [text, List.cons_append, List.nil_append, List.append_assoc, List.cons.injEq,
    true_and, Char.reduceEq, false_and] at h
  case braces.braces low high _ low' high' _ =>
    obtain ⟨hlow, h⟩ := eq_of_digits_append (by decide) low.decimal low'.decimal h
    obtain ⟨hhigh, rfl⟩ := eq_of_digits_append (by decide) high.decimal high'.decimal h
    obtain rfl := Bound.eq_of_digits hlow
    obtain rfl := Bound.eq_of_digits hhigh
    exact ⟨rfl, rfl⟩
  all_goals exact ⟨rfl, h⟩

theorem Suffix.not_noSuffix (q : Suffix) (s : Text) : ¬ NoSuffix (q.text ++ s) := by
  intro h
  cases q <;> simp [NoSuffix, text, Token.Kind.ofChar, Token.Kind.startsQuantifier] at h

theorem Suffix.eq_of_textOf_append : ∀ {q q' : Option Suffix} {r s : Text}, NoSuffix r → NoSuffix s →
    textOf q ++ r = textOf q' ++ s → q = q' ∧ r = s
  | none, none, _, _, _, _, h => ⟨rfl, h⟩
  | none, some q', _, s, hr, _, h => absurd (show NoSuffix (q'.text ++ s) from h ▸ hr) (q'.not_noSuffix s)
  | some q, none, r, _, _, hs, h => absurd (show NoSuffix (q.text ++ r) from h.symm ▸ hs) (q.not_noSuffix r)
  | some q, some q', _, _, _, _, h => by
    obtain ⟨rfl, rfl⟩ := Suffix.eq_of_text_append h
    exact ⟨rfl, rfl⟩

/-! ## Atoms, phrases and derivations -/

/-- **Where a sequence of phrases ends**: at the end of the text or of the group. -/
def EndsLevel (r : Text) : Prop := r = [] ∨ ∃ s, r = ')' :: s

theorem EndsLevel.noSuffix {r : Text} : EndsLevel r → NoSuffix r
  | .inl h => by simp [h, NoSuffix]
  | .inr ⟨s, h⟩ => by simp [h, NoSuffix, Token.Kind.ofChar, Token.Kind.startsQuantifier]

theorem Derivation.noSuffix : ∀ (d : Derivation) {r : Text}, EndsLevel r → NoSuffix (text d ++ r)
  | [], _, hr => hr.noSuffix
  | ⟨a, q⟩ :: d, r, _ => by
    rw [text, Phrase.text, List.append_assoc, List.append_assoc]
    exact a.noSuffix _

theorem Phrase.not_endsLevel : ∀ (p : Phrase) (s : Text), ¬ EndsLevel (p.text ++ s)
  | ⟨a, q⟩, s, h => by
    rw [text, List.append_assoc] at h
    rcases h with h | ⟨r, h⟩
    · exact (a.text_append_ne _ []).1 h
    · exact (a.text_append_ne _ r).2 h

mutual
theorem Atom.eq_of_text_append : ∀ (a b : Atom) {r s : Text}, a.text ++ r = b.text ++ s → a = b ∧ r = s
  | .letter l, .letter m, r, s, h => by
    obtain ⟨rfl, rfl⟩ := Letter.eq_of_text_append h
    exact ⟨rfl, rfl⟩
  | .set first items, .set first' items', r, s, h => by
    simp only [Atom.text, List.cons_append, List.append_assoc, List.cons.injEq, true_and, List.nil_append] at h
    obtain ⟨hi, rfl⟩ := eq_of_items_append h
    obtain ⟨rfl, rfl⟩ := List.cons.inj hi
    exact ⟨rfl, rfl⟩
  | .group first body, .group first' body', r, s, h => by
    simp only [Atom.text, List.cons_append, List.append_assoc, List.cons.injEq, true_and, List.nil_append] at h
    -- both bodies end before the closing parenthesis, which no phrase begins with
    have hend : ∀ t : Text, EndsLevel (')' :: t) := fun t => .inr ⟨t, rfl⟩
    obtain ⟨rfl, hbody⟩ := Phrase.eq_of_text_append first first'
      (Derivation.noSuffix body (hend r)) (Derivation.noSuffix body' (hend s)) h
    obtain ⟨rfl, hclose⟩ := Derivation.eq_of_text_append body body' (hend r) (hend s) hbody
    exact ⟨rfl, (List.cons.inj hclose).2⟩
  | .letter l, .set _ _, r, _, h | .letter l, .group _ _, r, _, h =>
    absurd (congrArg List.head? h) (l.head?_ne r rfl)
  | .set _ _, .letter l, _, s, h | .group _ _, .letter l, _, s, h =>
    absurd (congrArg List.head? h).symm (l.head?_ne s rfl)
  | .set _ _, .group _ _, _, _, h | .group _ _, .set _ _, _, _, h => by
    simp [Atom.text] at h
theorem Phrase.eq_of_text_append : ∀ (p p' : Phrase) {r s : Text}, NoSuffix r → NoSuffix s →
    p.text ++ r = p'.text ++ s → p = p' ∧ r = s
  | ⟨a, q⟩, ⟨a', q'⟩, r, s, hr, hs, h => by
    rw [Phrase.text, Phrase.text, List.append_assoc, List.append_assoc] at h
    obtain ⟨rfl, hsuffix⟩ := Atom.eq_of_text_append a a' h
    obtain ⟨rfl, rfl⟩ := Suffix.eq_of_textOf_append hr hs hsuffix
    exact ⟨rfl, rfl⟩
/-- **A sequence of phrases ends at the end of its level.** -/
theorem Derivation.eq_of_text_append : ∀ (d e : Derivation) {r s : Text}, EndsLevel r → EndsLevel s →
    Derivation.text d ++ r = Derivation.text e ++ s → d = e ∧ r = s
  | [], [], _, _, _, _, h => ⟨rfl, h⟩
  | [], p :: e, r, s, hr, _, h => by
    rw [Derivation.text, Derivation.text, List.append_assoc, List.nil_append] at h
    exact absurd (h ▸ hr) (p.not_endsLevel _)
  | p :: d, [], r, s, _, hs, h => by
    rw [Derivation.text, Derivation.text, List.append_assoc, List.nil_append] at h
    exact absurd (h.symm ▸ hs) (p.not_endsLevel _)
  | p :: d, p' :: e, r, s, hr, hs, h => by
    rw [Derivation.text, Derivation.text, List.append_assoc, List.append_assoc] at h
    obtain ⟨rfl, hrest⟩ := Phrase.eq_of_text_append p p' (Derivation.noSuffix d hr) (Derivation.noSuffix e hs) h
    obtain ⟨rfl, rfl⟩ := Derivation.eq_of_text_append d e hr hs hrest
    exact ⟨rfl, rfl⟩
end

/-- **The grammar is unambiguous**: a text has at most one derivation. -/
theorem Derivation.eq_of_text_eq {d e : Derivation} (h : text d = text e) : d = e :=
  (Derivation.eq_of_text_append d e (.inl rfl) (.inl rfl) (by rw [h])).1

end Grammar
end PatternWalk
