import PatternWalk.Proofs.Moves
import PatternWalk.Proofs.Roles
/-!
# Refusals — what a draft cannot go on with

Beside the moves of drafts stand their refusals.  `Draft.Refuses` lists the characters that a draft does not take, with
the cause and the part of the text that shows it, and `Draft.Unfinished` the drafts that a text cannot end with.
Between them and the moves there is nothing: a draft takes a character or refuses it (`moves_or_refuses`), and a draft
at the end is complete or unfinished (`hasPhrases_or_unfinished`).  The reader stops with just these faults.
-/
namespace PatternWalk

namespace Grammar

def Bound.mark : Option Bound → Char
  | none => ','
  | some _ => '}'

/-- **What a draft refuses**, where at most `nesting` groups may be open: a character, the cause, and the part of the
text that shows it, behind another part. -/
inductive Draft.Refuses (nesting : Nat) : Draft → Char → Cause → (front shown : Text) → Prop
  /-- A group inside as many groups as may be open. -/
  | tooDeep {o ps} (h : nesting ≤ o.length) :
    Refuses nesting ⟨o, ps, .slot .term false⟩ '(' .recursionLimitExceeded (Draft.front o ps) ['(']
  | unopened {ps} : Refuses nesting ⟨[], ps, .slot .term false⟩ ')' .unbalancedClose (Draft.front [] ps) [')']
  | emptyGroup {o before} :
    Refuses nesting ⟨before :: o, [], .slot .term false⟩ ')' .emptyGroup (Draft.front o before) ['(', ')']
  | unbalanced {o ps c} (hc : c = ']' ∨ c = '}') :
    Refuses nesting ⟨o, ps, .slot .term false⟩ c .unbalancedClose (Draft.front o ps) [c]
  | dash {o ps} : Refuses nesting ⟨o, ps, .slot .term false⟩ '-' .unescapedSpecial (Draft.front o ps) ['-']
  /-- A quantifier where nothing stands on the level. -/
  | noTarget {o c} (hc : (Token.Kind.ofChar c).startsQuantifier = true) :
    Refuses nesting ⟨o, [], .slot .term false⟩ c .quantifierWithoutTarget (Draft.front o []) [c]
  /-- A quantifier behind a quantified term. -/
  | stacked {o first ps c} (hc : (Token.Kind.ofChar c).startsQuantifier = true) :
    Refuses nesting ⟨o, first :: ps, .slot .term false⟩ c .stackedQuantifier (Draft.front o (first :: ps)) [c]
  /-- An operator in a set. -/
  | special {o ps s c} (hs : s ≠ .term) (hc : Text.isSpecial c = true) (hne : c ≠ ']') :
    Refuses nesting ⟨o, ps, .slot s false⟩ c .unescapedSpecial (Draft.front o ps ++ s.text) [c]
  | emptySet {o ps} :
    Refuses nesting ⟨o, ps, .slot (.item []) false⟩ ']' .emptyCharSet (Draft.front o ps) ['[', ']']
  /-- A set that ends behind a dash; the dash shows it. -/
  | openRange {o ps items low} : Refuses nesting ⟨o, ps, .slot (.rangeEnd items low) false⟩ ']' .unescapedSpecial
      (Draft.front o ps ++ '[' :: items.flatMap Item.text ++ low.text) ['-']
  /-- A range that ends below its beginning. -/
  | disordered {o ps items low c} (hc : Text.needsEscape c = false) (h : c < low.char) :
    Refuses nesting ⟨o, ps, .slot (.rangeEnd items low) false⟩ c .invalidRange
      (Draft.front o ps ++ '[' :: items.flatMap Item.text) (low.text ++ '-' :: (Letter.plain c hc).text)
  | escapedDisordered {o ps items low c} (hc : Text.needsEscape c = true) (h : c < low.char) :
    Refuses nesting ⟨o, ps, .slot (.rangeEnd items low) true⟩ c .invalidRange
      (Draft.front o ps ++ '[' :: items.flatMap Item.text) (low.text ++ '-' :: (Letter.escaped c hc).text)
  /-- A backslash before a character that stands for itself. -/
  | notEscapable {o ps s c} (hc : Text.needsEscape c = false) :
    Refuses nesting ⟨o, ps, .slot s true⟩ c .invalidEscape (Draft.front o ps ++ s.text) ['\\', c]
  | noDigits {o ps a low? c hd} (hc : c.isDigit = false) :
    Refuses nesting ⟨o, ps, .bound a low? [] hd⟩ c .invalidQuantifierBounds (Draft.front o ps ++ a.text)
      ('{' :: Bound.textOf low? ++ [c])
  /-- Digits that fit no bound; what ends them does not show. -/
  | tooGreat {o ps a low? digits c hd} (hc : c.isDigit = false)
    (h : Reader.greatestBound < Nat.ofDigitChars 10 digits 0) :
    Refuses nesting ⟨o, ps, .bound a low? digits hd⟩ c .invalidQuantifierBounds (Draft.front o ps ++ a.text)
      ('{' :: Bound.textOf low? ++ digits)
  | unmarked {o ps a low? c} (b : Bound) (hc : c.isDigit = false) (hne : c ≠ Bound.mark low?) :
    Refuses nesting ⟨o, ps, .bound a low? b.digits b.decimal⟩ c .invalidQuantifierBounds (Draft.front o ps ++ a.text)
      ('{' :: Bound.textOf low? ++ b.digits ++ [c])
  /-- Bounds that are out of order. -/
  | boundsBelow {o ps a} (low high : Bound) (h : high.value < low.value) :
    Refuses nesting ⟨o, ps, .bound a (some low) high.digits high.decimal⟩ '}' .quantifierMinExceedsMax
      (Draft.front o ps ++ a.text) ('{' :: low.digits ++ ',' :: high.digits ++ ['}'])
  /-- Anything but a suffix ends the term. -/
  | endTerm {o ps a c cause front shown} (hc : (Token.Kind.ofChar c).startsQuantifier = false)
    (h : Refuses nesting ⟨o, ps ++ [⟨a, none⟩], .slot .term false⟩ c cause front shown) :
    Refuses nesting ⟨o, ps, .atom a⟩ c cause front shown
  /-- Anything but a dash ends the item. -/
  | endItem {o ps items l c cause front shown} (hc : c ≠ '-')
    (h : Refuses nesting ⟨o, ps, .slot (.item (items ++ [.member l])) false⟩ c cause front shown) :
    Refuses nesting ⟨o, ps, .letter items l⟩ c cause front shown

/-- **What a text cannot end with**: a draft, the cause, and the part of its text that shows it, behind another part. -/
inductive Draft.Unfinished : Draft → Cause → (front shown : Text) → Prop
  | escape {o ps s} : Unfinished ⟨o, ps, .slot s true⟩ .trailingEscape (Draft.front o ps ++ s.text) ['\\']
  | slot {o ps s} (hs : s ≠ .term) : Unfinished ⟨o, ps, .slot s false⟩ .unclosedCharSet (Draft.front o ps) ['[']
  | letter {o ps items l} : Unfinished ⟨o, ps, .letter items l⟩ .unclosedCharSet (Draft.front o ps) ['[']
  | tooGreat {o ps a low? digits hd} (h : Reader.greatestBound < Nat.ofDigitChars 10 digits 0) :
    Unfinished ⟨o, ps, .bound a low? digits hd⟩ .invalidQuantifierBounds (Draft.front o ps ++ a.text)
      ('{' :: Bound.textOf low? ++ digits)
  | bound {o ps a low? digits hd} (h : Nat.ofDigitChars 10 digits 0 ≤ Reader.greatestBound) :
    Unfinished ⟨o, ps, .bound a low? digits hd⟩ .unclosedQuantifier (Draft.front o ps ++ a.text) ['{']
  | term {before o ps} : Unfinished ⟨before :: o, ps, .slot .term false⟩ .unclosedGroup (Draft.front o before) ['(']
  | atom {before o ps a} : Unfinished ⟨before :: o, ps, .atom a⟩ .unclosedGroup (Draft.front o before) ['(']

namespace Draft

variable {nesting : Nat} {z z' : Draft} {c : Char} {cause : Cause} {front shown : Text}

/-! ## What shows a fault stands in the text -/

theorem text_endTerm (o : List Derivation) (ps : Derivation) (a : Atom) :
    (⟨o, ps, .atom a⟩ : Draft).text = (⟨o, ps ++ [⟨a, none⟩], .slot .term false⟩ : Draft).text := by
  simp [Draft.text, Draft.front, Piece.text, Slot.text, Derivation.text, Phrase.text, Suffix.textOf]

theorem depth_endTerm (o : List Derivation) (ps : Derivation) (a : Atom) :
    (⟨o, ps ++ [⟨a, none⟩], .slot .term false⟩ : Draft).depth = (⟨o, ps, .atom a⟩ : Draft).depth := by
  simp [depth, Derivation.depth_append, Derivation.depth, Phrase.depth, Piece.depth]

theorem text_endItem (o : List Derivation) (ps : Derivation) (items : List Item) (l : Letter) :
    (⟨o, ps, .letter items l⟩ : Draft).text = (⟨o, ps, .slot (.item (items ++ [.member l])) false⟩ : Draft).text := by
  simp [Draft.text, Piece.text, Slot.text, Item.text]

theorem Refuses.text (h : z.Refuses nesting c cause front shown) : ∃ rest, z.text ++ [c] = front ++ shown ++ rest := by
  induction h with
  | openRange => exact ⟨[']'], by simp [Draft.text, Piece.text, Slot.text]⟩
  | @tooGreat o ps a low? digits c hd hc h => exact ⟨[c], by simp [Draft.text, Piece.text]⟩
  | endTerm hc h ih =>
    rw [text_endTerm]
    exact ih
  | endItem hc h ih =>
    rw [text_endItem]
    exact ih
  | _ => exact ⟨[], by simp [Draft.text, Draft.front, outerText, Piece.text, Slot.text, Letter.text, Bound.textOf,
      Derivation.text]⟩

theorem Unfinished.text (h : z.Unfinished cause front shown) : ∃ rest, z.text = front ++ shown ++ rest := by
  cases h with
  | escape => exact ⟨[], by simp [Draft.text, Piece.text]⟩
  | @slot o ps s hs =>
    cases s with
    | term => exact absurd rfl hs
    | item items => exact ⟨items.flatMap Item.text, by simp [Draft.text, Piece.text, Slot.text]⟩
    | rangeEnd items low =>
      exact ⟨items.flatMap Item.text ++ low.text ++ ['-'], by simp [Draft.text, Piece.text, Slot.text]⟩
  | @letter o ps items l => exact ⟨items.flatMap Item.text ++ l.text, by simp [Draft.text, Piece.text]⟩
  | tooGreat h => exact ⟨[], by simp [Draft.text, Piece.text]⟩
  | @bound o ps a low? digits hd h => exact ⟨Bound.textOf low? ++ digits, by simp [Draft.text, Piece.text]⟩
  | @term before o ps => exact ⟨Derivation.text ps, by simp [Draft.text, Draft.front, outerText, Piece.text, Slot.text]⟩
  | @atom before o ps a =>
    exact ⟨Derivation.text ps ++ a.text, by simp [Draft.text, Draft.front, outerText, Piece.text]⟩

/-! ## A draft takes a character or refuses it -/

theorem fill_or_disordered (s : Slot) (l : Letter) :
    (∃ p, s.fill l = some p) ∨ ∃ items low, s = .rangeEnd items low ∧ l.char < low.char := by
  cases s with
  | term => exact .inl ⟨_, rfl⟩
  | item items => exact .inl ⟨_, rfl⟩
  | rangeEnd items low =>
    by_cases h : low.char ≤ l.char
    · exact .inl ⟨_, by rw [Slot.fill, dif_pos h]⟩
    · exact .inr ⟨items, low, rfl, Char.not_le.1 h⟩

section
variable (nesting) (o : List Derivation) (ps : Derivation)

theorem moves_or_refuses_escaped (s : Slot) (c : Char) :
    (∃ z', Moves nesting ⟨o, ps, .slot s true⟩ c z') ∨
      ∃ cause front shown, Refuses nesting ⟨o, ps, .slot s true⟩ c cause front shown := by
  cases hc : Text.needsEscape c with
  | false => exact .inr ⟨_, _, _, .notEscapable hc⟩
  | true =>
    rcases fill_or_disordered s (.escaped c hc) with ⟨p, hp⟩ | ⟨items, low, rfl, hlt⟩
    · exact .inl ⟨_, .escaped hc hp⟩
    · exact .inr ⟨_, _, _, .escapedDisordered hc hlt⟩

theorem moves_or_refuses_term (c : Char) :
    (∃ z', Moves nesting ⟨o, ps, .slot .term false⟩ c z') ∨
      ∃ cause front shown, Refuses nesting ⟨o, ps, .slot .term false⟩ c cause front shown := by
  have hquantifier : (Token.Kind.ofChar c).startsQuantifier = true →
      ∃ cause front shown, Refuses nesting ⟨o, ps, .slot .term false⟩ c cause front shown := by
    intro hc
    cases ps with
    | nil => exact ⟨_, _, _, .noTarget hc⟩
    | cons first ps => exact ⟨_, _, _, .stacked hc⟩
  rcases role_cases c with hc | rfl | rfl | rfl | rfl | rfl | rfl | rfl | rfl | rfl | rfl | rfl
  · exact .inl ⟨_, .plain hc rfl⟩
  · by_cases hn : o.length < nesting
    · exact .inl ⟨_, .openGroup hn⟩
    · exact .inr ⟨_, _, _, .tooDeep (Nat.not_lt.1 hn)⟩
  · cases o with
    | nil => exact .inr ⟨_, _, _, .unopened⟩
    | cons before o =>
      cases ps with
      | nil => exact .inr ⟨_, _, _, .emptyGroup⟩
      | cons first body => exact .inl ⟨_, .closeGroup⟩
  · exact .inl ⟨_, .openSet⟩
  · exact .inr ⟨_, _, _, .unbalanced (.inl rfl)⟩
  · exact .inr (hquantifier rfl)
  · exact .inr ⟨_, _, _, .unbalanced (.inr rfl)⟩
  · exact .inr ⟨_, _, _, .dash⟩
  · exact .inr (hquantifier rfl)
  · exact .inr (hquantifier rfl)
  · exact .inr (hquantifier rfl)
  · exact .inl ⟨_, .backslash⟩

theorem moves_or_refuses_inSet (s : Slot) (hs : s ≠ .term) (c : Char) :
    (∃ z', Moves nesting ⟨o, ps, .slot s false⟩ c z') ∨
      ∃ cause front shown, Refuses nesting ⟨o, ps, .slot s false⟩ c cause front shown := by
  by_cases hspecial : Text.isSpecial c = true
  · by_cases hclose : c = ']'
    · subst hclose
      match s, hs with
      | .item [], _ => exact .inr ⟨_, _, _, .emptySet⟩
      | .item (first :: items), _ => exact .inl ⟨_, .closeSet⟩
      | .rangeEnd items low, _ => exact .inr ⟨_, _, _, .openRange⟩
    · exact .inr ⟨_, _, _, .special hs hspecial hclose⟩
  · by_cases hescape : c = '\\'
    · subst hescape
      exact .inl ⟨_, .backslash⟩
    · have hc : Text.needsEscape c = false := by simp [Text.needsEscape, Text.escape, hspecial, hescape]
      rcases fill_or_disordered s (.plain c hc) with ⟨p, hp⟩ | ⟨items, low, rfl, hlt⟩
      · exact .inl ⟨_, .plain hc hp⟩
      · exact .inr ⟨_, _, _, .disordered hc hlt⟩

theorem moves_or_refuses_bound (a : Atom) (low? : Option Bound) (digits : Text)
    (hd : ∀ d ∈ digits, d.isDigit = true) (c : Char) :
    (∃ z', Moves nesting ⟨o, ps, .bound a low? digits hd⟩ c z') ∨
      ∃ cause front shown, Refuses nesting ⟨o, ps, .bound a low? digits hd⟩ c cause front shown := by
  cases hc : c.isDigit with
  | true => exact .inl ⟨_, .digit hd (by simpa [or_imp, forall_and, hc] using hd)⟩
  | false =>
    by_cases hnil : digits = []
    · subst hnil
      exact .inr ⟨_, _, _, .noDigits hc⟩
    · by_cases hgreat : Reader.greatestBound < Nat.ofDigitChars 10 digits 0
      · exact .inr ⟨_, _, _, .tooGreat hc hgreat⟩
      · let b : Bound := ⟨digits, hnil, hd, Nat.not_lt.1 hgreat⟩
        by_cases hmark : c = Bound.mark low?
        · subst hmark
          match low? with
          | none => exact .inl ⟨_, .comma b⟩
          | some low =>
            by_cases hle : low.value ≤ b.value
            · exact .inl ⟨_, .closeBraces low b hle⟩
            · exact .inr ⟨_, _, _, .boundsBelow low b (Nat.not_le.1 hle)⟩
        · exact .inr ⟨_, _, _, .unmarked b hc hmark⟩

end

theorem suffix_of_startsQuantifier {c : Char} (h : (Token.Kind.ofChar c).startsQuantifier = true) :
    c = '{' ∨ ∃ q : Suffix, q.text = [c] := by
  have hc := mem_of_startsQuantifier h
  simp only [List.mem_cons, List.not_mem_nil, or_false] at hc
  rcases hc with rfl | rfl | rfl | rfl
  · exact .inr ⟨.star, rfl⟩
  · exact .inr ⟨.plus, rfl⟩
  · exact .inr ⟨.question, rfl⟩
  · exact .inl rfl

/-- **A draft takes a character or refuses it.** -/
theorem moves_or_refuses (z : Draft) (c : Char) :
    (∃ z', z.Moves nesting c z') ∨ ∃ cause front shown, z.Refuses nesting c cause front shown := by
  obtain ⟨o, ps, piece⟩ := z
  match piece with
  | .slot s true => exact moves_or_refuses_escaped nesting o ps s c
  | .slot .term false => exact moves_or_refuses_term nesting o ps c
  | .slot (.item items) false | .slot (.rangeEnd items low) false =>
    exact moves_or_refuses_inSet nesting o ps _ (by simp) c
  | .bound a low? digits hd => exact moves_or_refuses_bound nesting o ps a low? digits hd c
  | .atom a =>
    cases hc : (Token.Kind.ofChar c).startsQuantifier with
    | false =>
      rcases moves_or_refuses_term nesting o (ps ++ [⟨a, none⟩]) c with ⟨z', hz⟩ | ⟨cause, front, shown, h⟩
      · exact .inl ⟨z', .endTerm hc hz⟩
      · exact .inr ⟨cause, front, shown, .endTerm hc h⟩
    | true =>
      rcases suffix_of_startsQuantifier hc with rfl | ⟨q, hq⟩
      · exact .inl ⟨_, .openBraces⟩
      · exact .inl ⟨_, .suffix q hq⟩
  | .letter items l =>
    by_cases hc : c = '-'
    · subst hc
      exact .inl ⟨_, .dash⟩
    · rcases moves_or_refuses_inSet nesting o ps (.item (items ++ [.member l])) (by simp) c with
        ⟨z', hz⟩ | ⟨cause, front, shown, h⟩
      · exact .inl ⟨z', .endItem hc hz⟩
      · exact .inr ⟨cause, front, shown, .endItem hc h⟩

end Draft
end Grammar
end PatternWalk
