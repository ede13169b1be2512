import PatternWalk.Proofs.Drafts
/-!
# Moves — what the next character does to a draft

`Draft.Moves` lists the ways in which a draft goes on, one rule for each character that may stand somewhere.  A move
writes its character down and keeps the nesting within its limit.
-/
namespace PatternWalk
namespace Grammar

/-- **A letter fills a slot**, unless it ends a range that is out of order. -/
def Slot.fill : Slot → Letter → Option Piece
  | term, l => some (.atom (.letter l))
  | item items, l => some (.letter items l)
  | rangeEnd items low, l =>
    if h : low.char ≤ l.char then some (.slot (.item (items ++ [.range low l h])) false) else none

theorem Slot.text_of_fill {s : Slot} {l : Letter} {p : Piece} (h : s.fill l = some p) : p.text = s.text ++ l.text := by
  cases s with
  | term => cases h; rfl
  | item items => cases h; rfl
  | rangeEnd items low =>
    rw [fill] at h
    split at h
    · cases h
      simp [Piece.text, Slot.text, Item.text, List.append_assoc]
    · cases h

theorem Slot.depth_of_fill {s : Slot} {l : Letter} {p : Piece} (h : s.fill l = some p) : p.depth = 0 := by
  cases s with
  | term => cases h; rfl
  | item items => cases h; rfl
  | rangeEnd items low =>
    rw [fill] at h
    split at h
    · cases h; rfl
    · cases h

/-- **What a draft does with the next character**, where at most `nesting` groups may be open. -/
inductive Draft.Moves (nesting : Nat) : Draft → Char → Draft → Prop
  /-- An ordinary character is a letter. -/
  | plain {o ps s c p} (hc : Text.needsEscape c = false) (hp : s.fill (.plain c hc) = some p) :
    Moves nesting ⟨o, ps, .slot s false⟩ c ⟨o, ps, p⟩
  | backslash {o ps s} : Moves nesting ⟨o, ps, .slot s false⟩ '\\' ⟨o, ps, .slot s true⟩
  /-- A character that needs a backslash is a letter behind one. -/
  | escaped {o ps s c p} (hc : Text.needsEscape c = true) (hp : s.fill (.escaped c hc) = some p) :
    Moves nesting ⟨o, ps, .slot s true⟩ c ⟨o, ps, p⟩
  | openGroup {o ps} (h : o.length < nesting) :
    Moves nesting ⟨o, ps, .slot .term false⟩ '(' ⟨ps :: o, [], .slot .term false⟩
  | closeGroup {o before first body} :
    Moves nesting ⟨before :: o, first :: body, .slot .term false⟩ ')' ⟨o, before, .atom (.group first body)⟩
  | openSet {o ps} : Moves nesting ⟨o, ps, .slot .term false⟩ '[' ⟨o, ps, .slot (.item []) false⟩
  | closeSet {o ps first items} :
    Moves nesting ⟨o, ps, .slot (.item (first :: items)) false⟩ ']' ⟨o, ps, .atom (.set first items)⟩
  | dash {o ps items l} : Moves nesting ⟨o, ps, .letter items l⟩ '-' ⟨o, ps, .slot (.rangeEnd items l) false⟩
  /-- A suffix of one character. -/
  | suffix {o ps a c} (q : Suffix) (hq : q.text = [c]) :
    Moves nesting ⟨o, ps, .atom a⟩ c ⟨o, ps ++ [⟨a, some q⟩], .slot .term false⟩
  | openBraces {o ps a} : Moves nesting ⟨o, ps, .atom a⟩ '{' ⟨o, ps, .bound a none [] (by simp)⟩
  | digit {o ps a low? digits c} (hd) (h : ∀ d ∈ digits ++ [c], d.isDigit = true) :
    Moves nesting ⟨o, ps, .bound a low? digits hd⟩ c ⟨o, ps, .bound a low? (digits ++ [c]) h⟩
  | comma {o ps a} (low : Bound) :
    Moves nesting ⟨o, ps, .bound a none low.digits low.decimal⟩ ',' ⟨o, ps, .bound a (some low) [] (by simp)⟩
  | closeBraces {o ps a} (low high : Bound) (h : low.value ≤ high.value) :
    Moves nesting ⟨o, ps, .bound a (some low) high.digits high.decimal⟩ '}'
      ⟨o, ps ++ [⟨a, some (.braces low high h)⟩], .slot .term false⟩
  /-- Anything but a suffix ends the term. -/
  | endTerm {o ps a c z} (hc : (Token.Kind.ofChar c).startsQuantifier = false)
    (h : Moves nesting ⟨o, ps ++ [⟨a, none⟩], .slot .term false⟩ c z) : Moves nesting ⟨o, ps, .atom a⟩ c z
  /-- Anything but a dash ends the item. -/
  | endItem {o ps items l c z} (hc : c ≠ '-')
    (h : Moves nesting ⟨o, ps, .slot (.item (items ++ [.member l])) false⟩ c z) :
    Moves nesting ⟨o, ps, .letter items l⟩ c z

namespace Draft

variable {nesting : Nat} {z z' : Draft} {c : Char}

theorem Moves.text (h : Moves nesting z c z') : z'.text = z.text ++ [c] := by
  induction h with
  | plain hc hp =>
    rw [Draft.text, Slot.text_of_fill hp]
    simp [Draft.text, front, Letter.text, Piece.text]
  | escaped hc hp =>
    rw [Draft.text, Slot.text_of_fill hp]
    simp [Draft.text, front, Letter.text, Piece.text]
  | suffix q hq =>
    simp [Draft.text, front, Piece.text, Slot.text, Derivation.text, Phrase.text, Suffix.textOf, hq]
  | closeBraces low high h =>
    simp [Draft.text, front, Piece.text, Slot.text, Derivation.text, Phrase.text, Suffix.textOf, Suffix.text,
      Bound.textOf]
  | closeGroup => simp [Draft.text, front, outerText, Piece.text, Slot.text, Derivation.text, Atom.text]
  | closeSet => simp [Draft.text, front, Piece.text, Slot.text, Atom.text]
  | endTerm hc h ih =>
    rw [ih]
    simp [Draft.text, front, Piece.text, Slot.text, Derivation.text, Phrase.text, Suffix.textOf]
  | endItem hc h ih =>
    rw [ih]
    simp [Draft.text, front, Piece.text, Slot.text, Item.text]
  | _ => simp [Draft.text, front, outerText, Piece.text, Slot.text, Derivation.text, Bound.textOf]

theorem Moves.depth_le (h : Moves nesting z c z') (hz : z.depth ≤ nesting) : z'.depth ≤ nesting := by
  induction h with
  | plain hc hp | escaped hc hp =>
    rw [depth, Slot.depth_of_fill hp]
    exact hz
  | openGroup h =>
    simp only [depth, outerDepth, Derivation.depth, Piece.depth, List.length_cons] at hz ⊢
    omega
  | closeGroup =>
    simp only [depth, outerDepth, Derivation.depth, Piece.depth, Atom.depth, List.length_cons] at hz ⊢
    omega
  | endTerm hc h ih | endItem hc h ih =>
    apply ih
    simp only [depth, Derivation.depth_append, Derivation.depth, Phrase.depth, Piece.depth] at hz ⊢
    omega
  | _ =>
    simp only [depth, Derivation.depth_append, Derivation.depth, Phrase.depth, Piece.depth, Atom.depth] at hz ⊢
    omega

end Draft
end Grammar
end PatternWalk
