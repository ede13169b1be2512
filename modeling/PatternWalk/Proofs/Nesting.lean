import PatternWalk.Proofs.Places
import PatternWalk.Proofs.Readings
/-!
# Nesting — the groups that are open at a place of a pattern text

Which groups are open at a place is settled by the characters before it, and seen without reading a pattern: a
parenthesis counts unless it stands behind a backslash or in a set.  `Nesting` says this of a place on its own, one
character at a time.  The groups a draft has open are those that its text has open (`Reads.nesting`), so a derivation
closes what it opens (`Derivation.past?_text`).
-/
namespace PatternWalk

/-- **Where a place of a pattern text lies.** -/
structure Nesting where
  /-- How many groups are open there. -/
  groups : Nat := 0
  /-- A set is open there. -/
  inSet : Bool := false
  /-- A backslash stands before it that the next character is taken by. -/
  escaped : Bool := false
deriving DecidableEq, Repr

namespace Nesting

/-- The nesting behind one more character; nothing when the character closes a group and none is open. -/
def next? (n : Nesting) (c : Char) : Option Nesting :=
  if n.escaped then some { n with escaped := false }
  else if c = '\\' then some { n with escaped := true }
  else if n.inSet then some { n with inSet := c ≠ ']' }
  else if c = '[' then some { n with inSet := true }
  else if c = '(' then some { n with groups := n.groups + 1 }
  else if c = ')' then if n.groups = 0 then none else some { n with groups := n.groups - 1 }
  else some n

def past? (n : Nesting) (s : Text) : Option Nesting := s.foldlM next? n

@[simp] theorem past?_nil (n : Nesting) : n.past? [] = some n := rfl

@[simp] theorem past?_cons (n : Nesting) (c : Char) (s : Text) :
    n.past? (c :: s) = (n.next? c).bind (·.past? s) := by
  simp [past?, List.foldlM_cons]

theorem past?_append (n : Nesting) (s t : Text) : n.past? (s ++ t) = (n.past? s).bind (·.past? t) := by
  simp [past?, List.foldlM_append]

theorem next?_of_ordinary {n : Nesting} {c : Char} (hc : Text.needsEscape c = false) (hn : n.escaped = false) :
    n.next? c = some n := by
  have hne : c ≠ '\\' ∧ c ≠ '[' ∧ c ≠ '(' ∧ c ≠ ')' ∧ c ≠ ']' := by
    refine ⟨?_, ?_, ?_, ?_, ?_⟩ <;> (rintro rfl; exact absurd hc (by decide))
  obtain ⟨groups, inSet, escaped⟩ := n
  cases hn
  cases inSet <;> simp [Nesting.next?, hne]

end Nesting

namespace Text

/-- **An opening parenthesis opens a group**: it is the `nesting`-th of those open behind it. -/
def OpensGroup (text : Text) (offset nesting : Nat) : Prop :=
  ∃ front rest groups, text = front ++ '(' :: rest ∧ front.size = offset ∧
    ({} : Nesting).past? front = some { groups := groups } ∧ nesting = groups + 1

/-- **Two parentheses match**: one opens a group, and what stands between them leaves nothing open and closes nothing
but what it opened, so the other closes that group. -/
def Encloses (text : Text) (opened closed : Nat) : Prop :=
  ∃ front inside rest groups, text = front ++ '(' :: inside ++ ')' :: rest ∧ front.size = opened ∧
    (front ++ '(' :: inside).size = closed ∧ ({} : Nesting).past? front = some { groups := groups } ∧
    ({} : Nesting).past? inside = some {}

end Text

namespace Grammar

/-! ## What a draft has open -/

def Piece.inSet : Piece → Bool
  | slot .term _ | atom _ | bound _ _ _ _ => false
  | slot (.item _) _ | slot (.rangeEnd _ _) _ | letter _ _ => true

def Piece.isEscaped : Piece → Bool
  | slot _ escaped => escaped
  | _ => false

theorem Slot.inSet_of_fill {s : Slot} {l : Letter} {p : Piece} {b : Bool} (h : s.fill l = some p) :
    p.inSet = (Piece.slot s b).inSet ∧ p.isEscaped = false := by
  cases s with
  | term | item =>
    cases h
    exact ⟨rfl, rfl⟩
  | rangeEnd items low =>
    rw [fill] at h
    split at h
    · cases h
      exact ⟨rfl, rfl⟩
    · cases h

namespace Draft

def nesting (z : Draft) : Nesting := ⟨z.outer.length, z.piece.inSet, z.piece.isEscaped⟩

variable {limit : Nat} {z z' : Draft} {c : Char} {s : Text}

theorem Moves.next? (h : Moves limit z c z') : z.nesting.next? c = some z'.nesting := by
  induction h with
  | @plain o ps s c p hc hp =>
    obtain ⟨hset, hescaped⟩ := Slot.inSet_of_fill (b := false) hp
    rw [Nesting.next?_of_ordinary hc rfl, nesting, nesting, hset, hescaped]
    rfl
  | @escaped o ps s c p hc hp =>
    obtain ⟨hset, hescaped⟩ := Slot.inSet_of_fill (b := true) hp
    simp only [nesting, hset, hescaped]
    rfl
  | digit hd h => exact Nesting.next?_of_ordinary (ordinary_of_isDigit (h _ (by simp))) rfl
  | suffix q hq =>
    cases q with
    | star | plus | question => cases hq; rfl
    | braces low high h => simp [Suffix.text] at hq
  | closeGroup => simp [Nesting.next?, nesting, Piece.inSet, Piece.isEscaped]
  | openGroup | openSet | closeSet | dash | openBraces | comma | closeBraces => rfl
  | @backslash o ps s => cases s <;> rfl
  | endTerm hc h ih | endItem hc h ih => exact ih

theorem Reads.nesting (h : Reads limit z s z') : z.nesting.past? s = some z'.nesting := by
  induction h with
  | done => rfl
  | move h _ ih => rw [Nesting.past?_cons, h.next?, Option.bind_some, ih]

theorem HasPhrases.nesting {o : List Derivation} {ps : Derivation} (h : z.HasPhrases o ps) :
    z.nesting = { groups := o.length } := by
  obtain rfl | ⟨front, a, rfl, rfl⟩ := h <;> rfl

end Draft

/-- **A derivation closes the groups that it opens**, and no other. -/
theorem Derivation.past?_text (d : Derivation) (groups : Nat) :
    ({ groups := groups } : Nesting).past? (text d) = some { groups := groups } := by
  have hlength : (List.replicate groups ([] : Derivation)).length = groups := List.length_replicate
  obtain ⟨z, hz, hphrases⟩ : ∃ z, Draft.Reads (d.depth + groups) ⟨List.replicate groups [], [], .slot .term false⟩
      (text d) z ∧ z.HasPhrases (List.replicate groups []) d :=
    Draft.reads_derivation d (by rw [hlength]) (.inl rfl)
  have hnesting := hz.nesting
  rw [hphrases.nesting, Draft.nesting, hlength] at hnesting
  exact hnesting

end Grammar
end PatternWalk
