import PatternWalk.Text
/-!
# Patch — a change to a text

A patch writes a text in place of a stretch of another.  Where the new text only puts something into the old one, the
patch can be narrowed to that.  White space is what the Unicode character database gives that property.
-/
namespace PatternWalk

namespace Text

def blankRanges : List (Nat × Nat) :=
  [(0x9, 0xd), (0x20, 0x20), (0x85, 0x85), (0xa0, 0xa0), (0x1680, 0x1680), (0x2000, 0x200a), (0x2028, 0x2029),
   (0x202f, 0x202f), (0x205f, 0x205f), (0x3000, 0x3000)]

def isBlank (c : Char) : Bool := inRanges blankRanges c

def leadingBlanks (s : Text) : Text := s.takeWhile isBlank

def trimmed (s : Text) : Text := ((s.dropWhile isBlank).reverse.dropWhile isBlank).reverse

def commonStart : Text → Text → Text
  | c :: s, d :: t => if c = d then c :: commonStart s t else []
  | _, _ => []

theorem exists_eq_commonStart_append : ∀ s t : Text,
    (∃ u, s = s.commonStart t ++ u) ∧ ∃ v, t = s.commonStart t ++ v
  | [], t => ⟨⟨[], rfl⟩, t, rfl⟩
  | c :: s, [] => ⟨⟨c :: s, rfl⟩, [], rfl⟩
  | c :: s, d :: t => by
    unfold commonStart
    split
    · rename_i h
      obtain ⟨⟨u, hu⟩, v, hv⟩ := exists_eq_commonStart_append s t
      exact ⟨⟨u, congrArg (c :: ·) hu⟩, v, by rw [h]; exact congrArg (d :: ·) hv⟩
    · exact ⟨⟨c :: s, rfl⟩, d :: t, rfl⟩

end Text

structure Patch where
  range : Span
  replacement : Text
deriving DecidableEq, Repr

namespace Patch

/-- The text after the change; nothing when the range does not lie on the characters of the text. -/
def applyTo? (patch : Patch) (source : Text) : Option Text := do
  let front ← source.takeBytes? patch.range.start
  let _ ← patch.range.textIn? source
  let rest ← source.dropBytes? patch.range.stop
  return front ++ patch.replacement ++ rest

def replaced (patch : Patch) (source : Text) : Text := (patch.range.textIn? source).getD []

/-- **What is put into an old text** to make a new one, and the part of the old text in front of it, when the old text
is kept whole.  Of several places it is behind the old text, else in front of it, else as far back as can be. -/
def insertion? (old new : Text) : Option (Text × Text) :=
  if old.isPrefixOf new then some (old, new.drop old.length)
  else if old.isSuffixOf new then some ([], new.take (new.length - old.length))
  else
    let front := Text.commonStart old new
    let behind := old.drop front.length
    if behind.isSuffixOf (new.drop front.length) then
      some (front, (new.drop front.length).take (new.length - old.length))
    else none

theorem eq_append_of_insertion? {old new front added : Text} (h : insertion? old new = some (front, added)) :
    ∃ rest, old = front ++ rest ∧ new = front ++ added ++ rest := by
  unfold insertion? at h
  split at h
  · rename_i hold
    obtain ⟨t, rfl⟩ := List.isPrefixOf_iff_prefix.1 hold
    simp only [List.drop_left, Option.some.injEq, Prod.mk.injEq] at h
    obtain ⟨rfl, rfl⟩ := h
    exact ⟨[], by simp, by simp⟩
  · split at h
    · rename_i hold
      obtain ⟨t, rfl⟩ := List.isSuffixOf_iff_suffix.1 hold
      simp only [Option.some.injEq, Prod.mk.injEq, List.length_append, Nat.add_sub_cancel, List.take_left] at h
      obtain ⟨rfl, rfl⟩ := h
      exact ⟨old, rfl, rfl⟩
    · obtain ⟨⟨u, hu⟩, v, hv⟩ := Text.exists_eq_commonStart_append old new
      generalize Text.commonStart old new = start at h hu hv
      subst hu hv
      simp only [List.drop_left, List.length_append, Nat.add_sub_add_left] at h
      split at h
      · rename_i hrest
        obtain ⟨w, rfl⟩ := List.isSuffixOf_iff_suffix.1 hrest
        simp only [Option.some.injEq, Prod.mk.injEq, List.length_append, Nat.add_sub_cancel, List.take_left] at h
        obtain ⟨rfl, rfl⟩ := h
        exact ⟨u, rfl, by simp⟩
      · cases h

/-- **The patch as an insertion**, if it keeps what it is written over; else as it is. -/
def narrow (patch : Patch) (source : Text) : Patch :=
  match insertion? (patch.replaced source) patch.replacement with
  | some (front, added) =>
    let place := patch.range.start + front.size
    ⟨⟨place, place⟩, added⟩
  | none => patch

def takesAway (patch : Patch) (source : Text) : Bool :=
  (insertion? (patch.replaced source).trimmed patch.replacement.trimmed).isNone

def isAddition (patch : Patch) (source : Text) : Bool := (patch.replaced source).trimmed.isEmpty

end Patch

end PatternWalk
