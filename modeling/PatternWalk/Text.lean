/-!
# Text — characters, and the bytes they take

A text is its list of characters.  Places in it are counted in bytes of its UTF-8 form, so every offset that leaves
this library is a byte offset, and an offset inside a character is no place at all.  A span is a stretch of a text, by
the byte offsets of its ends.
-/
namespace PatternWalk

/-- A text: the list of its characters. -/
abbrev Text := List Char

namespace Text

/-- **The size of a text**, in bytes of its UTF-8 form. -/
def size : Text → Nat
  | [] => 0
  | c :: s => c.utf8Size + size s

/-- What is left of a text past its first `n` bytes; nothing when they end inside a character or past the text. -/
def dropBytes? : Text → Nat → Option Text
  | s, 0 => some s
  | [], _ + 1 => none
  | c :: s, n + 1 => if c.utf8Size ≤ n + 1 then dropBytes? s (n + 1 - c.utf8Size) else none

def takeBytes? : Text → Nat → Option Text
  | _, 0 => some []
  | [], _ + 1 => none
  | c :: s, n + 1 =>
    if c.utf8Size ≤ n + 1 then (takeBytes? s (n + 1 - c.utf8Size)).map (c :: ·) else none

/-- **The text between two byte offsets**; nothing when they are out of order, out of range or inside a character. -/
def slice? (s : Text) (start stop : Nat) : Option Text :=
  if start ≤ stop then (s.dropBytes? start).bind fun rest => takeBytes? rest (stop - start) else none

def after? : (word : Text) → Text → Option Text
  | [], s => some s
  | _ :: _, [] => none
  | w :: word, c :: s => if w = c then after? word s else none

@[simp] theorem size_nil : size [] = 0 := rfl

@[simp] theorem size_cons (c : Char) (s : Text) : size (c :: s) = c.utf8Size + size s := rfl

@[simp] theorem size_append : ∀ s t : Text, size (s ++ t) = size s + size t
  | [], t => by simp
  | c :: s, t => by simp [size_append s t, Nat.add_assoc]

theorem dropBytes?_append : ∀ s t : Text, dropBytes? (s ++ t) s.size = some t
  | [], t => by cases t <;> rfl
  | c :: s, t => by
    have hc := c.utf8Size_pos
    obtain ⟨n, hn⟩ : ∃ n, c.utf8Size + size s = n + 1 := ⟨c.utf8Size + size s - 1, by omega⟩
    rw [List.cons_append, size_cons, hn, dropBytes?, if_pos (by omega), ← hn, Nat.add_sub_cancel_left]
    exact dropBytes?_append s t

theorem takeBytes?_append : ∀ s t : Text, takeBytes? (s ++ t) s.size = some s
  | [], t => by cases t <;> rfl
  | c :: s, t => by
    have hc := c.utf8Size_pos
    obtain ⟨n, hn⟩ : ∃ n, c.utf8Size + size s = n + 1 := ⟨c.utf8Size + size s - 1, by omega⟩
    rw [List.cons_append, size_cons, hn, takeBytes?, if_pos (by omega), ← hn, Nat.add_sub_cancel_left,
      takeBytes?_append s t]
    rfl

theorem eq_append_of_dropBytes? : ∀ {s : Text} {n : Nat} {rest : Text}, dropBytes? s n = some rest →
    ∃ front, s = front ++ rest ∧ size front = n
  | s, 0, rest, h => by
    cases s <;> (simp only [dropBytes?, Option.some.injEq] at h; exact ⟨[], by simp [h], rfl⟩)
  | [], _ + 1, _, h => by simp [dropBytes?] at h
  | c :: s, n + 1, rest, h => by
    rw [dropBytes?] at h
    split at h
    · rename_i hc
      obtain ⟨front, hs, hn⟩ := eq_append_of_dropBytes? h
      exact ⟨c :: front, by rw [hs, List.cons_append], by rw [size_cons, hn]; omega⟩
    · simp at h

theorem after?_eq_some_iff : ∀ {word s rest : Text}, after? word s = some rest ↔ s = word ++ rest
  | [], s, rest => by simp [after?]
  | w :: word, [], rest => by simp [after?]
  | w :: word, c :: s, rest => by
    rw [after?, List.cons_append, List.cons.injEq]
    split
    · rename_i h
      rw [after?_eq_some_iff]
      simp [h]
    · rename_i h
      simp [Ne.symm h]

def inRanges (ranges : List (Nat × Nat)) (c : Char) : Bool :=
  ranges.any fun r => r.1 ≤ c.toNat && c.toNat ≤ r.2

end Text

/-- **A place in a text**: the bytes before it, counted, and the text from it on. -/
structure Place where
  /-- The byte offset of the place. -/
  offset : Nat
  /-- The text from the place on. -/
  rest : Text
deriving DecidableEq, Repr

namespace Place

def start (source : Text) : Place := ⟨0, source⟩

def textTo (here there : Place) : Text := here.rest.take (here.rest.length - there.rest.length)

def pastWord? (here : Place) (word : Text) : Option Place :=
  (Text.after? word here.rest).map fun rest => ⟨here.offset + word.size, rest⟩

def pastChar? (here : Place) (accepts : Char → Bool) : Option Place :=
  match here.rest with
  | [] => none
  | c :: rest => if accepts c then some ⟨here.offset + c.utf8Size, rest⟩ else none

end Place

/-- **The place at a byte offset**: none past the end of the text, and none inside a character. -/
def Text.place? (source : Text) (offset : Nat) : Option Place :=
  (source.dropBytes? offset).map fun rest => ⟨offset, rest⟩

/-- **A span**: from the byte at `start` up to, and without, the byte at `stop`. -/
structure Span where
  start : Nat
  stop : Nat
deriving DecidableEq, Repr, Inhabited

namespace Span

def size (a : Span) : Nat := a.stop - a.start

def isEmpty (a : Span) : Bool := a.start == a.stop

def cover (a b : Span) : Span := ⟨min a.start b.start, max a.stop b.stop⟩

def shift (n : Nat) (a : Span) : Span := ⟨a.start + n, a.stop + n⟩

def textIn? (a : Span) (source : Text) : Option Text := source.slice? a.start a.stop

end Span

end PatternWalk
