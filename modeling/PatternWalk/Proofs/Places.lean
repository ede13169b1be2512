import PatternWalk.Text
/-!
# Places — going forward in a text

A place passes over a word to get to a later place of the same text.  What matches at a place is stated this way
throughout: by the word that was passed over and the place behind it.
-/
namespace PatternWalk

namespace Place

/-- **From one place over a word to another**: the word stands at the first, and the second is behind it. -/
structure Passes (here : Place) (word : Text) (there : Place) : Prop where
  rest_eq : here.rest = word ++ there.rest
  offset_eq : there.offset = here.offset + word.size

variable {here there : Place} {word : Text}

theorem Passes.refl (here : Place) : here.Passes [] here := ⟨rfl, rfl⟩

theorem Passes.trans {beyond : Place} {word' : Text} (h : here.Passes word there) (h' : there.Passes word' beyond) :
    here.Passes (word ++ word') beyond := by
  refine ⟨?_, ?_⟩
  · rw [h.rest_eq, h'.rest_eq, List.append_assoc]
  · rw [h'.offset_eq, h.offset_eq, Text.size_append, Nat.add_assoc]

theorem Passes.textTo (h : here.Passes word there) : here.textTo there = word := by
  unfold Place.textTo
  rw [h.rest_eq, List.length_append, Nat.add_sub_cancel, List.take_left]

theorem Passes.length_eq (h : here.Passes word there) : here.rest.length = word.length + there.rest.length := by
  rw [h.rest_eq, List.length_append]

theorem Passes.eq_of_not_lt (h : here.Passes word there) (hlt : ¬there.rest.length < here.rest.length) :
    word = [] ∧ there = here := by
  have hlength := h.length_eq
  obtain rfl : word = [] := List.eq_nil_of_length_eq_zero (by omega)
  obtain ⟨offset, rest⟩ := here
  obtain ⟨offset', rest'⟩ := there
  obtain ⟨hrest, hoffset⟩ := h
  simp_all

theorem Passes.ne_nil (h : here.Passes word there) (hlt : there.rest.length < here.rest.length) : word ≠ [] := by
  rintro rfl
  have hlength := h.length_eq
  rw [List.length_nil] at hlength
  omega

theorem Passes.offset_lt (h : here.Passes word there) (hlt : there.rest.length < here.rest.length) :
    here.offset < there.offset := by
  cases word with
  | nil => exact absurd rfl (h.ne_nil hlt)
  | cons c word =>
    have := c.utf8Size_pos
    rw [h.offset_eq, Text.size_cons]
    omega

theorem Passes.offset_le (h : here.Passes word there) : here.offset ≤ there.offset := by
  rw [h.offset_eq]
  exact Nat.le_add_right _ _

def Reaches (here there : Place) : Prop := ∃ word, here.Passes word there

theorem Reaches.refl (here : Place) : here.Reaches here := ⟨[], .refl here⟩

theorem Reaches.trans {beyond : Place} (h : here.Reaches there) (h' : there.Reaches beyond) : here.Reaches beyond := by
  obtain ⟨word, hword⟩ := h
  obtain ⟨word', hword'⟩ := h'
  exact ⟨word ++ word', hword.trans hword'⟩

theorem Reaches.offset_le (h : here.Reaches there) : here.offset ≤ there.offset := by
  obtain ⟨word, hword⟩ := h
  exact hword.offset_le

theorem pastWord?_eq_some_iff : here.pastWord? word = some there ↔ here.Passes word there := by
  unfold pastWord?
  constructor
  · intro h
    obtain ⟨rest, hrest, rfl⟩ := Option.map_eq_some_iff.1 h
    exact ⟨Text.after?_eq_some_iff.1 hrest, rfl⟩
  · intro h
    rw [Text.after?_eq_some_iff.2 h.rest_eq, Option.map_some, ← h.offset_eq]

theorem pastChar?_eq_some_iff {accepts : Char → Bool} :
    here.pastChar? accepts = some there ↔ ∃ c, accepts c = true ∧ here.Passes [c] there := by
  obtain ⟨offset, rest⟩ := here
  unfold pastChar?
  constructor
  · intro h
    cases rest with
    | nil => cases h
    | cons c rest =>
      simp only at h
      split at h
      · rename_i hc
        cases h
        exact ⟨c, hc, rfl, rfl⟩
      · cases h
  · rintro ⟨c, hc, hrest, hoffset⟩
    obtain ⟨offset', rest'⟩ := there
    cases hrest
    simp_all

end Place

theorem Text.length_le_size : ∀ s : Text, s.length ≤ s.size
  | [] => Nat.le_refl 0
  | c :: s => by
    have := c.utf8Size_pos
    have := length_le_size s
    rw [List.length_cons, Text.size_cons]
    omega

theorem Text.size_pos {s : Text} (h : s ≠ []) : 0 < s.size := by
  cases s with
  | nil => exact absurd rfl h
  | cons c s =>
    have := c.utf8Size_pos
    rw [Text.size_cons]
    omega

theorem Text.exists_append_of_size_le {s s' t t' : Text} (h : s ++ t = s' ++ t') (hle : s.size ≤ s'.size) :
    ∃ u, s' = s ++ u ∧ t = u ++ t' := by
  rcases List.append_eq_append_iff.1 h with ⟨u, rfl, rfl⟩ | ⟨u, rfl, rfl⟩
  · exact ⟨u, rfl, rfl⟩
  · by_cases hu : u = []
    · subst hu
      exact ⟨[], by simp, rfl⟩
    · have := Text.size_pos hu
      rw [Text.size_append] at hle
      omega

theorem Text.dropBytes?_append_size_add : ∀ (front rest : Text) (n : Nat),
    dropBytes? (front ++ rest) (front.size + n) = dropBytes? rest n
  | [], rest, n => by rw [List.nil_append, size_nil, Nat.zero_add]
  | c :: front, rest, n => by
    have hc := c.utf8Size_pos
    have hsize : size (c :: front) + n = c.utf8Size + (size front + n) := by rw [size_cons, Nat.add_assoc]
    obtain ⟨k, hk⟩ : ∃ k, c.utf8Size + (size front + n) = k + 1 := ⟨c.utf8Size + (size front + n) - 1, by omega⟩
    rw [hsize, List.cons_append, hk, dropBytes?, if_pos (by omega), ← hk, Nat.add_sub_cancel_left]
    exact dropBytes?_append_size_add front rest n

theorem Text.slice?_append_size_add (front rest : Text) (start stop : Nat) :
    slice? (front ++ rest) (front.size + start) (front.size + stop) = slice? rest start stop := by
  unfold slice?
  rw [dropBytes?_append_size_add, Nat.add_sub_add_left]
  by_cases h : start ≤ stop
  · rw [if_pos h, if_pos (Nat.add_le_add_left h _)]
  · rw [if_neg h, if_neg (by omega)]

theorem Text.slice?_append (front s rest : Text) :
    slice? (front ++ s ++ rest) front.size (front ++ s).size = some s := by
  unfold slice?
  rw [size_append, if_pos (Nat.le_add_right _ _), List.append_assoc, dropBytes?_append, Option.bind_some,
    Nat.add_sub_cancel_left, takeBytes?_append]

theorem Text.place?_eq_some_iff {source : Text} {offset : Nat} {here : Place} :
    source.place? offset = some here ↔ here.offset = offset ∧ ∃ front, (Place.start source).Passes front here := by
  unfold Text.place?
  constructor
  · intro h
    obtain ⟨rest, hrest, rfl⟩ := Option.map_eq_some_iff.1 h
    obtain ⟨front, hsource, hsize⟩ := Text.eq_append_of_dropBytes? hrest
    exact ⟨rfl, front, hsource, by simp [Place.start, hsize]⟩
  · rintro ⟨rfl, front, hrest, hoffset⟩
    have hsource : source = front ++ here.rest := hrest
    have hsize : here.offset = front.size := by simpa [Place.start] using hoffset
    rw [hsource, hsize, Text.dropBytes?_append, Option.map_some, ← hsize]

theorem Text.place?_zero (source : Text) : source.place? 0 = some ⟨0, source⟩ := by
  rw [place?, dropBytes?]
  rfl

/-- From a place on there are no more characters than bytes are left. -/
theorem Text.offset_add_length_rest_le {source : Text} {offset : Nat} {here : Place}
    (h : source.place? offset = some here) : offset + here.rest.length ≤ source.size := by
  obtain ⟨hstart, front, hrest, hoffset⟩ := Text.place?_eq_some_iff.1 h
  have hsource : source = front ++ here.rest := hrest
  have hsize : here.offset = front.size := by simpa [Place.start] using hoffset
  have hlength := here.rest.length_le_size
  rw [hsource, Text.size_append]
  omega

theorem Text.length_rest_le {source : Text} {offset : Nat} {here : Place} (h : source.place? offset = some here) :
    here.rest.length ≤ source.size :=
  Nat.le_trans (Nat.le_add_left _ _) (Text.offset_add_length_rest_le h)

/-! ## Places of one text -/

/-- **A boundary of a text**: the size of an initial part of it.  A character begins there, or the text ends. -/
def Text.IsBoundary (source : Text) (offset : Nat) : Prop :=
  ∃ front rest : Text, source = front ++ rest ∧ front.size = offset

section
variable {source word : Text} {offset : Nat} {here there : Place}

theorem Text.IsBoundary.le (h : source.IsBoundary offset) : offset ≤ source.size := by
  obtain ⟨front, rest, rfl, rfl⟩ := h
  rw [size_append]
  exact Nat.le_add_right _ _

theorem Text.isBoundary_iff : source.IsBoundary offset ↔ ∃ here, source.place? offset = some here := by
  constructor
  · rintro ⟨front, rest, rfl, rfl⟩
    exact ⟨⟨front.size, rest⟩, place?_eq_some_iff.2 ⟨rfl, front, rfl, by simp [Place.start]⟩⟩
  · rintro ⟨here, h⟩
    obtain ⟨rfl, front, hrest, hoffset⟩ := place?_eq_some_iff.1 h
    exact ⟨front, here.rest, hrest, by simp [hoffset, Place.start]⟩

theorem Text.place?_eq_none_iff : source.place? offset = none ↔ ¬source.IsBoundary offset := by
  rw [isBoundary_iff, ← Option.isSome_iff_exists, Option.not_isSome_iff_eq_none]

theorem Place.Passes.place? (h : here.Passes word there) (hhere : source.place? here.offset = some here) :
    source.place? there.offset = some there := by
  obtain ⟨-, front, hfront⟩ := Text.place?_eq_some_iff.1 hhere
  exact Text.place?_eq_some_iff.2 ⟨rfl, front ++ word, hfront.trans h⟩

theorem Place.Reaches.place? (h : here.Reaches there) (hhere : source.place? here.offset = some here) :
    source.place? there.offset = some there := by
  obtain ⟨word, hword⟩ := h
  exact hword.place? hhere

theorem Text.isBoundary_of_place? (h : source.place? here.offset = some here) : source.IsBoundary here.offset :=
  isBoundary_iff.2 ⟨here, h⟩

theorem Text.dropBytes?_of_place? (h : source.place? here.offset = some here) :
    source.dropBytes? here.offset = some here.rest := by
  obtain ⟨rest, hrest, hhere⟩ := Option.map_eq_some_iff.1 h
  rw [hrest, ← hhere]

theorem Text.slice?_of_passes (hhere : source.place? here.offset = some here) (h : here.Passes word there) :
    source.slice? here.offset there.offset = some word := by
  unfold Text.slice?
  rw [if_pos h.offset_le, dropBytes?_of_place? hhere, Option.bind_some, h.rest_eq, h.offset_eq,
    Nat.add_sub_cancel_left]
  exact takeBytes?_append word there.rest

end

/-- **Spans in a row**: none is empty, the first begins at `start`, each other where the one before it ends, and the
last ends at `stop`. -/
def Span.Tile : List Span → (start stop : Nat) → Prop
  | [], start, stop => start = stop
  | a :: spans, start, stop => a.start = start ∧ start < a.stop ∧ Tile spans a.stop stop

end PatternWalk
