import PatternWalk.Diagnostic
import PatternWalk.Proofs.Fixing
/-!
# Highlighting — what a diagnostic marks, and what its change does

A diagnostic marks the span of its error and writes the suggested change over what it marks.  A span without width is
made one byte wide first.  So the change is that of the span when the span has a width or stands at the end of the
text; else it is written over the character behind the span too, and over a part of it if the character takes more
than one byte (`diagnostic_marks`).  The errors of the reader have a width, so their changes are as suggested.
-/
namespace PatternWalk

namespace Text

theorem isBoundary_size_add_one_iff {front rest : Text} :
    IsBoundary (front ++ rest) (front.size + 1) ↔ ∃ c s, rest = c :: s ∧ c.utf8Size = 1 := by
  constructor
  · rintro ⟨front', rest', htext, hsize⟩
    obtain ⟨u, rfl, rfl⟩ := exists_append_of_size_le htext (by omega)
    rw [size_append] at hsize
    cases u with
    | nil => simp at hsize
    | cons c u =>
      have hc := c.utf8Size_pos
      rw [size_cons] at hsize
      have hu : u = [] := by
        by_contra hne
        have := size_pos hne
        omega
      subst hu
      exact ⟨c, rest', rfl, by simpa using hsize⟩
  · rintro ⟨c, s, rfl, hc⟩
    exact ⟨front ++ [c], s, by simp, by simp [hc]⟩

theorem splitBytes_size : ∀ s t : Text, splitBytes (s ++ t) s.size = (s, t)
  | [], [] => rfl
  | [], c :: t => by
    have hc : ¬ c.utf8Size ≤ size [] := by
      have := c.utf8Size_pos
      rw [size_nil]
      omega
    rw [List.nil_append, splitBytes, if_neg hc]
  | c :: s, t => by
    rw [List.cons_append, splitBytes, size_cons, if_pos (Nat.le_add_right _ _), Nat.add_sub_cancel_left,
      splitBytes_size s t]

theorem splitLines_of_notMem : ∀ {s : Text}, '\n' ∉ s → splitLines s = [s]
  | [], _ => rfl
  | c :: s, h => by
    have hc : c ≠ '\n' := fun he => h (he ▸ List.mem_cons_self)
    rw [splitLines, splitLines_of_notMem (List.not_mem_of_not_mem_cons h)]
    exact if_neg hc

theorem Line.ofOffset_of_notMem {source : Text} (h : '\n' ∉ source) (offset : Nat) :
    ofOffset source offset = ⟨1, 0, source⟩ := by
  rw [ofOffset, splitLines_of_notMem h, find]

end Text

section Changes
variable (front shown rest replacement : Text)

/-- **Narrowing a patch moves its ends, not what it does.** -/
theorem Patch.exists_narrow : ∃ front' shown' rest' replacement' : Text,
    front' ++ shown' ++ rest' = front ++ shown ++ rest ∧
      front' ++ replacement' ++ rest' = front ++ replacement ++ rest ∧
      narrow ⟨⟨front.size, (front ++ shown).size⟩, replacement⟩ (front ++ shown ++ rest) =
        ⟨⟨front'.size, (front' ++ shown').size⟩, replacement'⟩ := by
  have hreplaced : replaced ⟨⟨front.size, (front ++ shown).size⟩, replacement⟩ (front ++ shown ++ rest) = shown := by
    rw [replaced, Span.textIn?, Text.slice?_append, Option.getD_some]
  cases h : insertion? shown replacement with
  | none => exact ⟨front, shown, rest, replacement, rfl, rfl, by rw [narrow, hreplaced, h]⟩
  | some found =>
    obtain ⟨kept, added⟩ := found
    obtain ⟨behind, rfl, rfl⟩ := eq_append_of_insertion? h
    refine ⟨front ++ kept, [], behind ++ rest, added, by simp, by simp, ?_⟩
    rw [narrow, hreplaced, h]
    simp

/-- **In a text of one line the line that is shown as new** is the text with the change made. -/
theorem Diagnostic.Change.changed_narrow (h : '\n' ∉ front ++ shown ++ rest) :
    (Change.of (front ++ shown ++ rest) (Patch.narrow ⟨⟨front.size, (front ++ shown).size⟩, replacement⟩
      (front ++ shown ++ rest))).changed = front ++ replacement ++ rest := by
  obtain ⟨front', shown', rest', replacement', htext, hchanged, hnarrow⟩ :=
    Patch.exists_narrow front shown rest replacement
  rw [hnarrow, ← htext, ← hchanged]
  rw [← htext] at h
  have hstart : (Text.splitBytes (front' ++ shown' ++ rest') front'.size).1 = front' := by
    rw [List.append_assoc, Text.splitBytes_size]
  have hstop : (Text.splitBytes (front' ++ shown' ++ rest') (front' ++ shown').size).2 = rest' := by
    rw [Text.splitBytes_size]
  simp only [Change.of, Text.Line.ofOffset_of_notMem h, Text.Line.upTo, Text.Line.after, Nat.sub_zero, hstart, hstop]

end Changes

namespace GrammarError

/-- **An error that stands on a stretch of its text**: what is in front of the span, in it and behind it. -/
structure StandsOn (e : GrammarError) (front shown rest : Text) : Prop where
  pattern : e.pattern = front ++ shown ++ rest
  span : e.span = ⟨front.size, (front ++ shown).size⟩

variable {e : GrammarError} {front shown rest : Text}

theorem exists_standsOn (hle : e.span.start ≤ e.span.stop) (hstart : e.pattern.IsBoundary e.span.start)
    (hstop : e.pattern.IsBoundary e.span.stop) : ∃ front shown rest, e.StandsOn front shown rest := by
  obtain ⟨front, behind, hpattern, hfront⟩ := hstart
  obtain ⟨before, rest, hpattern', hbefore⟩ := hstop
  obtain ⟨shown, rfl, rfl⟩ := Text.exists_append_of_size_le (hpattern.symm.trans hpattern') (by omega)
  exact ⟨front, shown, rest, hpattern', by rw [hfront, hbefore]⟩

namespace StandsOn

theorem markedRange_of_ne_nil (h : e.StandsOn front shown rest) (hshown : shown ≠ []) : e.markedRange = e.span := by
  have hne : ¬ e.span.start = e.span.stop := by
    have := Text.size_pos hshown
    rw [h.span, Text.size_append]
    dsimp only
    omega
  rw [markedRange, if_neg hne]

theorem markedRange_of_nil (h : e.StandsOn front [] []) : e.markedRange = e.span := by
  have heq : e.span.start = e.span.stop := by rw [h.span, List.append_nil]
  rw [markedRange, if_pos heq, h.pattern, h.span]
  simp

theorem markedRange_of_cons {c : Char} {s : Text} (h : e.StandsOn front [] (c :: s)) :
    e.markedRange = ⟨front.size, front.size + 1⟩ := by
  have heq : e.span.start = e.span.stop := by rw [h.span, List.append_nil]
  have hle : front.size + 1 ≤ (front ++ [] ++ c :: s).size := by
    have := c.utf8Size_pos
    simp only [Text.size_append, Text.size_cons, Text.size_nil]
    omega
  rw [markedRange, if_pos heq, h.pattern, h.span, Nat.min_eq_left hle]

theorem markedRange_bounds (h : e.StandsOn front shown rest) :
    e.markedRange.start = e.span.start ∧ e.span.stop ≤ e.markedRange.stop ∧ e.markedRange.stop ≤ e.pattern.size := by
  have hstop : e.span.stop ≤ e.pattern.size := by
    rw [h.span, h.pattern, Text.size_append _ rest]
    exact Nat.le_add_right _ _
  unfold markedRange
  split
  · rename_i heq
    exact ⟨rfl, by dsimp only; omega, Nat.min_le_right _ _⟩
  · exact ⟨rfl, Nat.le_refl _, hstop⟩

/-- **What is marked ends on a character**, but for a span without width before a character of several bytes. -/
theorem isBoundary_markedRange_stop_iff (h : e.StandsOn front shown rest) :
    e.pattern.IsBoundary e.markedRange.stop ↔ shown ≠ [] ∨ ∀ c ∈ rest.head?, c.utf8Size = 1 := by
  have hstop : e.pattern.IsBoundary e.span.stop := ⟨front ++ shown, rest, h.pattern, by rw [h.span]⟩
  by_cases hshown : shown = []
  · subst hshown
    cases rest with
    | nil => simpa [h.markedRange_of_nil] using hstop
    | cons c s =>
      rw [h.markedRange_of_cons, h.pattern, List.append_nil, Text.isBoundary_size_add_one_iff]
      simp
  · rw [h.markedRange_of_ne_nil hshown]
    exact iff_of_true hstop (.inl hshown)

theorem markedRange_of_ne_nil_or_eq_nil (h : e.StandsOn front shown rest) (hcase : shown ≠ [] ∨ rest = []) :
    e.markedRange = e.span := by
  by_cases hshown : shown = []
  · obtain rfl := hcase.resolve_left (fun hne => hne hshown)
    exact (hshown ▸ h).markedRange_of_nil
  · exact h.markedRange_of_ne_nil hshown

theorem applyTo?_of_markedRange (h : e.StandsOn front shown rest) (hmarked : e.markedRange = e.span)
    (replacement : Text) :
    Patch.applyTo? ⟨e.markedRange, replacement⟩ e.pattern = some (front ++ replacement ++ rest) := by
  rw [hmarked, h.span, h.pattern]
  exact Patch.applyTo?_append front shown rest replacement

theorem changed_of_markedRange (h : e.StandsOn front shown rest) (hmarked : e.markedRange = e.span)
    (hline : '\n' ∉ e.pattern) (replacement : Text) :
    (Diagnostic.Change.of e.pattern (Patch.narrow ⟨e.markedRange, replacement⟩ e.pattern)).changed =
      front ++ replacement ++ rest := by
  rw [h.pattern] at hline
  rw [hmarked, h.span, h.pattern]
  exact Diagnostic.Change.changed_narrow front shown rest replacement hline

/-- **A change to a span without width is written over the character behind it**, if that takes one byte. -/
theorem applyTo?_of_cons {c : Char} {s : Text} (h : e.StandsOn front [] (c :: s)) (replacement : Text) :
    Patch.applyTo? ⟨e.markedRange, replacement⟩ e.pattern =
      if c.utf8Size = 1 then some (front ++ replacement ++ s) else none := by
  have hpattern : e.pattern = front ++ c :: s := by simpa using h.pattern
  rw [h.markedRange_of_cons, hpattern]
  split
  · rename_i hc
    have hsize : front.size + 1 = (front ++ [c]).size := by simp [hc]
    have htext : front ++ c :: s = front ++ [c] ++ s := by simp
    rw [hsize, htext]
    exact Patch.applyTo?_append front [c] s replacement
  · rename_i hc
    have hc' : ¬ c.utf8Size ≤ 1 := by
      have := c.utf8Size_pos
      omega
    have hshown : Span.textIn? ⟨front.size, front.size + 1⟩ (front ++ c :: s) = none := by
      have hslice := Text.slice?_append_size_add front (c :: s) 0 1
      rw [Nat.add_zero] at hslice
      rw [Span.textIn?, hslice]
      simp [Text.slice?, Text.dropBytes?, Text.takeBytes?, hc']
    unfold Patch.applyTo?
    rw [hshown]
    cases Text.takeBytes? (front ++ c :: s) front.size <;> rfl

end StandsOn

theorem help?_diagnostic {fix : Fix} (hfix : fix ∈ e.fix?) (path? : Option String) :
    (e.diagnostic path?).help? = some (fix.description, ⟨e.markedRange, fix.replacement⟩) := by
  rw [diagnostic, Option.mem_def.1 hfix, Option.map_some]

/-- **What a diagnostic marks, and what its change does.**  The marked stretch begins with the span, covers it and lies
in the text; it ends on a character unless the span is empty and a character of several bytes follows.  The change is
written over what is marked: it is the suggested one exactly when the span is not empty or stands at the end of the
text, and else it takes the character behind the span away, or has no place. -/
theorem diagnostic_marks (e : GrammarError) (path? : Option String) (hle : e.span.start ≤ e.span.stop)
    (hstart : e.pattern.IsBoundary e.span.start) (hstop : e.pattern.IsBoundary e.span.stop) :
    ∃ front shown rest : Text,
      e.pattern = front ++ shown ++ rest ∧ e.span = ⟨front.size, (front ++ shown).size⟩ ∧
      (e.diagnostic path?).range.start = e.span.start ∧ e.span.stop ≤ (e.diagnostic path?).range.stop ∧
      (e.diagnostic path?).range.stop ≤ e.pattern.size ∧
      (e.pattern.IsBoundary (e.diagnostic path?).range.stop ↔ shown ≠ [] ∨ ∀ c ∈ rest.head?, c.utf8Size = 1) ∧
      ∀ fix ∈ e.fix?, ∃ patch : Patch, (e.diagnostic path?).help? = some (fix.description, patch) ∧
        patch.range = (e.diagnostic path?).range ∧
        (patch.applyTo? e.pattern = some (front ++ fix.replacement ++ rest) ↔ shown ≠ [] ∨ rest = []) ∧
        (shown = [] → ∀ c s, rest = c :: s →
          patch.applyTo? e.pattern = if c.utf8Size = 1 then some (front ++ fix.replacement ++ s) else none) := by
  obtain ⟨front, shown, rest, h⟩ := exists_standsOn hle hstart hstop
  obtain ⟨hbegin, hcovers, hinside⟩ := h.markedRange_bounds
  refine ⟨front, shown, rest, h.pattern, h.span, hbegin, hcovers, hinside, h.isBoundary_markedRange_stop_iff, ?_⟩
  intro fix hfix
  refine ⟨_, help?_diagnostic hfix path?, rfl, ⟨fun happly => ?_, fun hcase => ?_⟩, ?_⟩
  · -- written over the character behind an empty span, the change gives a text that lacks it
    by_contra hnot
    obtain ⟨hshown, hrest⟩ := not_or.1 hnot
    obtain rfl := not_not.1 hshown
    obtain ⟨c, s, rfl⟩ := List.exists_cons_of_ne_nil hrest
    rw [h.applyTo?_of_cons] at happly
    split at happly
    · exact absurd (List.append_cancel_left (Option.some.inj happly)) List.ne_cons_self
    · cases happly
  · exact h.applyTo?_of_markedRange (h.markedRange_of_ne_nil_or_eq_nil hcase) fix.replacement
  · rintro rfl c s rfl
    exact h.applyTo?_of_cons fix.replacement

/-- In `a-b` the dash is put behind a backslash. -/
theorem diagnostic_marks_dash : ∃ patch : Patch,
    (diagnostic ⟨.unescapedSpecial, ⟨1, 2⟩, ['a', '-', 'b']⟩).help? =
        some ("escape `-` to match it literally", patch) ∧
      patch.range = ⟨1, 2⟩ ∧ patch.applyTo? ['a', '-', 'b'] = some ['a', '\\', '-', 'b'] := by
  have hstart : Text.IsBoundary ['a', '-', 'b'] 1 := ⟨['a'], ['-', 'b'], rfl, by decide⟩
  have hstop : Text.IsBoundary ['a', '-', 'b'] 2 := ⟨['a', '-'], ['b'], rfl, by decide⟩
  obtain ⟨front, shown, rest, hpattern, hspan, -, -, -, -, hfix⟩ :=
    diagnostic_marks ⟨.unescapedSpecial, ⟨1, 2⟩, ['a', '-', 'b']⟩ none (by decide) hstart hstop
  dsimp only at hpattern hspan
  obtain ⟨hone, htwo⟩ : 1 = front.size ∧ 2 = (front ++ shown).size := by simpa using hspan
  have hfront : Text.takeBytes? ['a', '-', 'b'] 1 = some front := by
    rw [hpattern, hone, List.append_assoc, Text.takeBytes?_append]
  have hrest : Text.dropBytes? ['a', '-', 'b'] 2 = some rest := by rw [hpattern, htwo, Text.dropBytes?_append]
  obtain rfl : ['a'] = front := Option.some.inj hfront
  obtain rfl : ['b'] = rest := Option.some.inj hrest
  have hshown : shown ≠ [] := by
    rintro rfl
    exact absurd htwo (by decide)
  obtain ⟨patch, hhelp, hrange, happly, -⟩ := hfix ⟨['\\', '-'], "escape `-` to match it literally"⟩ (by decide +kernel)
  exact ⟨patch, hhelp, hrange.trans (by decide), happly.2 (.inl hshown)⟩

/-- **At an empty span the change takes away what follows**: in `a-b` a backslash is suggested in front of the dash and
written over it.  What is marked in front of `é` ends inside it. -/
theorem diagnostic_mends_neighbour :
    (Text.IsBoundary ['a', '-', 'b'] 1 ∧ ∃ fix patch,
      fix? ⟨.unescapedSpecial, ⟨1, 1⟩, ['a', '-', 'b']⟩ = some fix ∧
      (diagnostic ⟨.unescapedSpecial, ⟨1, 1⟩, ['a', '-', 'b']⟩).help? = some (fix.description, patch) ∧
      Patch.applyTo? ⟨⟨1, 1⟩, fix.replacement⟩ ['a', '-', 'b'] = some ['a', '\\', '-', 'b'] ∧
      patch.applyTo? ['a', '-', 'b'] = some ['a', '\\', 'b']) ∧
    Text.IsBoundary ['é'] 0 ∧ ¬ Text.IsBoundary ['é'] (diagnostic ⟨.emptyGroup, ⟨0, 0⟩, ['é']⟩).range.stop := by
  have hstart : Text.IsBoundary ['a', '-', 'b'] 1 := ⟨['a'], ['-', 'b'], rfl, by decide⟩
  have hinside : ¬ Text.IsBoundary ['é'] 1 := Text.place?_eq_none_iff.1 (by decide)
  exact ⟨⟨hstart, _, _, rfl, rfl, by decide, by decide⟩, ⟨[], ['é'], rfl, rfl⟩, hinside⟩

/-- **The line shown as changed is the suggested one**, in a text of one line, where the span is not empty or stands at
the end of the text. -/
theorem changed_diagnostic (e : GrammarError) (path? : Option String) (hle : e.span.start ≤ e.span.stop)
    (hstart : e.pattern.IsBoundary e.span.start) (hstop : e.pattern.IsBoundary e.span.stop) (hline : '\n' ∉ e.pattern) :
    ∃ front shown rest : Text,
      e.pattern = front ++ shown ++ rest ∧ e.span = ⟨front.size, (front ++ shown).size⟩ ∧
      ∀ fix ∈ e.fix?, ∃ patch : Patch, (e.diagnostic path?).help? = some (fix.description, patch) ∧
        (shown ≠ [] ∨ rest = [] →
          (Diagnostic.Change.of e.pattern (patch.narrow e.pattern)).changed = front ++ fix.replacement ++ rest) := by
  obtain ⟨front, shown, rest, h⟩ := exists_standsOn hle hstart hstop
  refine ⟨front, shown, rest, h.pattern, h.span, fun fix hfix => ⟨_, help?_diagnostic hfix path?, fun hcase => ?_⟩⟩
  exact h.changed_of_markedRange (h.markedRange_of_ne_nil_or_eq_nil hcase) hline fix.replacement

end GrammarError

/-- **The errors of the reader are marked and mended as they are**: what is marked is the span, and the change is the
suggested one. -/
theorem Pattern.diagnostic_of_read {text : Text} {limits : Limits} {e : GrammarError}
    (h : Pattern.read text limits = .error e) (path? : Option String) :
    (e.diagnostic path?).range = e.span ∧ ∃ front shown rest : Text,
      text = front ++ shown ++ rest ∧ e.span = ⟨front.size, (front ++ shown).size⟩ ∧
      ∀ fix ∈ e.fix?, ∃ patch : Patch, (e.diagnostic path?).help? = some (fix.description, patch) ∧
        patch.applyTo? text = some (front ++ fix.replacement ++ rest) := by
  obtain ⟨cause, front, shown, hfails, rfl⟩ := Grammar.read_eq_error_iff.1 h
  obtain ⟨rest, htext⟩ := hfails.text_eq
  have hstands : GrammarError.StandsOn ⟨cause, ⟨front.size, (front ++ shown).size⟩, text⟩ front shown rest :=
    ⟨htext, rfl⟩
  have hmarked := hstands.markedRange_of_ne_nil hfails.shows.ne_nil
  refine ⟨hmarked, front, shown, rest, htext, rfl, ?_⟩
  intro fix hfix
  exact ⟨_, GrammarError.help?_diagnostic hfix path?, hstands.applyTo?_of_markedRange hmarked fix.replacement⟩

end PatternWalk
