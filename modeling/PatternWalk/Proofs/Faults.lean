import PatternWalk.Proofs.Places
import PatternWalk.Proofs.Readings
/-!
# Faults — the texts that are not read, and what their errors show

A text fails where a reading of a beginning of it refuses the next character, or where a reading of all of it is
unfinished.  This is all that can go wrong (`run_eq_error_iff`), and each time the part of the text that the fault shows
is a violation of just the rule it names (`evidence_of_read`).
-/
namespace PatternWalk

/-! ## What an error shows -/

open Grammar in
/-- **The text violates the rule that the cause names.** -/
def Cause.ShownBy : Cause → Text → Prop
  | unclosedGroup, s | recursionLimitExceeded, s => s = ['(']
  | unclosedCharSet, s => s = ['[']
  | unclosedQuantifier, s => s = ['{']
  | unbalancedClose, s => ∃ c ∈ [')', ']', '}'], s = [c]
  | quantifierWithoutTarget, s | stackedQuantifier, s => ∃ c ∈ ['*', '+', '?', '{'], s = [c]
  | unescapedSpecial, s => ∃ c ∈ Text.specials, s = [c]
  | invalidEscape, s => ∃ c, c ∉ Text.specials ∧ c ≠ '\\' ∧ s = ['\\', c]
  | trailingEscape, s => s = ['\\']
  | emptyGroup, s => s = ['(', ')']
  | emptyCharSet, s => s = ['[', ']']
  | invalidRange, s => ∃ low high : Letter, high.char < low.char ∧ s = low.text ++ '-' :: high.text
  | invalidQuantifierBounds, s => s.head? = some '{'
  | quantifierMinExceedsMax, s =>
    ∃ low high : Bound, high.value < low.value ∧ s = '{' :: low.digits ++ ',' :: high.digits ++ ['}']

theorem Cause.ShownBy.ne_nil {cause : Cause} {shown : Text} (h : cause.ShownBy shown) : shown ≠ [] := by
  rintro rfl
  cases cause <;> simp [Cause.ShownBy] at h

namespace Grammar

variable {nesting : Nat} {text : Text} {cause : Cause} {front shown : Text}

/-! ## What a fault shows -/

theorem Draft.Refuses.shows {z : Draft} {c : Char} (h : z.Refuses nesting c cause front shown) :
    cause.ShownBy shown := by
  induction h with
  | tooDeep | emptyGroup | emptySet => rfl
  | unopened => exact ⟨')', by simp, rfl⟩
  | @unbalanced o ps c hc => exact ⟨c, by rcases hc with rfl | rfl <;> simp, rfl⟩
  | dash | openRange => exact ⟨'-', by decide, rfl⟩
  | noTarget hc | stacked hc => exact ⟨_, mem_of_startsQuantifier hc, rfl⟩
  | special hs hc hne => exact ⟨_, List.contains_iff_mem.1 hc, rfl⟩
  | @disordered o ps items low c hc h => exact ⟨low, .plain c hc, h, rfl⟩
  | @escapedDisordered o ps items low c hc h => exact ⟨low, .escaped c hc, h, rfl⟩
  | @notEscapable o ps s c hc =>
    obtain ⟨hspecial, hbackslash⟩ := notMem_of_ordinary hc
    exact ⟨c, hspecial, hbackslash, rfl⟩
  | noDigits | tooGreat | unmarked => rfl
  | boundsBelow low high h => exact ⟨low, high, h, rfl⟩
  | endTerm hc h ih | endItem hc h ih => exact ih

theorem Draft.Refuses.ne_trailingEscape {z : Draft} {c : Char} (h : z.Refuses nesting c cause front shown) :
    cause ≠ .trailingEscape := by
  induction h with
  | endTerm hc h ih | endItem hc h ih => exact ih
  | _ => simp

theorem Draft.Unfinished.shows {z : Draft} (h : z.Unfinished cause front shown) : cause.ShownBy shown := by
  cases h <;> rfl

/-! ## What goes wrong in a text -/

/-- **How a text fails**: with the cause, and with a part of the text that shows it behind another part. -/
inductive Fails (nesting : Nat) (text : Text) : Cause → (front shown : Text) → Prop
  /-- A beginning of the text is read, and the next character is refused. -/
  | refused {s c tail z cause front shown} (htext : text = s ++ c :: tail) (hz : Draft.Reads nesting .initial s z)
    (h : z.Refuses nesting c cause front shown) : Fails nesting text cause front shown
  /-- All of the text is read, and something is unfinished. -/
  | unfinished {z cause front shown} (hz : Draft.Reads nesting .initial text z) (h : z.Unfinished cause front shown) :
    Fails nesting text cause front shown

theorem Draft.Reads.text_initial {s : Text} {z : Draft} (h : Draft.Reads nesting .initial s z) : z.text = s := h.text

theorem Fails.shows (h : Fails nesting text cause front shown) : cause.ShownBy shown := by
  cases h with
  | refused htext hz h => exact h.shows
  | unfinished hz h => exact h.shows

theorem Fails.text_eq (h : Fails nesting text cause front shown) : ∃ rest, text = front ++ shown ++ rest := by
  cases h with
  | @refused s c tail z _ _ _ htext hz h =>
    obtain ⟨rest, hrest⟩ := h.text
    rw [hz.text_initial] at hrest
    refine ⟨rest ++ tail, ?_⟩
    rw [htext, ← List.append_assoc, ← hrest, List.append_assoc, List.singleton_append]
  | unfinished hz h =>
    rw [← hz.text_initial]
    exact h.text

theorem Fails.run (h : Fails nesting text cause front shown) :
    Reader.run nesting text = .error (.showing cause front shown) := by
  cases h with
  | @refused s c tail z _ _ _ htext hz h =>
    have hscan : Token.scan (s ++ c :: tail) =
        Token.scan s ++ ⟨c, s.size⟩ :: Token.scanFrom (s.size + c.utf8Size) tail := by
      rw [Token.scan, Token.scanFrom_append, Nat.zero_add]
      rfl
    have hstep := h.step
    rw [hz.text_initial] at hstep
    rw [Reader.run, htext, hscan, List.foldlM_append, hz.run_scan]
    change (List.foldlM (Reader.step nesting) z.reader (⟨c, s.size⟩ :: _)).bind _ = _
    rw [List.foldlM_cons, hstep]
    rfl
  | unfinished hz h =>
    rw [Reader.run, hz.run_scan]
    exact h.finish

theorem reads_or_fails : ∀ (s : Text) (z : Draft), (∃ z', Draft.Reads nesting z s z') ∨
    ∃ s₁ c s₂ z' cause front shown, s = s₁ ++ c :: s₂ ∧ Draft.Reads nesting z s₁ z' ∧
      z'.Refuses nesting c cause front shown
  | [], z => .inl ⟨z, .done⟩
  | c :: s, z => by
    rcases z.moves_or_refuses c with ⟨z', hz⟩ | ⟨cause, front, shown, h⟩
    · rcases reads_or_fails s z' with ⟨z'', hs⟩ | ⟨s₁, d, s₂, z'', cause, front, shown, rfl, hs, h⟩
      · exact .inl ⟨z'', .move hz hs⟩
      · exact .inr ⟨c :: s₁, d, s₂, z'', cause, front, shown, rfl, .move hz hs, h⟩
    · exact .inr ⟨[], c, s, z, cause, front, shown, rfl, .done, h⟩

/-- **The reader stops with a fault exactly where the text fails.** -/
theorem run_eq_error_iff {fault : Fault} : Reader.run nesting text = .error fault ↔
    ∃ cause front shown, Fails nesting text cause front shown ∧ fault = .showing cause front shown := by
  constructor
  · intro hrun
    have hfault : ∀ {cause front shown}, Fails nesting text cause front shown →
        ∃ cause front shown, Fails nesting text cause front shown ∧ fault = .showing cause front shown :=
      fun h => ⟨_, _, _, h, Except.error.inj (hrun.symm.trans h.run)⟩
    rcases reads_or_fails text .initial with ⟨z, hz⟩ | ⟨s, c, tail, z, _, _, _, htext, hz, h⟩
    · rcases z.hasPhrases_or_unfinished with ⟨d, hd⟩ | ⟨_, _, _, h⟩
      · rw [Reader.run, hz.run_scan] at hrun
        cases (Draft.finish_of_hasPhrases hd).symm.trans hrun
      · exact hfault (.unfinished hz h)
    · exact hfault (.refused htext hz h)
  · rintro ⟨cause, front, shown, h, rfl⟩
    exact h.run

/-- **A text is not read exactly where it fails**, and the error is that of the failure. -/
theorem read_eq_error_iff {limits : Limits} {e : GrammarError} : Pattern.read text limits = .error e ↔
    ∃ cause front shown, Fails limits.nesting text cause front shown ∧
      e = ⟨cause, ⟨front.size, (front ++ shown).size⟩, text⟩ := by
  rw [Pattern.read_eq_error_iff_run]
  simp only [run_eq_error_iff]
  constructor
  · rintro ⟨_, ⟨cause, front, shown, h, rfl⟩, rfl⟩
    exact ⟨cause, front, shown, h, rfl⟩
  · rintro ⟨cause, front, shown, h, rfl⟩
    exact ⟨_, ⟨cause, front, shown, h, rfl⟩, rfl⟩

theorem Fails.eq_of_trailingEscape (h : Fails nesting text .trailingEscape front shown) : text = front ++ shown := by
  cases h with
  | refused htext hz h => exact absurd rfl h.ne_trailingEscape
  | unfinished hz h =>
    rw [← hz.text_initial]
    cases h
    simp [Draft.text, Piece.text]

theorem Fails.textIn?_span (h : Fails nesting text cause front shown) :
    (⟨front.size, (front ++ shown).size⟩ : Span).textIn? text = some shown := by
  obtain ⟨rest, rfl⟩ := h.text_eq
  exact Text.slice?_append front shown rest

theorem Fails.fragment (h : Fails nesting text cause front shown) :
    (⟨cause, ⟨front.size, (front ++ shown).size⟩, text⟩ : GrammarError).fragment = shown := by
  rw [GrammarError.fragment, h.textIn?_span, Option.getD_some]

end Grammar

/-- **An error shows what is wrong.**  Its span is a stretch of the text, not empty and with both ends on characters,
its fragment is the text of the span, and the fragment violates the rule that the cause names.  A backslash that has
nothing behind it is the end of the text. -/
theorem Pattern.evidence_of_read {text : Text} {limits : Limits} {e : GrammarError}
    (h : Pattern.read text limits = .error e) :
    e.pattern = text ∧ e.span.start < e.span.stop ∧ text.IsBoundary e.span.start ∧ text.IsBoundary e.span.stop ∧
      e.span.textIn? text = some e.fragment ∧ e.cause.ShownBy e.fragment ∧
      (e.cause = .trailingEscape → e.span.stop = text.size) := by
  obtain ⟨cause, front, shown, hfails, rfl⟩ := Grammar.read_eq_error_iff.1 h
  obtain ⟨rest, htext⟩ := hfails.text_eq
  rw [hfails.fragment]
  refine ⟨rfl, ?_, ?_, ⟨front ++ shown, rest, htext, rfl⟩, hfails.textIn?_span, hfails.shows, ?_⟩
  · have := Text.size_pos hfails.shows.ne_nil
    simp only [Text.size_append]
    omega
  · exact ⟨front, shown ++ rest, by rw [htext, List.append_assoc], rfl⟩
  · rintro rfl
    rw [hfails.eq_of_trailingEscape]

/-- In `é[z-\+]` the range stands at byte 3, and it ends below its beginning. -/
theorem Pattern.evidence_of_read_range : ∃ e, Pattern.read "é[z-\\+]".toList ⟨0⟩ = .error e ∧
    e.cause = .invalidRange ∧ e.span = ⟨3, 7⟩ ∧ e.fragment = "z-\\+".toList ∧
    Cause.invalidRange.ShownBy "z-\\+".toList := by
  have hread : Pattern.read "é[z-\\+]".toList ⟨0⟩ =
      .error ⟨.invalidRange, ⟨3, 7⟩, "é[z-\\+]".toList⟩ := by decide +kernel
  obtain ⟨-, -, -, -, htext, hshown, -⟩ := evidence_of_read hread
  have hfragment : (⟨.invalidRange, ⟨3, 7⟩, "é[z-\\+]".toList⟩ : GrammarError).fragment = "z-\\+".toList :=
    Option.some.inj (htext.symm.trans (by decide +kernel))
  rw [hfragment] at hshown
  exact ⟨_, hread, rfl, rfl, hfragment, hshown⟩

end PatternWalk
