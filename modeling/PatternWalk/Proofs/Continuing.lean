import PatternWalk.Proofs.Faults
/-!
# Continuing — pattern texts that go on

More text mends an error only where the text ends too early: in a group, a set or braces, or behind a backslash.  Every
other error is decided by what is read before it, and stays.  Its span stays too, save that digits too great for a
bound may go on (`read_append_of_definite`).
-/
namespace PatternWalk
namespace Grammar

def TooGreat (shown : Text) : Prop :=
  ∃ low? digits, shown = '{' :: Bound.textOf low? ++ digits ∧ (∀ c ∈ digits, c.isDigit = true) ∧
    Reader.greatestBound < Nat.ofDigitChars 10 digits 0

theorem ofDigitChars_le_append (digits more : Text) :
    Nat.ofDigitChars 10 digits 0 ≤ Nat.ofDigitChars 10 (digits ++ more) 0 := by
  have hpow : 0 < 10 ^ more.length := Nat.pow_pos (by decide)
  calc Nat.ofDigitChars 10 digits 0
    _ ≤ 10 ^ more.length * Nat.ofDigitChars 10 digits 0 := Nat.le_mul_of_pos_left _ hpow
    _ ≤ 10 ^ more.length * Nat.ofDigitChars 10 digits 0 + Nat.ofDigitChars 10 more 0 := Nat.le_add_right _ _
    _ = Nat.ofDigitChars 10 (digits ++ more) 0 := by
      rw [Nat.ofDigitChars_append, ← Nat.ofDigitChars_eq_ofDigitChars_zero]

theorem TooGreat.isDigit_of_getLast {init : Text} {c : Char} (h : TooGreat (init ++ [c])) : c.isDigit = true := by
  obtain ⟨low?, digits, hshown, hdigits, hgreat⟩ := h
  rcases List.eq_nil_or_concat' digits with rfl | ⟨digits, d, rfl⟩
  · cases hgreat
  · rw [← List.append_assoc] at hshown
    obtain ⟨-, hcd⟩ := List.append_inj' hshown rfl
    cases hcd
    exact hdigits _ (by simp)

variable {nesting : Nat} {text front shown : Text} {cause : Cause}

theorem Draft.Refuses.ends_of_bounds {z : Draft} {c : Char} (h : z.Refuses nesting c cause front shown)
    (hcause : cause = .invalidQuantifierBounds) :
    front ++ shown = z.text ∨ ∃ init, shown = init ++ [c] ∧ c.isDigit = false := by
  induction h with
  | noDigits hc => exact .inr ⟨_, rfl, hc⟩
  | tooGreat hc h => exact .inl (by simp [Draft.text, Piece.text])
  | unmarked b hc hne => exact .inr ⟨_, rfl, hc⟩
  | endTerm hc h ih =>
    rw [text_endTerm]
    exact ih hcause
  | endItem hc h ih =>
    rw [text_endItem]
    exact ih hcause
  | _ => cases hcause

theorem Fails.unfinished_of_tooGreat (h : Fails nesting text .invalidQuantifierBounds front shown)
    (hgreat : TooGreat shown) (hend : text = front ++ shown) :
    ∃ z, Draft.Reads nesting .initial text z ∧ z.Unfinished .invalidQuantifierBounds front shown := by
  cases h with
  | unfinished hz h => exact ⟨_, hz, h⟩
  | @refused s c tail z _ _ _ htext hz h =>
    -- a character is refused behind the digits, and it is either shown or left
    rcases h.ends_of_bounds rfl with hshown | ⟨init, rfl, hc⟩
    · rw [hz.text_initial] at hshown
      rw [htext, hshown] at hend
      simp at hend
    · rw [hgreat.isDigit_of_getLast] at hc
      cases hc

/-- **A failure stays where it is** when the text goes on, where the text was not over too early. -/
theorem Fails.append (h : Fails nesting text cause front shown) (hclosed : cause.isUnclosed = false)
    (hescape : cause ≠ .trailingEscape)
    (hmiddle : ¬ (cause = .invalidQuantifierBounds ∧ TooGreat shown ∧ text = front ++ shown)) (s : Text) :
    Fails nesting (text ++ s) cause front shown := by
  cases h with
  | @refused s₁ c tail z _ _ _ htext hz h =>
    have hmore : text ++ s = s₁ ++ c :: (tail ++ s) := by rw [htext, List.append_assoc, List.cons_append]
    exact .refused hmore hz h
  | unfinished hz h =>
    cases h with
    | escape => exact absurd rfl hescape
    | slot | letter | bound | term | atom => cases hclosed
    | @tooGreat o ps a low? digits hd h =>
      refine absurd ⟨rfl, ⟨low?, digits, rfl, hd, h⟩, ?_⟩ hmiddle
      rw [← hz.text_initial]
      simp [Draft.text, Piece.text]

/-- **A failure at digits that the text ends with takes in the digits behind it.** -/
theorem Fails.append_digits {more rest : Text} (h : Fails nesting text .invalidQuantifierBounds front shown)
    (hgreat : TooGreat shown) (hend : text = front ++ shown) (hmore : ∀ c ∈ more, c.isDigit = true)
    (hrest : ∀ c ∈ rest.head?, c.isDigit = false) :
    Fails nesting (text ++ more ++ rest) .invalidQuantifierBounds front (shown ++ more) := by
  obtain ⟨z, hz, hunfinished⟩ := h.unfinished_of_tooGreat hgreat hend
  cases hunfinished with
  | @tooGreat o ps a low? digits hd hvalue =>
    have hdigits : ∀ c ∈ digits ++ more, c.isDigit = true := List.forall_mem_append.2 ⟨hd, hmore⟩
    have hread := hz.trans (Draft.reads_digits more hd hdigits)
    have hvalue := Nat.lt_of_lt_of_le hvalue (ofDigitChars_le_append digits more)
    rw [List.append_assoc ('{' :: _)]
    cases rest with
    | nil =>
      rw [List.append_nil]
      exact .unfinished hread (.tooGreat hvalue)
    | cons c tail => exact .refused rfl hread (.tooGreat (hrest c rfl) hvalue)

end Grammar

/-- **An error at digits that the text ends with**: their value is too great for a bound. -/
def GrammarError.AtOpenBound (e : GrammarError) : Prop :=
  e.cause = .invalidQuantifierBounds ∧ Grammar.TooGreat e.fragment ∧ e.span.stop = e.pattern.size

theorem Grammar.Fails.atOpenBound_iff {nesting : Nat} {text front shown : Text} {cause : Cause}
    (h : Fails nesting text cause front shown) :
    (⟨cause, ⟨front.size, (front ++ shown).size⟩, text⟩ : GrammarError).AtOpenBound ↔
      cause = .invalidQuantifierBounds ∧ TooGreat shown ∧ text = front ++ shown := by
  have hend : (front ++ shown).size = text.size ↔ text = front ++ shown := by
    obtain ⟨rest, rfl⟩ := h.text_eq
    rw [Text.size_append _ rest, Nat.left_eq_add, List.append_right_eq_self]
    constructor
    · intro hsize
      by_contra hrest
      exact (Text.size_pos hrest).ne' hsize
    · rintro rfl
      rfl
  rw [GrammarError.AtOpenBound, h.fragment]
  exact and_congr_right fun _ => and_congr_right fun _ => hend

/-- **An error stays when the text goes on**, save where the text ends too early.  It begins at the same place, and has
the same span and fragment.  Only an error at digits that the text ends with grows, by the digits that come next. -/
theorem Pattern.read_append_of_definite {text : Text} {limits : Limits} {e : GrammarError}
    (h : Pattern.read text limits = .error e) (hclosed : e.cause.isUnclosed = false)
    (hescape : e.cause ≠ .trailingEscape) (s : Text) :
    ∃ e', Pattern.read (text ++ s) limits = .error e' ∧ e'.cause = e.cause ∧ e'.span.start = e.span.start ∧
      (¬ e.AtOpenBound → e'.span = e.span ∧ e'.fragment = e.fragment) ∧
      (e.AtOpenBound → e'.span.stop = e.span.stop + Text.size (s.takeWhile Char.isDigit) ∧
        e'.fragment = e.fragment ++ s.takeWhile Char.isDigit) := by
  obtain ⟨cause, front, shown, hfails, rfl⟩ := Grammar.read_eq_error_iff.1 h
  rw [hfails.atOpenBound_iff, hfails.fragment]
  by_cases hopen : cause = .invalidQuantifierBounds ∧ Grammar.TooGreat shown ∧ text = front ++ shown
  · obtain ⟨rfl, hgreat, hend⟩ := hopen
    have hdigits : ∀ c ∈ s.takeWhile Char.isDigit, c.isDigit = true := List.all_eq_true.1 List.all_takeWhile
    have hrest : ∀ c ∈ (s.dropWhile Char.isDigit).head?, c.isDigit = false := by
      have := List.head?_dropWhile_not Char.isDigit s
      intro c hc
      rwa [Option.mem_def.1 hc] at this
    have hmore := hfails.append_digits hgreat hend hdigits hrest
    rw [List.append_assoc, List.takeWhile_append_dropWhile] at hmore
    refine ⟨_, Grammar.read_eq_error_iff.2 ⟨_, _, _, hmore, rfl⟩, rfl, rfl, ?_, ?_⟩
    · exact fun hne => absurd ⟨rfl, hgreat, hend⟩ hne
    · exact fun _ => ⟨by simp only [Text.size_append, Nat.add_assoc], hmore.fragment⟩
  · have hmore := hfails.append hclosed hescape hopen s
    refine ⟨_, Grammar.read_eq_error_iff.2 ⟨_, _, _, hmore, rfl⟩, rfl, rfl, ?_, ?_⟩
    · exact fun _ => ⟨rfl, hmore.fragment⟩
    · exact fun hyes => absurd hyes hopen

/-- The bound in `a{4294967296` is too great by one, and takes in the digit behind it.  The dash in `[a-]` is refused
for the bracket that is read already, whatever follows. -/
theorem Pattern.read_append_of_definite_digits :
    (∃ e, Pattern.read ("a\x7b4294967296".toList ++ "0\x7db".toList) ⟨0⟩ = .error e ∧
      e.cause = .invalidQuantifierBounds ∧ e.span.start = 1 ∧ e.span.stop = 13 ∧
      e.fragment = "\x7b42949672960".toList) ∧
    ∃ e, Pattern.read ("[a-]".toList ++ "z]".toList) ⟨0⟩ = .error e ∧ e.cause = .unescapedSpecial ∧
      e.span = ⟨2, 3⟩ ∧ e.fragment = ['-'] := by
  constructor
  · have hread : Pattern.read "a\x7b4294967296".toList ⟨0⟩ =
        .error ⟨.invalidQuantifierBounds, ⟨1, 12⟩, "a\x7b4294967296".toList⟩ := by decide +kernel
    obtain ⟨e, hmore, hcause, hstart, -, hopen⟩ := read_append_of_definite hread rfl (by decide) "0\x7db".toList
    have hdigits : ∀ c ∈ "4294967296".toList, c.isDigit = true := List.all_eq_true.1 (by decide +kernel)
    obtain ⟨hstop, hfragment⟩ := hopen
      ⟨rfl, ⟨none, "4294967296".toList, by decide +kernel, hdigits, by decide +kernel⟩, by decide +kernel⟩
    exact ⟨e, hmore, hcause, hstart, hstop.trans (by decide +kernel), hfragment.trans (by decide +kernel)⟩
  · have hread : Pattern.read "[a-]".toList ⟨0⟩ = .error ⟨.unescapedSpecial, ⟨2, 3⟩, "[a-]".toList⟩ := by
      decide +kernel
    obtain ⟨e, hmore, hcause, -, hmiddle, -⟩ := read_append_of_definite hread rfl (by decide) "z]".toList
    obtain ⟨hspan, hfragment⟩ := hmiddle fun hopen => by cases hopen.1
    exact ⟨e, hmore, hcause, hspan, hfragment.trans (by decide +kernel)⟩

end PatternWalk
