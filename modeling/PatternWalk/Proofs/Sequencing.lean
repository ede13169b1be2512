import PatternWalk.Proofs.Matching
import PatternWalk.Proofs.ReadingBehind
import PatternWalk.Proofs.Readings
/-!
# Sequencing — pattern texts in a row

A text that is read leaves the reader with nothing open, so what is written behind it is read as if it stood alone
(`run_append`).  The only thing that a text could do to the one before it is to quantify its last term; if it begins
with anything else, the two in a row mean the first pattern and behind it the second, or have the fault of the second.
-/
namespace PatternWalk
namespace Grammar

variable {nesting : Nat} {d : Derivation} {p q : Text}

/-! ## The reader behind a derivation -/

namespace Draft

theorem reader_eq_behind (d : Derivation) :
    (⟨[], d, .slot .term false⟩ : Draft).reader =
      initial.reader.behind (Derivation.terms d 0) (Derivation.text d).size := by
  simp [reader, initial, Reader.behind, Reader.outerBehind, Reader.levelBehind, Reader.Mode.shift, openGroups,
    Piece.mode, Piece.escape?, text, front, outerText, Piece.text, Slot.text, Derivation.terms, Derivation.text,
    Pattern.shift]

/-- **Behind a derivation** a text is read as it is read alone, unless it begins with a quantifier. -/
theorem foldlM_step_derivation (d : Derivation) (hq : NoSuffix q) :
    (Token.scanFrom (Derivation.text d).size q).foldlM (Reader.step nesting)
        (⟨[], d, .slot .term false⟩ : Draft).reader =
      Reader.answered (Derivation.text d).size (Reader.behind (Derivation.terms d 0) (Derivation.text d).size)
        ((Token.scan q).foldlM (Reader.step nesting) Reader.initial) := by
  have hrest : (Token.scanFrom (initial.text.size + (Derivation.text d).size) q).foldlM (Reader.step nesting)
      (initial.reader.behind (Derivation.terms d 0) (Derivation.text d).size) = _ := foldlM_step_behind fun _ => hq
  have hstart : initial.text.size + (Derivation.text d).size = (Derivation.text d).size := Nat.zero_add _
  rw [hstart] at hrest
  rw [reader_eq_behind]
  exact hrest

theorem HasPhrases.foldlM_bind_finish {z : Draft} (hz : z.HasPhrases [] d) (hq : NoSuffix q) :
    ((Token.scanFrom (Derivation.text d).size q).foldlM (Reader.step nesting) z.reader).bind Reader.finish =
      ((Token.scanFrom (Derivation.text d).size q).foldlM (Reader.step nesting)
        (⟨[], d, .slot .term false⟩ : Draft).reader).bind Reader.finish := by
  have hdone : (⟨[], d, .slot .term false⟩ : Draft).HasPhrases [] d := .inl rfl
  cases q with
  | nil => exact (finish_of_hasPhrases hz).trans (finish_of_hasPhrases hdone).symm
  | cons c q =>
    have hstep : Reader.step nesting z.reader ⟨c, (Derivation.text d).size⟩ =
        Reader.step nesting (⟨[], d, .slot .term false⟩ : Draft).reader ⟨c, (Derivation.text d).size⟩ := by
      obtain rfl | ⟨front, a, rfl, rfl⟩ := hz
      · rfl
      · have hend : Reader.step nesting (⟨[], front, .atom a⟩ : Draft).reader ⟨c, _⟩ = _ := step_endTerm (hq c rfl)
        rwa [HasPhrases.text (.inr ⟨front, a, rfl, rfl⟩), hdone.text] at hend
    rw [Token.scanFrom, List.foldlM_cons, List.foldlM_cons, hstep]

end Draft

/-- **A text behind one that is read** is read as if it stood alone, so many bytes further on, and the terms of both
are joined. -/
theorem run_append {first : Pattern} (hp : Reader.run nesting p = .ok first) (hq : NoSuffix q) :
    Reader.run nesting (p ++ q) =
      Reader.answered p.size (fun second => Pattern.coalesce (first ++ Pattern.shift p.size second))
        (Reader.run nesting q) := by
  obtain ⟨r, hr, hfinish⟩ := bind_eq_ok_iff.1 hp
  obtain ⟨z, hz, rfl⟩ := (Draft.foldlM_step_eq_ok_iff (z := .initial)).1 hr
  obtain ⟨d, hd⟩ := Draft.hasPhrases_of_finish hfinish
  have htext : Derivation.text d = p := hd.text.symm.trans hz.text
  have hfirst : Pattern.coalesce (Derivation.terms d 0) = first := by
    rw [Pattern.coalesce_eq_joinRuns]
    exact Except.ok.inj ((Draft.finish_of_hasPhrases hd).symm.trans hfinish)
  have hread : (Token.scan (p ++ q)).foldlM (Reader.step nesting) Reader.initial =
      (Token.scanFrom p.size q).foldlM (Reader.step nesting) z.reader := by
    rw [Token.scan, Token.scanFrom_append, List.foldlM_append, Nat.zero_add]
    exact congrArg (· >>= _) hr
  have hend : ((Token.scanFrom _ q).foldlM (Reader.step nesting) z.reader).bind Reader.finish = _ :=
    hd.foldlM_bind_finish hq
  rw [Draft.foldlM_step_derivation d hq, htext] at hend
  rw [Reader.run, hread, hend, Reader.run]
  cases (Token.scan q).foldlM (Reader.step nesting) Reader.initial with
  | error fault => rfl
  | ok r =>
    rw [Reader.answered_ok, Except.bind, Reader.finish_behind, Except.bind, ← hfirst]
    simp only [Pattern.coalesce_coalesce_append]

theorem noSuffix_of_run {second : Pattern} (hq : Reader.run nesting q = .ok second) : NoSuffix q := by
  obtain ⟨d, rfl, -, -⟩ := run_eq_ok_iff.1 hq
  simpa using d.noSuffix (.inl rfl)

theorem noSuffix_iff : NoSuffix q ↔ ∀ c ∈ q.head?, c ∉ ['*', '+', '?', '{'] := by
  have hkind : ∀ c, (Token.Kind.ofChar c).startsQuantifier = false ↔ c ∉ ['*', '+', '?', '{'] := by
    intro c
    rcases role_cases c with hc | rfl | rfl | rfl | rfl | rfl | rfl | rfl | rfl | rfl | rfl | rfl
    · have hne : c ∉ ['*', '+', '?', '{'] := by
        intro hmem
        have hspecial : ['*', '+', '?', '{'].all Text.needsEscape = true := by decide
        rw [List.all_eq_true.1 hspecial c hmem] at hc
        cases hc
      simp only [kind_of_ordinary hc, hne, not_false_eq_true, iff_true]
      rfl
    all_goals decide
  exact forall₂_congr fun c _ => hkind c

end Grammar

/-! ## What is answered -/

theorem GrammarError.fragment_append (front : Text) (e : GrammarError) :
    (⟨e.cause, e.span.shift front.size, front ++ e.pattern⟩ : GrammarError).fragment = e.fragment := by
  simp only [fragment, Span.textIn?, Span.shift, Nat.add_comm _ front.size, Text.slice?_append_size_add]

/-- **Pattern texts in a row are patterns in a row.**  Behind a text that is read, a second one that is read is read as
well: its terms, moved on behind the first text, stand behind those of the first, joined with them.  The pattern of both
matches where the first matches and the second matches from its end on, and it ends where the second ends.  A second
text that is not read, and that does not begin with a quantifier, is not read behind the first either: the cause and the
fragment are the same, and the span is moved on. -/
theorem Pattern.read_append (p q : Text) (limits : Limits) (first : Pattern) (hp : Pattern.read p limits = .ok first) :
    (∀ second, Pattern.read q limits = .ok second →
      ∃ both, Pattern.read (p ++ q) limits = .ok both ∧ both = coalesce (first ++ second.shift p.size) ∧
        ∀ source offset m, both.matchAt source offset = some m ↔
          ∃ m₁ m₂, first.matchAt source offset = some m₁ ∧ second.matchAt source m₁.stop = some m₂ ∧
            m = ⟨offset, m₁.text ++ m₂.text⟩ ∧ m.stop = m₂.stop) ∧
    ∀ error, (∀ c ∈ q.head?, c ∉ ['*', '+', '?', '{']) → Pattern.read q limits = .error error →
      ∃ error', Pattern.read (p ++ q) limits = .error error' ∧ error'.cause = error.cause ∧
        error'.fragment = error.fragment ∧ error'.span = error.span.shift p.size := by
  rw [read_eq_ok_iff_run] at hp
  constructor
  · intro second hq
    rw [read_eq_ok_iff_run] at hq
    have hboth : Reader.run limits.nesting (p ++ q) = .ok (coalesce (first ++ second.shift p.size)) := by
      rw [Grammar.run_append hp (Grammar.noSuffix_of_run hq), hq]
      rfl
    refine ⟨_, read_eq_ok_iff_run.2 hboth, rfl, fun source offset m => ?_⟩
    have hpast : past? (coalesce (first ++ second.shift p.size)) = past? (first ++ second) := by
      refine (past?_coalesce _).trans (past?_eq_of_eraseSpans_eq ?_)
      rw [eraseSpans_append, eraseSpans_append, eraseSpans_shift]
    rw [matchAt_congr hpast]
    exact matchAt_append_eq_some_iff
  · intro error hhead hq
    obtain ⟨fault, hfault, rfl⟩ := read_eq_error_iff_run.1 hq
    have hboth : Reader.run limits.nesting (p ++ q) = .error (fault.shift p.size) := by
      rw [Grammar.run_append hp (Grammar.noSuffix_iff.2 hhead), hfault]
      rfl
    exact ⟨_, read_eq_error_iff_run.2 ⟨_, hboth, rfl⟩, rfl, GrammarError.fragment_append p ⟨_, _, q⟩, rfl⟩

/-- Behind `é(b)a` the text `bc*` joins its first letter to the last one before it, and the pattern matches `ébabcc` in
two parts; `x[z-y]` has its range at byte 8 there, where it is at byte 2 alone. -/
theorem Pattern.read_append_letters : ∃ first second both error,
    Pattern.read "é(b)a".toList ⟨1⟩ = .ok first ∧ Pattern.read "bc*".toList ⟨1⟩ = .ok second ∧
    Pattern.read ("é(b)a".toList ++ "bc*".toList) ⟨1⟩ = .ok both ∧ both = coalesce (first ++ second.shift 6) ∧
    both.length = 4 ∧ both.matchAt "ébabcc".toList 0 = some ⟨0, "ébabcc".toList⟩ ∧
    Pattern.read ("é(b)a".toList ++ "x[z-y]".toList) ⟨1⟩ = .error error ∧ error.cause = .invalidRange ∧
    error.fragment = "z-y".toList ∧ error.span = ⟨8, 11⟩ := by
  obtain ⟨first, hfirst, hp, hmatch⟩ : ∃ first : Pattern, first = [⟨.literal ['é'], .once, ⟨0, 2⟩⟩,
      ⟨.group [⟨.literal ['b'], .once, ⟨3, 4⟩⟩], .once, ⟨2, 5⟩⟩, ⟨.literal ['a'], .once, ⟨5, 6⟩⟩] ∧
      Pattern.read "é(b)a".toList ⟨1⟩ = .ok first ∧
      first.matchAt "ébabcc".toList 0 = some ⟨0, "éba".toList⟩ := ⟨_, rfl, by decide +kernel, by decide +kernel⟩
  obtain ⟨second, hsecond, hq, hmatch'⟩ : ∃ second : Pattern,
      second = [⟨.literal ['b'], .once, ⟨0, 1⟩⟩, ⟨.literal ['c'], .zeroOrMore, ⟨1, 3⟩⟩] ∧
      Pattern.read "bc*".toList ⟨1⟩ = .ok second ∧
      second.matchAt "ébabcc".toList 4 = some ⟨4, "bcc".toList⟩ := ⟨_, rfl, by decide +kernel, by decide +kernel⟩
  obtain ⟨both, hread, hboth, hmatches⟩ := (read_append _ "bc*".toList _ _ hp).1 second hq
  have hlength : both.length = 4 := by rw [hboth, hfirst, hsecond]; decide +kernel
  have herror : Pattern.read "x[z-y]".toList ⟨1⟩ = .error ⟨.invalidRange, ⟨2, 5⟩, "x[z-y]".toList⟩ := by decide +kernel
  have hhead : ∀ c ∈ "x[z-y]".toList.head?, c ∉ ['*', '+', '?', '{'] := by
    have hx : "x[z-y]".toList.head? = some 'x' := by decide +kernel
    intro c hc
    rw [hx] at hc
    obtain rfl := Option.some.inj hc
    decide
  obtain ⟨error, hfault, hcause, hfragment, hspan⟩ := (read_append _ "x[z-y]".toList _ _ hp).2 _ hhead herror
  exact ⟨first, second, both, error, hp, hq, hread, hboth, hlength,
    (hmatches _ _ _).2 ⟨_, _, hmatch, hmatch', rfl, rfl⟩, hfault, hcause, hfragment.trans (by decide +kernel), hspan⟩

end PatternWalk
