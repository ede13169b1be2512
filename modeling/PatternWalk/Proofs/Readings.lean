import PatternWalk.Proofs.ReaderMoves
import PatternWalk.Proofs.UniqueReading
/-!
# Readings — the reader accepts the derivable texts

A reading is a sequence of moves.  What the reader does with a text is what a reading of it does to the empty draft
(`foldlM_step_eq_ok_iff`).  In one direction a reading keeps the text and the nesting, so what it ends with is a
derivation of the text that is read.  In the other every derivation is read, by induction on its tree.
-/
namespace PatternWalk
namespace Grammar
namespace Draft

variable {nesting : Nat}

/-- **A reading**: moves with the characters of a text, one after the other. -/
inductive Reads (nesting : Nat) : Draft → Text → Draft → Prop
  | done {z} : Reads nesting z [] z
  | move {z z' z'' c s} (h : z.Moves nesting c z') (hs : Reads nesting z' s z'') : Reads nesting z (c :: s) z''

theorem Reads.trans {x y z : Draft} {s t : Text} (hs : Reads nesting x s y) (ht : Reads nesting y t z) :
    Reads nesting x (s ++ t) z := by
  induction hs with
  | done => exact ht
  | move h _ ih => exact .move h (ih ht)

theorem Reads.exists_of_append : ∀ {s t : Text} {x z : Draft}, Reads nesting x (s ++ t) z →
    ∃ y, Reads nesting x s y ∧ Reads nesting y t z
  | [], _, x, _, h => ⟨x, .done, h⟩
  | _ :: _, _, _, _, .move hm hr => by
    obtain ⟨y, hy, hz⟩ := exists_of_append hr
    exact ⟨y, .move hm hy, hz⟩

theorem Moves.reads {z z' : Draft} {c : Char} (h : z.Moves nesting c z') : Reads nesting z [c] z' := .move h .done

theorem Reads.text {z z' : Draft} {s : Text} (h : Reads nesting z s z') : z'.text = z.text ++ s := by
  induction h with
  | done => simp
  | move h _ ih => rw [ih, h.text, List.append_assoc, List.singleton_append]

theorem Reads.depth_le {z z' : Draft} {s : Text} (h : Reads nesting z s z') (hz : z.depth ≤ nesting) :
    z'.depth ≤ nesting := by
  induction h with
  | done => exact hz
  | move h _ ih => exact ih (h.depth_le hz)

/-- **The reader's way through a text is a reading of it.** -/
theorem foldlM_step_eq_ok_iff : ∀ {z : Draft} {s : Text} {r : Reader},
    (Token.scanFrom z.text.size s).foldlM (Reader.step nesting) z.reader = .ok r ↔
      ∃ z', Reads nesting z s z' ∧ z'.reader = r
  | z, [], r => by
    refine ⟨fun h => ⟨z, .done, Except.ok.inj h⟩, ?_⟩
    rintro ⟨z', hz, rfl⟩
    cases hz
    rfl
  | z, c :: s, r => by
    rw [Token.scanFrom, List.foldlM_cons]
    constructor
    · intro h
      cases hs : Reader.step nesting z.reader ⟨c, z.text.size⟩ with
      | error fault =>
        rw [hs] at h
        cases h
      | ok r' =>
        obtain ⟨z', hz, rfl⟩ := step_eq_ok_iff.1 hs
        have hsize : z.text.size + c.utf8Size = z'.text.size := by simp [hz.text]
        rw [hs, hsize] at h
        obtain ⟨z'', hz', hr⟩ := foldlM_step_eq_ok_iff.1 h
        exact ⟨z'', .move hz hz', hr⟩
    · rintro ⟨z'', hz, hr⟩
      cases hz with
      | @move _ z' _ _ _ h hs =>
        have hsize : z.text.size + c.utf8Size = z'.text.size := by simp [h.text]
        rw [h.step, hsize]
        exact foldlM_step_eq_ok_iff.2 ⟨z'', hs, hr⟩

theorem Reads.run_scan {z : Draft} {s : Text} (h : Reads nesting .initial s z) :
    (Token.scan s).foldlM (Reader.step nesting) Reader.initial = .ok z.reader :=
  (foldlM_step_eq_ok_iff (z := .initial)).2 ⟨z, h, rfl⟩

/-! ## Letters, items, bounds and suffixes are read -/

variable {o : List Derivation} {ps : Derivation}

theorem reads_letter {s : Slot} {p : Piece} : ∀ (l : Letter), s.fill l = some p →
    Reads nesting ⟨o, ps, .slot s false⟩ l.text ⟨o, ps, p⟩
  | .plain _ hc, hp => (Moves.plain hc hp).reads
  | .escaped _ hc, hp => .move .backslash (.move (.escaped hc hp) .done)

/-- A draft in a set with these items, the last of them perhaps not settled yet. -/
def HasItems (z : Draft) (o : List Derivation) (ps : Derivation) (items : List Item) : Prop :=
  z = ⟨o, ps, .slot (.item items) false⟩ ∨ ∃ front l, z = ⟨o, ps, .letter front l⟩ ∧ items = front ++ [.member l]

theorem HasItems.moves {z z' : Draft} {items : List Item} {c : Char} (hz : z.HasItems o ps items) (hc : c ≠ '-')
    (h : Moves nesting ⟨o, ps, .slot (.item items) false⟩ c z') : z.Moves nesting c z' := by
  obtain rfl | ⟨front, l, rfl, rfl⟩ := hz
  · exact h
  · exact .endItem hc h

theorem HasItems.reads {z z' : Draft} {items : List Item} {s : Text} (hz : z.HasItems o ps items) (hs : s ≠ [])
    (hd : s.head? ≠ some '-') (h : Reads nesting ⟨o, ps, .slot (.item items) false⟩ s z') : Reads nesting z s z' := by
  cases h with
  | done => exact absurd rfl hs
  | move hm hr => exact .move (hz.moves (fun hc => hd (by rw [hc]; rfl)) hm) hr

theorem reads_item {z : Draft} {items : List Item} (hz : z.HasItems o ps items) (i : Item) :
    ∃ z', Reads nesting z i.text z' ∧ z'.HasItems o ps (items ++ [i]) := by
  have hdash : i.text.head? ≠ some '-' := by simpa using i.head?_ne [] rfl
  have hne : i.text ≠ [] := i.text_ne_nil
  cases i with
  | member l => exact ⟨_, hz.reads hne hdash (reads_letter l rfl), .inr ⟨items, l, rfl, rfl⟩⟩
  | range low high h =>
    refine ⟨⟨o, ps, .slot (.item (items ++ [.range low high h])) false⟩, hz.reads hne hdash ?_, .inl rfl⟩
    have hhigh : (Slot.rangeEnd items low).fill high = some (.slot (.item (items ++ [.range low high h])) false) := by
      rw [Slot.fill, dif_pos h]
    exact (reads_letter low rfl).trans (.move .dash (reads_letter high hhigh))

theorem reads_items : ∀ (new : List Item) {z : Draft} {items : List Item}, z.HasItems o ps items →
    ∃ z', Reads nesting z (new.flatMap Item.text) z' ∧ z'.HasItems o ps (items ++ new)
  | [], z, items, hz => ⟨z, .done, by simpa using hz⟩
  | i :: new, z, items, hz => by
    obtain ⟨y, hy, hyi⟩ := reads_item hz i
    obtain ⟨z', hz', hzi⟩ := reads_items new hyi
    exact ⟨z', hy.trans hz', by simpa using hzi⟩

theorem reads_digits {a : Atom} {low? : Option Bound} : ∀ (new : Text) {digits : Text}
    (hd : ∀ c ∈ digits, c.isDigit = true) (h : ∀ c ∈ digits ++ new, c.isDigit = true),
    Reads nesting ⟨o, ps, .bound a low? digits hd⟩ new ⟨o, ps, .bound a low? (digits ++ new) h⟩
  | [], digits, hd, h => by simpa using Reads.done
  | c :: new, digits, hd, h => by
    have hc : ∀ d ∈ digits ++ [c], d.isDigit = true := fun d hmem => h d (by simp at hmem ⊢; tauto)
    have hrest : Reads nesting ⟨o, ps, .bound a low? (digits ++ [c]) hc⟩ new
        ⟨o, ps, .bound a low? (digits ++ [c] ++ new) (by simpa using h)⟩ := reads_digits new hc _
    simp only [List.append_assoc, List.singleton_append] at hrest
    exact .move (.digit hd hc) hrest

theorem reads_suffix {a : Atom} : ∀ q : Suffix,
    Reads nesting ⟨o, ps, .atom a⟩ q.text ⟨o, ps ++ [⟨a, some q⟩], .slot .term false⟩
  | .star => (Moves.suffix .star rfl).reads
  | .plus => (Moves.suffix .plus rfl).reads
  | .question => (Moves.suffix .question rfl).reads
  | .braces low high h => by
    have hlow : Reads nesting ⟨o, ps, .bound a none [] (by simp)⟩ low.digits
        ⟨o, ps, .bound a none low.digits low.decimal⟩ := reads_digits low.digits _ low.decimal
    have hhigh : Reads nesting ⟨o, ps, .bound a (some low) [] (by simp)⟩ high.digits
        ⟨o, ps, .bound a (some low) high.digits high.decimal⟩ := reads_digits high.digits _ high.decimal
    have hends := hlow.trans (.move (.comma low) (hhigh.trans (Moves.closeBraces low high h).reads))
    simpa only [Suffix.text, List.cons_append, List.append_assoc] using Reads.move .openBraces hends

/-! ## Atoms, phrases and derivations are read -/

def HasPhrases (z : Draft) (o : List Derivation) (ps : Derivation) : Prop :=
  z = ⟨o, ps, .slot .term false⟩ ∨ ∃ front a, z = ⟨o, front, .atom a⟩ ∧ ps = front ++ [⟨a, none⟩]

theorem HasPhrases.moves {z z' : Draft} {c : Char} (hz : z.HasPhrases o ps)
    (hc : (Token.Kind.ofChar c).startsQuantifier = false) (h : Moves nesting ⟨o, ps, .slot .term false⟩ c z') :
    z.Moves nesting c z' := by
  obtain rfl | ⟨front, a, rfl, rfl⟩ := hz
  · exact h
  · exact .endTerm hc h

theorem HasPhrases.reads {z z' : Draft} (hz : z.HasPhrases o ps) (a : Atom)
    (h : Reads nesting ⟨o, ps, .slot .term false⟩ a.text z') : Reads nesting z a.text z' := by
  have hstart := a.noSuffix []
  obtain ⟨c, s, hs, -⟩ := a.exists_text_eq_cons
  rw [hs] at h hstart ⊢
  cases h with
  | move hm hr => exact .move (hz.moves (hstart c rfl) hm) hr

theorem reads_set (first : Item) (items : List Item) :
    Reads nesting ⟨o, ps, .slot .term false⟩ (Atom.set first items).text ⟨o, ps, .atom (.set first items)⟩ := by
  obtain ⟨z, hz, hitems⟩ : ∃ z, Reads nesting ⟨o, ps, .slot (.item []) false⟩ ((first :: items).flatMap Item.text) z ∧
    z.HasItems o ps (first :: items) := reads_items (first :: items) (.inl rfl)
  have hclose : z.Moves nesting ']' ⟨o, ps, .atom (.set first items)⟩ := hitems.moves (by decide) .closeSet
  exact .move .openSet (hz.trans hclose.reads)

mutual
theorem reads_atom : ∀ (a : Atom) {o : List Derivation} {ps : Derivation} {z : Draft}, a.depth + o.length ≤ nesting →
    z.HasPhrases o ps → Reads nesting z a.text ⟨o, ps, .atom a⟩
  | .letter l, o, ps, z, _, hz => hz.reads (.letter l) (reads_letter l rfl)
  | .set first items, o, ps, z, _, hz => hz.reads (.set first items) (reads_set first items)
  | .group first body, o, ps, z, hn, hz => by
    rw [Atom.depth] at hn
    have hopen : Moves nesting ⟨o, ps, .slot .term false⟩ '(' ⟨ps :: o, [], .slot .term false⟩ :=
      .openGroup (by omega)
    obtain ⟨y, hy, hyp⟩ := reads_phrase first (o := ps :: o) (by rw [List.length_cons]; omega) (.inl rfl)
    obtain ⟨x, hx, hxp⟩ := reads_derivation body (by rw [List.length_cons]; omega) hyp
    rw [List.nil_append, List.singleton_append] at hxp
    have hclose : x.Moves nesting ')' ⟨o, ps, .atom (.group first body)⟩ := hxp.moves rfl .closeGroup
    apply hz.reads (.group first body)
    rw [Atom.text]
    exact .move hopen ((hy.trans hx).trans hclose.reads)
theorem reads_phrase : ∀ (p : Phrase) {o : List Derivation} {ps : Derivation} {z : Draft},
    p.depth + o.length ≤ nesting → z.HasPhrases o ps →
    ∃ z', Reads nesting z p.text z' ∧ z'.HasPhrases o (ps ++ [p])
  | ⟨a, none⟩, o, ps, z, hn, hz => by
    refine ⟨_, ?_, .inr ⟨ps, a, rfl, rfl⟩⟩
    simpa only [Phrase.text, Suffix.textOf, List.append_nil] using reads_atom a hn hz
  | ⟨a, some q⟩, o, ps, z, hn, hz => by
    exact ⟨_, (reads_atom a hn hz).trans (reads_suffix q), .inl rfl⟩
theorem reads_derivation : ∀ (d : Derivation) {o : List Derivation} {ps : Derivation} {z : Draft},
    d.depth + o.length ≤ nesting → z.HasPhrases o ps →
    ∃ z', Reads nesting z (Derivation.text d) z' ∧ z'.HasPhrases o (ps ++ d)
  | [], o, ps, z, _, hz => ⟨z, .done, by simpa using hz⟩
  | p :: d, o, ps, z, hn, hz => by
    rw [Derivation.depth] at hn
    obtain ⟨y, hy, hyp⟩ := reads_phrase p (by omega) hz
    obtain ⟨z', hz', hzp⟩ := reads_derivation d (by omega) hyp
    exact ⟨z', hy.trans hz', by simpa using hzp⟩
end

/-! ## The end of the text -/

theorem finish_of_hasPhrases {z : Draft} {d : Derivation} (hz : z.HasPhrases [] d) :
    z.reader.finish = .ok (Derivation.pattern d) := by
  rw [Derivation.pattern, ← Pattern.coalesce_eq_joinRuns]
  obtain rfl | ⟨front, a, rfl, rfl⟩ := hz
  · rfl
  · exact congrArg (fun r : Reader => Except.ok (Pattern.coalesce r.terms)) (settle_atom [] front a)

theorem hasPhrases_or_unfinished (z : Draft) :
    (∃ d, z.HasPhrases [] d) ∨ ∃ cause front shown, z.Unfinished cause front shown := by
  obtain ⟨o, ps, piece⟩ := z
  cases piece with
  | slot s b =>
    cases b with
    | true => exact .inr ⟨_, _, _, .escape⟩
    | false =>
      cases s with
      | term =>
        cases o with
        | nil => exact .inl ⟨ps, .inl rfl⟩
        | cons before o => exact .inr ⟨_, _, _, .term⟩
      | item | rangeEnd => exact .inr ⟨_, _, _, .slot (by simp)⟩
  | atom a =>
    cases o with
    | nil => exact .inl ⟨ps ++ [⟨a, none⟩], .inr ⟨ps, a, rfl, rfl⟩⟩
    | cons before o => exact .inr ⟨_, _, _, .atom⟩
  | letter items l => exact .inr ⟨_, _, _, .letter⟩
  | bound a low? digits hd =>
    by_cases h : Reader.greatestBound < Nat.ofDigitChars 10 digits 0
    · exact .inr ⟨_, _, _, .tooGreat h⟩
    · exact .inr ⟨_, _, _, .bound (Nat.not_lt.1 h)⟩

theorem any_digitsValue? (digits : Text) :
    (digitsValue? digits).any (Reader.greatestBound < ·) =
      decide (Reader.greatestBound < Nat.ofDigitChars 10 digits 0) := by
  cases digits <;> rfl

theorem Unfinished.finish {z : Draft} {cause : Cause} {front shown : Text} (h : z.Unfinished cause front shown) :
    z.reader.finish = .error (.showing cause front shown) := by
  cases h with
  | @escape o ps s =>
    rw [Fault.showing_delimiter _ _ rfl, Text.size_append]
    cases s <;> rfl
  | @slot o ps s hs =>
    rw [Fault.showing_delimiter _ _ rfl]
    cases s with
    | term => exact absurd rfl hs
    | item | rangeEnd => rfl
  | letter | term | atom =>
    rw [Fault.showing_delimiter _ _ rfl]
    rfl
  | @tooGreat o ps a low? digits hd h =>
    simp [reader, Reader.finish, Piece.escape?, Piece.mode, any_digitsValue?, h, Fault.showing, Draft.text, Piece.text]
  | @bound o ps a low? digits hd h =>
    rw [Fault.showing_delimiter _ _ rfl, Text.size_append]
    simp [reader, Reader.finish, Piece.escape?, Piece.mode, any_digitsValue?, Nat.not_lt.2 h]

theorem hasPhrases_of_finish {z : Draft} {p : Pattern} (h : z.reader.finish = .ok p) :
    ∃ d, z.HasPhrases [] d := by
  rcases z.hasPhrases_or_unfinished with hd | ⟨cause, front, shown, hz⟩
  · exact hd
  · cases hz.finish.symm.trans h

theorem HasPhrases.text {z : Draft} {d : Derivation} (hz : z.HasPhrases [] d) : z.text = Derivation.text d := by
  obtain rfl | ⟨front, a, rfl, rfl⟩ := hz <;>
    simp [Draft.text, Draft.front, outerText, Piece.text, Slot.text, Derivation.text, Phrase.text, Suffix.textOf]

theorem HasPhrases.depth {z : Draft} {d : Derivation} (hz : z.HasPhrases [] d) : z.depth = Derivation.depth d := by
  obtain rfl | ⟨front, a, rfl, rfl⟩ := hz <;>
    simp [Draft.depth, outerDepth, Piece.depth, Derivation.depth_append, Derivation.depth, Phrase.depth]

end Draft

theorem bind_eq_ok_iff {ε α β : Type} {x : Except ε α} {f : α → Except ε β} {b : β} :
    x.bind f = .ok b ↔ ∃ a, x = .ok a ∧ f a = .ok b := by
  cases x <;> simp [Except.bind]

/-- **The reader accepts the derivable texts**, those with a derivation whose groups are not nested too deeply, and
answers with the pattern that the derivation means. -/
theorem run_eq_ok_iff {nesting : Nat} {text : Text} {p : Pattern} :
    Reader.run nesting text = .ok p ↔
      ∃ d, Derivation.text d = text ∧ Derivation.depth d ≤ nesting ∧ Derivation.pattern d = p := by
  have hrun : Reader.run nesting text = .ok p ↔
      ∃ z, Draft.Reads nesting .initial text z ∧ z.reader.finish = .ok p := by
    rw [Reader.run, bind_eq_ok_iff]
    constructor
    · rintro ⟨r, hr, hp⟩
      obtain ⟨z, hz, rfl⟩ := (Draft.foldlM_step_eq_ok_iff (z := .initial)).1 hr
      exact ⟨z, hz, hp⟩
    · rintro ⟨z, hz, hp⟩
      exact ⟨z.reader, hz.run_scan, hp⟩
  rw [hrun]
  constructor
  · rintro ⟨z, hz, hp⟩
    obtain ⟨d, hd⟩ := Draft.hasPhrases_of_finish hp
    refine ⟨d, ?_, ?_, ?_⟩
    · rw [← hd.text, hz.text]
      rfl
    · rw [← hd.depth]
      exact hz.depth_le (Nat.zero_le _)
    · exact Except.ok.inj ((Draft.finish_of_hasPhrases hd).symm.trans hp)
  · rintro ⟨d, rfl, hn, rfl⟩
    obtain ⟨z, hz, hd⟩ := Draft.reads_derivation (o := []) d (by simpa using hn) (.inl rfl)
    exact ⟨z, hz, Draft.finish_of_hasPhrases hd⟩

theorem read_eq_ok_iff {text : Text} {limits : Limits} {p : Pattern} :
    Pattern.read text limits = .ok p ↔
      ∃ d, Derivation.text d = text ∧ Derivation.depth d ≤ limits.nesting ∧ Derivation.pattern d = p := by
  rw [← run_eq_ok_iff, Pattern.read]
  cases Reader.run limits.nesting text <;> simp [Except.mapError]

end Grammar

theorem Pattern.read_eq_ok_iff_run {text : Text} {limits : Limits} {p : Pattern} :
    Pattern.read text limits = .ok p ↔ Reader.run limits.nesting text = .ok p := by
  rw [Pattern.read]
  cases Reader.run limits.nesting text <;> simp [Except.mapError]

theorem Pattern.read_eq_error_iff_run {text : Text} {limits : Limits} {error : GrammarError} :
    Pattern.read text limits = .error error ↔
      ∃ fault, Reader.run limits.nesting text = .error fault ∧ ⟨fault.cause, fault.span, text⟩ = error := by
  rw [Pattern.read]
  cases Reader.run limits.nesting text <;> simp [Except.mapError]

open Grammar in
/-- **What a pattern text means.**  Reading it succeeds exactly when the text has a derivation with no more groups
nested in one another than the limit allows; the answer is then the pattern that the derivation means, with each run of
unquantified literals joined on every level.  And no text has two derivations. -/
theorem Pattern.read_iff_derivable (text : Text) (limits : Limits) :
    (∀ p, Pattern.read text limits = .ok p ↔
      ∃ d, Derivation.text d = text ∧ Derivation.depth d ≤ limits.nesting ∧ Derivation.pattern d = p) ∧
    ∀ d e, Derivation.text d = text → Derivation.text e = text → d = e := by
  exact ⟨fun p => read_eq_ok_iff, fun d e hd he => Derivation.eq_of_text_eq (hd.trans he.symm)⟩

open Grammar in
/-- The text `(ab)*` with one level of groups is read, and has one derivation. -/
theorem Pattern.read_iff_derivable_group : ∃ p, Pattern.read "(ab)*".toList ⟨1⟩ = .ok p ∧
    ∃ d, Derivation.text d = "(ab)*".toList ∧ Derivation.pattern d = p ∧
      ∀ e, Derivation.text e = "(ab)*".toList → e = d := by
  obtain ⟨hread, hunique⟩ := Pattern.read_iff_derivable "(ab)*".toList ⟨1⟩
  obtain ⟨p, hp⟩ : ∃ p, Pattern.read "(ab)*".toList ⟨1⟩ = .ok p := ⟨_, rfl⟩
  obtain ⟨d, hd, -, hdp⟩ := (hread p).1 hp
  exact ⟨p, hp, d, hd, hdp, fun e he => hunique e d he hd⟩

end PatternWalk
