import Mathlib.Logic.Function.Iterate
import PatternWalk.Patch
import PatternWalk.Proofs.Faults
/-!
# Fixing — suggested changes, made one after the other

Two causes come with a fix: an operator that lacks its backslash, and a range that is out of order.  Behind the place
of the change the text is as it was, and up to there it can be read now.  So a text with the change made is read, or it
fails further on.  It may fail at the very character that was written down: a backslash can turn an operator into the
end of a range, which is then out of order.  That range begins before the first error, and swapping its bounds is a
round of its own.  But it happens once for each character, so the rounds come to an end (`fixes_converge`).
-/
namespace PatternWalk

/-! ## Rounds -/

def Cause.HasFix (cause : Cause) : Prop := cause = .unescapedSpecial ∨ cause = .invalidRange

def GrammarError.mended? (e : GrammarError) : Option Text :=
  e.fix?.bind fun fix => Patch.applyTo? ⟨e.span, fix.replacement⟩ e.pattern

/-- **A round**: the suggested change is made, if there is an error that suggests one. -/
def Pattern.mend (limits : Limits) (text : Text) : Text :=
  match Pattern.read text limits with
  | .ok _ => text
  | .error e => e.mended?.getD text

def Pattern.IsSettled (limits : Limits) (text : Text) : Prop :=
  ∀ e, Pattern.read text limits = .error e → e.fix? = none

/-- The rounds that an error is good for at most.  What lies behind it counts twice, since an operator may have to be
put behind a backslash and then be swapped as the end of a range. -/
def GrammarError.roundsDue (e : GrammarError) : Nat :=
  2 * (e.pattern.size - e.span.stop) + if e.cause = .unescapedSpecial then 2 else 1

/-- **An error that is further on** than another: it ends later, and fewer rounds are due. -/
structure GrammarError.Further (e e' : GrammarError) : Prop where
  stop_lt : e.span.stop < e'.span.stop
  roundsDue_lt : e'.roundsDue < e.roundsDue

def Reader.AtDash (r : Reader) : Prop :=
  r.escape? = none ∧ ∃ opened set c start dash, r.mode = .dash opened set c start dash

theorem GrammarError.hasFix_of_fix? {e : GrammarError} (h : e.fix? ≠ none) : e.cause.HasFix := by
  obtain ⟨cause, span, pattern⟩ := e
  cases cause
  case unescapedSpecial => exact .inl rfl
  case invalidRange => exact .inr rfl
  all_goals exact absurd rfl h

theorem Patch.applyTo?_append (front shown rest replacement : Text) :
    applyTo? ⟨⟨front.size, (front ++ shown).size⟩, replacement⟩ (front ++ shown ++ rest) =
      some (front ++ replacement ++ rest) := by
  have htake : Text.takeBytes? (front ++ shown ++ rest) front.size = some front := by
    rw [List.append_assoc]
    exact Text.takeBytes?_append front _
  have hshown : Span.textIn? ⟨front.size, (front ++ shown).size⟩ (front ++ shown ++ rest) = some shown :=
    Text.slice?_append front shown rest
  have hdrop : Text.dropBytes? (front ++ shown ++ rest) (front ++ shown).size = some rest :=
    Text.dropBytes?_append _ rest
  unfold applyTo?
  dsimp only
  rw [htake, hshown, hdrop]
  rfl

namespace Grammar

/-! ## The dash of a range is found -/

theorem splitRange?_letter (s : Text) : ∀ l : Letter, GrammarError.splitRange? false (l.text ++ s) =
    (GrammarError.splitRange? false s).map fun (low, high) => (l.text ++ low, high)
  | .plain c hc => by
    obtain ⟨hspecial, hescape⟩ := notMem_of_ordinary hc
    have hdash : c ≠ '-' := by
      rintro rfl
      exact hspecial (by decide)
    rw [Letter.text, List.singleton_append, GrammarError.splitRange?]
    · rfl
    · simpa using hdash
    · simpa using hescape
  | .escaped c hc => by
    rw [Letter.text, List.cons_append, List.singleton_append, GrammarError.splitRange?, GrammarError.splitRange?,
      Option.map_map]
    · rfl
    · simp
    · simp

/-- **A range is cut between its letters**, also where they are dashes or backslashes themselves. -/
theorem splitRange?_range (low high : Letter) :
    GrammarError.splitRange? false (low.text ++ '-' :: high.text) = some (low.text, high.text) := by
  rw [splitRange?_letter]
  simp [GrammarError.splitRange?]

variable {nesting : Nat} {text front shown : Text} {cause : Cause}

namespace Draft

/-! ## What stands before a change is read -/

variable {o : List Derivation} {ps : Derivation} {z : Draft} {c : Char}

theorem reads_front : ∀ (o : List Derivation) (ps : Derivation),
    max (outerDepth o) (Derivation.depth ps + o.length) ≤ nesting →
      ∃ y, Reads nesting .initial (Draft.front o ps) y ∧ y.HasPhrases o ps
  | [], ps, h => by
    have hdepth : ps.depth + ([] : List Derivation).length ≤ nesting := (Nat.le_max_right _ _).trans h
    exact reads_derivation ps hdepth (.inl rfl)
  | before :: o, ps, h => by
    simp only [outerDepth, List.length_cons] at h
    obtain ⟨y, hy, hbefore⟩ := reads_front o before (by omega)
    have hopen : y.Moves nesting '(' ⟨before :: o, [], .slot .term false⟩ := hbefore.moves rfl (.openGroup (by omega))
    have hdepth : ps.depth + (before :: o).length ≤ nesting := by
      rw [List.length_cons]
      omega
    obtain ⟨z, hz, hps⟩ : ∃ z, Reads nesting ⟨before :: o, [], .slot .term false⟩ (Derivation.text ps) z ∧
      z.HasPhrases (before :: o) ps := reads_derivation ps hdepth (.inl rfl)
    refine ⟨z, ?_, hps⟩
    simpa [Draft.front, outerText] using hy.trans (.move hopen hz)

theorem reads_openSet (hdepth : (⟨o, ps, .slot .term false⟩ : Draft).depth ≤ nesting) (items : List Item) :
    ∃ y, Reads nesting .initial (Draft.front o ps ++ '[' :: items.flatMap Item.text) y ∧ y.HasItems o ps items := by
  obtain ⟨x, hx, hphrases⟩ := reads_front o ps (by simpa [depth, Piece.depth] using hdepth)
  have hopen : x.Moves nesting '[' ⟨o, ps, .slot (.item []) false⟩ := hphrases.moves rfl .openSet
  obtain ⟨y, hy, hitems⟩ : ∃ y, Reads nesting ⟨o, ps, .slot (.item []) false⟩ (items.flatMap Item.text) y ∧
    y.HasItems o ps items := reads_items items (.inl rfl)
  exact ⟨y, hx.trans (.move hopen hy), hitems⟩

theorem HasItems.reads_low {items : List Item} (hz : z.HasItems o ps items) (l : Letter) :
    Reads nesting z l.text ⟨o, ps, .letter items l⟩ := by
  have hdash : l.text.head? ≠ some '-' := by simpa using l.head?_ne [] rfl
  exact hz.reads (Item.member l).text_ne_nil hdash (reads_letter l rfl)

theorem reads_backslash (hdepth : (⟨o, ps, .slot .term false⟩ : Draft).depth ≤ nesting) : ∀ s : Slot,
    Reads nesting .initial (Draft.front o ps ++ s.text ++ ['\\']) ⟨o, ps, .slot s true⟩
  | .term => by
    obtain ⟨y, hy, hphrases⟩ := reads_front o ps (by simpa [depth, Piece.depth] using hdepth)
    rw [Slot.text, List.append_nil]
    exact hy.trans (hphrases.moves rfl .backslash).reads
  | .item items => by
    obtain ⟨y, hy, hitems⟩ := reads_openSet hdepth items
    exact hy.trans (hitems.moves (by decide) .backslash).reads
  | .rangeEnd items low => by
    obtain ⟨y, hy, hitems⟩ := reads_openSet hdepth items
    have hrange := hy.trans ((hitems.reads_low low).trans (.move .dash Moves.backslash.reads))
    simpa [Slot.text] using hrange

theorem reads_range (hdepth : (⟨o, ps, .slot .term false⟩ : Draft).depth ≤ nesting) (items : List Item)
    {low high : Letter} (h : low.char ≤ high.char) : ∃ y,
      Reads nesting .initial (Draft.front o ps ++ '[' :: items.flatMap Item.text ++ (low.text ++ '-' :: high.text)) y ∧
        y.HasItems o ps (items ++ [.range low high h]) := by
  obtain ⟨x, hx, hitems⟩ := reads_openSet hdepth items
  obtain ⟨y, hy, hrange⟩ := reads_item hitems (.range low high h)
  exact ⟨y, hx.trans hy, hrange⟩

/-! ## What is refused, and what is read after the change -/

/-- **An operator that lacks a backslash can have one.** -/
theorem Refuses.unescaped (h : z.Refuses nesting c cause front shown) (hcause : cause = .unescapedSpecial)
    (hdepth : z.depth ≤ nesting) : ∃ d o ps s, shown = [d] ∧ Text.isSpecial d = true ∧
      Reads nesting .initial (front ++ ['\\']) ⟨o, ps, .slot s true⟩ := by
  induction h with
  | @dash o ps =>
    have hread := reads_backslash hdepth .term
    rw [Slot.text, List.append_nil] at hread
    exact ⟨'-', o, ps, .term, rfl, rfl, hread⟩
  | @special o ps s c hs hc hne => exact ⟨c, o, ps, s, rfl, hc, reads_backslash hdepth s⟩
  | @openRange o ps items low =>
    -- the dash may be a member, as the letter before it may
    have hread := reads_backslash hdepth (.item (items ++ [.member low]))
    refine ⟨'-', o, ps, .item (items ++ [.member low]), rfl, rfl, ?_⟩
    simpa [Slot.text, Item.text] using hread
  | endTerm hc h ih => exact ih hcause (by rwa [depth_endTerm])
  | endItem hc h ih => exact ih hcause hdepth
  | _ => cases hcause

/-- **A range that is out of order can be read the other way round.** -/
theorem Refuses.swapped (h : z.Refuses nesting c cause front shown) (hcause : cause = .invalidRange)
    (hdepth : z.depth ≤ nesting) : ∃ (low high : Letter) (o : List Derivation) (ps : Derivation) (items : List Item)
      (y : Draft), shown = low.text ++ '-' :: high.text ∧
        Reads nesting .initial (front ++ (high.text ++ '-' :: low.text)) y ∧ y.HasItems o ps items := by
  induction h with
  | @disordered o ps items low c hc hlt =>
    have hle : (Letter.plain c hc).char ≤ low.char := UInt32.le_of_lt hlt
    obtain ⟨y, hy, hrange⟩ := reads_range hdepth items hle
    exact ⟨low, .plain c hc, o, ps, _, y, rfl, hy, hrange⟩
  | @escapedDisordered o ps items low c hc hlt =>
    have hle : (Letter.escaped c hc).char ≤ low.char := UInt32.le_of_lt hlt
    obtain ⟨y, hy, hrange⟩ := reads_range hdepth items hle
    exact ⟨low, .escaped c hc, o, ps, _, y, rfl, hy, hrange⟩
  | endTerm hc h ih => exact ih hcause (by rwa [depth_endTerm])
  | endItem hc h ih => exact ih hcause hdepth
  | _ => cases hcause

/-! ## Faults further on -/

/-- **Where a fault with a fix ends**: with the character that is refused, or before it, with the dash of a range. -/
theorem Refuses.stop (h : z.Refuses nesting c cause front shown) (hcause : cause.HasFix) :
    front ++ shown = z.text ++ [c] ∨ front ++ shown = z.text ∧ z.reader.AtDash := by
  induction h with
  | dash | special | disordered | escapedDisordered =>
    left
    simp [Draft.text, Piece.text, Slot.text, Letter.text]
  | openRange =>
    right
    exact ⟨by simp [Draft.text, Piece.text, Slot.text], rfl, _, _, _, _, _, rfl⟩
  | endTerm hc h ih =>
    rw [text_endTerm]
    rcases ih hcause with hstop | ⟨-, -, _, _, _, _, _, hmode⟩
    · exact .inl hstop
    · cases hmode
  | endItem hc h ih =>
    rw [text_endItem]
    rcases ih hcause with hstop | ⟨-, -, _, _, _, _, _, hmode⟩
    · exact .inl hstop
    · cases hmode
  | _ => rcases hcause with hcause | hcause <;> cases hcause

theorem Refuses.not_reads {s u : Text} (h : z.Refuses nesting c cause front shown) (hz : Reads nesting .initial s z)
    {y : Draft} : ¬ Reads nesting .initial (s ++ c :: u) y := by
  intro hy
  obtain ⟨x, hx, hrest⟩ := hy.exists_of_append
  cases hrest with
  | move hm _ =>
    have hreader : x.reader = z.reader := Except.ok.inj (hx.run_scan.symm.trans hz.run_scan)
    have hmoves := hm.step
    rw [hreader, hx.text_initial, ← hz.text_initial, h.step] at hmoves
    cases hmoves

theorem not_atDash_of_fill {s : Slot} {l : Letter} {p : Piece} (h : s.fill l = some p) :
    ¬ (⟨o, ps, p⟩ : Draft).reader.AtDash := by
  rintro ⟨-, _, _, _, _, _, hmode⟩
  cases s with
  | term | item =>
    cases h
    cases hmode
  | rangeEnd items low =>
    rw [Slot.fill] at h
    split at h
    · cases h
      cases hmode
    · cases h

theorem HasItems.not_atDash {items : List Item} (h : z.HasItems o ps items) : ¬ z.reader.AtDash := by
  rintro ⟨-, _, _, _, _, _, hmode⟩
  obtain rfl | ⟨front, l, rfl, -⟩ := h
  · cases hmode
  · cases hmode

end Draft

/-- **A text fails behind what can be read of it**, if its fault has a fix and no dash stands there. -/
theorem Fails.further {p rest : Text} {y : Draft} (h : Fails nesting (p ++ rest) cause front shown)
    (hcause : cause.HasFix) (hy : Draft.Reads nesting .initial p y) (hdash : ¬ y.reader.AtDash) :
    p.size < (front ++ shown).size := by
  cases h with
  | unfinished hz h => rcases hcause with rfl | rfl <;> cases h
  | @refused s c tail z _ _ _ htext hz h =>
    have hle : p.size ≤ s.size := by
      by_contra hlt
      obtain ⟨u, rfl, hu⟩ := Text.exists_append_of_size_le htext.symm (Nat.le_of_not_le hlt)
      cases u with
      | nil => simp at hlt
      | cons d u =>
        obtain ⟨rfl, -⟩ := List.cons.inj hu
        exact h.not_reads hz hy
    rcases h.stop hcause with hstop | ⟨hstop, hat⟩
    · have hpos := c.utf8Size_pos
      rw [hstop, hz.text_initial, Text.size_append, Text.size_cons]
      omega
    · rw [hstop, hz.text_initial]
      refine Nat.lt_of_le_of_ne hle fun heq => ?_
      obtain ⟨u, rfl, -⟩ := Text.exists_append_of_size_le htext hle
      obtain rfl : u = [] := by
        by_contra hu
        have := Text.size_pos hu
        rw [Text.size_append] at heq
        omega
      rw [List.append_nil] at hz
      rw [Except.ok.inj (hz.run_scan.symm.trans hy.run_scan)] at hat
      exact hdash hat

theorem Fails.size_le (h : Fails nesting text cause front shown) : (front ++ shown).size ≤ text.size := by
  obtain ⟨rest, rfl⟩ := h.text_eq
  rw [Text.size_append _ rest]
  exact Nat.le_add_right _ _

theorem Fails.eq_of_fails {cause' : Cause} {front' shown' : Text} (h : Fails nesting text cause front shown)
    (h' : Fails nesting text cause' front' shown') :
    cause' = cause ∧ (front' ++ shown').size = (front ++ shown).size := by
  have hfault := Except.error.inj (h'.run.symm.trans h.run)
  simp only [Fault.showing, Fault.mk.injEq, Span.mk.injEq] at hfault
  exact ⟨hfault.1, hfault.2.2⟩

theorem Fails.exists_refused (h : Fails nesting text cause front shown) (hcause : cause.HasFix) :
    ∃ (z : Draft) (c : Char), z.depth ≤ nesting ∧ z.Refuses nesting c cause front shown := by
  cases h with
  | unfinished hz h => rcases hcause with rfl | rfl <;> cases h
  | @refused s c tail z _ _ _ htext hz h => exact ⟨z, c, hz.depth_le (Nat.zero_le _), h⟩

theorem Fails.further_of_unescaped {rest : Text} {cause' : Cause} {front' shown' : Text}
    (h : Fails nesting text .unescapedSpecial front shown)
    (h' : Fails nesting (front ++ '\\' :: shown ++ rest) cause' front' shown') (hcause : cause'.HasFix) :
    (front ++ '\\' :: shown).size < (front' ++ shown').size ∨
      cause' = .invalidRange ∧ (front' ++ shown').size = (front ++ '\\' :: shown).size := by
  obtain ⟨z, c, hdepth, hrefused⟩ := h.exists_refused (.inl rfl)
  obtain ⟨d, o, ps, s, rfl, hd, hread⟩ := hrefused.unescaped rfl hdepth
  have hneeds : Text.needsEscape d = true := by rw [Text.needsEscape, hd, Bool.or_true]
  rcases Draft.fill_or_disordered s (.escaped d hneeds) with ⟨p, hp⟩ | ⟨items, low, rfl, hlt⟩
  · left
    have hreads := hread.trans (Draft.Moves.escaped hneeds hp).reads
    rw [List.append_assoc] at hreads
    exact h'.further hcause hreads (Draft.not_atDash_of_fill hp)
  · right
    have hrange : Draft.Refuses nesting ⟨o, ps, .slot (.rangeEnd items low) true⟩ d .invalidRange _ _ :=
      .escapedDisordered hneeds hlt
    have htext : front ++ '\\' :: [d] ++ rest = front ++ ['\\'] ++ d :: rest := by simp
    obtain ⟨rfl, hsize⟩ := (Fails.refused htext hread hrange).eq_of_fails h'
    rcases hrange.stop (.inr rfl) with hstop | ⟨-, hescape, -⟩
    · refine ⟨rfl, ?_⟩
      rw [hsize, hstop, hread.text_initial, List.append_assoc, List.singleton_append]
    · cases hescape

theorem Fails.further_of_swapped (h : Fails nesting text .invalidRange front shown) : ∃ low high : Letter,
    shown = low.text ++ '-' :: high.text ∧ ∀ {rest : Text} {cause' : Cause} {front' shown' : Text},
      Fails nesting (front ++ (high.text ++ '-' :: low.text) ++ rest) cause' front' shown' → cause'.HasFix →
        (front ++ shown).size < (front' ++ shown').size := by
  obtain ⟨z, c, hdepth, hrefused⟩ := h.exists_refused (.inr rfl)
  obtain ⟨low, high, o, ps, items, y, rfl, hread, hitems⟩ := hrefused.swapped rfl hdepth
  refine ⟨low, high, rfl, fun h' hcause => ?_⟩
  have hlt := h'.further hcause hread hitems.not_atDash
  simp only [Text.size_append, Text.size_cons] at hlt ⊢
  omega

end Grammar

/-! ## Rounds come to an end -/

theorem GrammarError.Further.of_behind_lt {e e' : GrammarError} (hstop : e.span.stop < e'.span.stop)
    (hbehind : e'.pattern.size - e'.span.stop < e.pattern.size - e.span.stop) : e.Further e' := by
  refine ⟨hstop, ?_⟩
  unfold roundsDue
  split <;> split <;> omega

namespace Pattern

variable {text : Text} {limits : Limits} {e : GrammarError}

open Grammar in
/-- **One round**: the error has a fix, and with the change made the next error that has one is further on. -/
theorem exists_fix (h : Pattern.read text limits = .error e) (hcause : e.cause.HasFix) :
    ∃ fix text', e.fix? = some fix ∧ Patch.applyTo? ⟨e.span, fix.replacement⟩ text = some text' ∧
      ∀ e', Pattern.read text' limits = .error e' → e'.cause.HasFix → e.Further e' := by
  obtain ⟨cause, front, shown, hfails, rfl⟩ := read_eq_error_iff.1 h
  have hfragment := hfails.fragment
  obtain ⟨rest, rfl⟩ := hfails.text_eq
  rcases hcause with rfl | rfl
  · refine ⟨_, front ++ '\\' :: shown ++ rest, rfl, ?_, fun e' he' hcause' => ?_⟩
    · rw [hfragment]
      exact Patch.applyTo?_append _ _ _ _
    · obtain ⟨cause', front', shown', hfails', rfl⟩ := read_eq_error_iff.1 he'
      have hle := hfails'.size_le
      have hback : Char.utf8Size '\\' = 1 := rfl
      rcases hfails.further_of_unescaped hfails' hcause' with hlt | ⟨rfl, heq⟩
      · simp only [Text.size_append, Text.size_cons] at hlt hle
        refine .of_behind_lt ?_ ?_ <;> simp only [Text.size_append, Text.size_cons] <;> omega
      · simp only [Text.size_append, Text.size_cons] at heq hle
        refine ⟨?_, ?_⟩
        · simp only [Text.size_append]
          omega
        · rw [GrammarError.roundsDue, GrammarError.roundsDue, if_neg (by simp), if_pos rfl]
          simp only [Text.size_append, Text.size_cons]
          omega
  · obtain ⟨low, high, rfl, hfurther⟩ := hfails.further_of_swapped
    have hsplit := (congrArg (GrammarError.splitRange? false) hfragment).trans (splitRange?_range low high)
    refine ⟨_, front ++ (high.text ++ '-' :: low.text) ++ rest, congrArg (Option.map _) hsplit, ?_,
      fun e' he' hcause' => ?_⟩
    · exact Patch.applyTo?_append _ _ _ _
    · obtain ⟨cause', front', shown', hfails', rfl⟩ := read_eq_error_iff.1 he'
      have hle := hfails'.size_le
      have hlt := hfurther hfails' hcause'
      simp only [Text.size_append, Text.size_cons] at hlt hle
      refine .of_behind_lt ?_ ?_ <;> simp only [Text.size_append, Text.size_cons] <;> omega

theorem mend_eq {fix : Fix} {text' : Text} (h : Pattern.read text limits = .error e) (hfix : e.fix? = some fix)
    (htext : Patch.applyTo? ⟨e.span, fix.replacement⟩ text = some text') : mend limits text = text' := by
  obtain ⟨rfl, -⟩ := evidence_of_read h
  unfold mend
  rw [h]
  dsimp only
  rw [GrammarError.mended?, hfix, Option.bind_some, htext, Option.getD_some]

/-- **Rounds come to an end**, after no more of them than are due. -/
theorem exists_isSettled (limits : Limits) : ∀ (due : Nat) (text : Text),
    (∀ e, Pattern.read text limits = .error e → e.cause.HasFix → e.roundsDue ≤ due) →
      ∃ rounds ≤ due, IsSettled limits ((mend limits)^[rounds] text)
  | due, text, hdue => by
    by_cases hsettled : IsSettled limits text
    · exact ⟨0, Nat.zero_le _, hsettled⟩
    · obtain ⟨e, he, hfix⟩ : ∃ e, Pattern.read text limits = .error e ∧ e.fix? ≠ none := by
        simpa [IsSettled] using hsettled
      have hcause := GrammarError.hasFix_of_fix? hfix
      have hle := hdue e he hcause
      obtain ⟨fix, text', hfix, htext', hfurther⟩ := exists_fix he hcause
      cases due with
      | zero =>
        rw [GrammarError.roundsDue] at hle
        split at hle <;> omega
      | succ due =>
        have hdue' : ∀ e', Pattern.read text' limits = .error e' → e'.cause.HasFix → e'.roundsDue ≤ due := by
          intro e' he' hcause'
          exact Nat.le_of_lt_succ ((hfurther e' he' hcause').roundsDue_lt.trans_le hle)
        obtain ⟨rounds, hrounds, hend⟩ := exists_isSettled limits due text' hdue'
        refine ⟨rounds + 1, Nat.succ_le_succ hrounds, ?_⟩
        rw [Function.iterate_succ_apply, mend_eq he hfix htext']
        exact hend

theorem roundsDue_le (h : Pattern.read text limits = .error e) : e.roundsDue ≤ 2 * text.size := by
  obtain ⟨rfl, hlt, -, hstop, -⟩ := evidence_of_read h
  have hle := hstop.le
  rw [GrammarError.roundsDue]
  split <;> omega

/-- **Suggested changes work, and there is an end to them.**  An error for an operator that lacks its backslash or for
a range that is out of order suggests a change, and the change can be made.  Then the text is read, or its error
suggests nothing, or the error ends later than the one before.  And rounds of such changes, no more of them than twice
the bytes of the text, lead to a text that is read or whose error suggests nothing. -/
theorem fixes_converge (limits : Limits) (text : Text) :
    (∀ e, Pattern.read text limits = .error e → e.cause = .unescapedSpecial ∨ e.cause = .invalidRange →
      ∃ fix text', e.fix? = some fix ∧ Patch.applyTo? ⟨e.span, fix.replacement⟩ text = some text' ∧
        ((∃ p, Pattern.read text' limits = .ok p) ∨
          ∃ e', Pattern.read text' limits = .error e' ∧ (e'.fix? = none ∨ e.span.stop < e'.span.stop))) ∧
    ∃ rounds ≤ 2 * text.size, (∃ p, Pattern.read ((mend limits)^[rounds] text) limits = .ok p) ∨
      ∃ e, Pattern.read ((mend limits)^[rounds] text) limits = .error e ∧ e.fix? = none := by
  refine ⟨fun e he hcause => ?_, ?_⟩
  · obtain ⟨fix, text', hfix, htext', hfurther⟩ := exists_fix he hcause
    refine ⟨fix, text', hfix, htext', ?_⟩
    cases hread : Pattern.read text' limits with
    | ok p => exact .inl ⟨p, rfl⟩
    | error e' =>
      refine .inr ⟨e', rfl, ?_⟩
      by_cases hfix' : e'.fix? = none
      · exact .inl hfix'
      · exact .inr (hfurther e' hread (GrammarError.hasFix_of_fix? hfix')).stop_lt
  · obtain ⟨rounds, hle, hsettled⟩ := exists_isSettled limits (2 * text.size) text fun e he _ => roundsDue_le he
    refine ⟨rounds, hle, ?_⟩
    cases hread : Pattern.read ((mend limits)^[rounds] text) limits with
    | ok p => exact .inl ⟨p, rfl⟩
    | error e => exact .inr ⟨e, rfl, hsettled e hread⟩

/-- In `[a-*]` the operator gets a backslash; then the range `a-\*`, which begins earlier, has its bounds swapped. -/
theorem fixes_converge_range : ∃ e e' fix, Pattern.read "[a-*]".toList = .error e ∧ e.cause = .unescapedSpecial ∧
    e.fix? = some fix ∧ Patch.applyTo? ⟨e.span, fix.replacement⟩ "[a-*]".toList = some "[a-\\*]".toList ∧
    Pattern.read "[a-\\*]".toList = .error e' ∧ e'.cause = .invalidRange ∧ e'.span.start < e.span.start ∧
    e.span.stop < e'.span.stop ∧ (mend {})^[2] "[a-*]".toList = "[\\*-a]".toList ∧
    ∃ p, Pattern.read "[\\*-a]".toList = .ok p := by
  have hread : Pattern.read "[a-*]".toList = .error ⟨.unescapedSpecial, ⟨3, 4⟩, "[a-*]".toList⟩ := by decide +kernel
  have hread' : Pattern.read "[a-\\*]".toList = .error ⟨.invalidRange, ⟨1, 5⟩, "[a-\\*]".toList⟩ := by
    decide +kernel
  have hmend : (mend {})^[2] "[a-*]".toList = "[\\*-a]".toList := by decide +kernel
  obtain ⟨fix, text', hfix, htext', hnext⟩ := (fixes_converge {} _).1 _ hread (.inl rfl)
  have hmended : Patch.applyTo? ⟨⟨3, 4⟩, fix.replacement⟩ "[a-*]".toList = some "[a-\\*]".toList := by
    obtain rfl := Option.some.inj hfix
    decide +kernel
  obtain rfl := Option.some.inj (htext'.symm.trans hmended)
  rcases hnext with ⟨p, hp⟩ | ⟨e', he', hlater⟩
  · cases hp.symm.trans hread'
  · obtain rfl := Except.error.inj (hread'.symm.trans he')
    rcases hlater with hnone | hlt
    · exact absurd hnone (by decide +kernel)
    · exact ⟨_, _, fix, hread, rfl, hfix, hmended, hread', rfl, by decide, hlt, hmend, _, rfl⟩

end Pattern

end PatternWalk
