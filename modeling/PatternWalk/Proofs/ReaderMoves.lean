import PatternWalk.Proofs.Refusals
/-!
# ReaderMoves — the reader makes the moves of drafts

The reader takes a character when a draft has a move with it, and is then in the state of the draft that the move leads
to.  Otherwise the draft refuses the character, and the reader stops with the fault that shows it.  So a step of the
reader is a move of the draft it has read (`step_eq_ok_iff`).
-/
namespace PatternWalk

def Fault.showing (cause : Cause) (front shown : Text) : Fault := ⟨cause, ⟨front.size, (front ++ shown).size⟩⟩

theorem Fault.showing_delimiter (cause : Cause) (front : Text) {c : Char} (hc : c.utf8Size = 1) :
    showing cause front [c] = ⟨cause, Reader.delimiter front.size⟩ := by
  rw [showing, Text.size_append, Text.size_cons, hc]
  rfl

/-! ## Faults between braces -/

namespace Reader

variable {r : Reader} {node : Node} {start opened value : Nat} {first? : Option UInt32} {t : Token}

theorem takeBound_noDigits (hc : t.char.isDigit = false) :
    r.takeBound node start opened first? none t = .error ⟨.invalidQuantifierBounds, ⟨opened, t.stop⟩⟩ := by
  unfold takeBound
  rw [if_neg (by simp [hc])]

theorem takeBound_tooGreat (hc : t.char.isDigit = false) (h : greatestBound < value) :
    r.takeBound node start opened first? (some value) t =
      .error ⟨.invalidQuantifierBounds, ⟨opened, r.reached⟩⟩ := by
  unfold takeBound
  rw [if_neg (by simp [hc])]
  exact if_pos h

theorem takeBound_unmarked (hc : t.char.isDigit = false) (hfits : value ≤ greatestBound)
    (hne : t.char ≠ match first? with | none => ',' | some _ => '}') :
    r.takeBound node start opened first? (some value) t =
      .error ⟨.invalidQuantifierBounds, ⟨opened, t.stop⟩⟩ := by
  unfold takeBound
  rw [if_neg (by simp [hc])]
  dsimp only
  rw [if_neg (Nat.not_lt.2 hfits)]
  split
  · rename_i hcomma
    exact absurd hcomma hne
  · rename_i hbrace
    exact absurd hbrace hne
  · rfl

theorem takeBound_below {low : UInt32} {offset : Nat} (hfits : value ≤ greatestBound) (h : ¬ low ≤ value.toUInt32) :
    r.takeBound node start opened (some low) (some value) ⟨'}', offset⟩ =
      .error ⟨.quantifierMinExceedsMax, ⟨opened, (⟨'}', offset⟩ : Token).stop⟩⟩ := by
  have hbrace : ¬ (⟨'}', offset⟩ : Token).char.isDigit = true := Bool.false_ne_true
  unfold takeBound
  rw [if_neg hbrace]
  dsimp only
  rw [if_neg (Nat.not_lt.2 hfits)]
  exact if_neg h

end Reader

namespace Grammar
namespace Draft

variable {nesting : Nat} {z z' : Draft} {c : Char}

/-! ## Moves of the reader -/

theorem step_of_take (hz : z'.text = z.text ++ [c])
    (ht : z.reader.take nesting ⟨c, z.text.size⟩ = .ok { z'.reader with reached := z.text.size }) :
    Reader.step nesting z.reader ⟨c, z.text.size⟩ = .ok z'.reader := by
  have hsize : z.text.size + c.utf8Size = z'.reader.reached := by simp [reader, hz]
  rw [Reader.step, ht]
  change Except.ok { z'.reader with reached := z.text.size + c.utf8Size } = _
  rw [hsize]

theorem letter_of_fill {o : List Derivation} {ps : Derivation} {s : Slot} {l : Letter} {p : Piece} (b : Bool)
    (start stop : Nat) (hstart : start = (front o ps).size + s.text.size) (hp : s.fill l = some p) :
    { (⟨o, ps, .slot s b⟩ : Draft).reader with escape? := none }.letter l.char start stop =
      .ok { (⟨o, ps, p⟩ : Draft).reader with reached := (⟨o, ps, .slot s b⟩ : Draft).text.size } := by
  subst hstart
  cases s with
  | term =>
    cases hp
    rfl
  | item items =>
    cases hp
    rfl
  | rangeEnd items low =>
    rw [Slot.fill] at hp
    split at hp
    · rename_i h
      cases hp
      simp [reader, Reader.letter, Piece.mode, Piece.escape?, h, Item.charSet_concat_range]
    · cases hp

theorem settle_atom (o : List Derivation) (ps : Derivation) (a : Atom) :
    (⟨o, ps, .atom a⟩ : Draft).reader.settle = (⟨o, ps ++ [⟨a, none⟩], .slot .term false⟩ : Draft).reader := by
  simp [reader, Reader.settle, Reader.push, Piece.mode, Piece.escape?, size_text, size_front, Piece.text, Slot.text,
    Derivation.terms_append, Derivation.terms, Derivation.text, Phrase.term, Phrase.text, Suffix.textOf,
    Suffix.quantifierOf, Nat.add_assoc]

theorem settle_letter (o : List Derivation) (ps : Derivation) (items : List Item) (l : Letter) :
    (⟨o, ps, .letter items l⟩ : Draft).reader.settle =
      (⟨o, ps, .slot (.item (items ++ [.member l])) false⟩ : Draft).reader := by
  simp [reader, Reader.settle, Piece.mode, Piece.escape?, text, Piece.text, Slot.text, Item.text,
    Item.charSet_concat_member]

theorem push_suffix {o : List Derivation} {ps : Derivation} {a : Atom} {p : Piece} (q : Suffix) {stop : Nat}
    (hp : p.escape? (front o ps).size = none) (hstop : stop = (front o ps).size + (a.text ++ q.text).size) :
    (⟨o, ps, p⟩ : Draft).reader.push (a.node (front o ps).size) q.quantifier (front o ps).size stop =
      { (⟨o, ps ++ [⟨a, some q⟩], .slot .term false⟩ : Draft).reader with
        reached := (⟨o, ps, p⟩ : Draft).text.size } := by
  have hslot : ∀ n, Piece.escape? n (.slot .term false) = none := fun _ => rfl
  rw [size_front] at hp hstop
  simp [reader, Reader.push, Piece.mode, hp, hslot, hstop, Derivation.terms_append, Derivation.terms, Phrase.term,
    Suffix.textOf, Suffix.quantifierOf, size_front]

theorem take_atom {r : Reader} {t : Token} {node : Node} {start : Nat} (hescape : r.escape? = none)
    (hmode : r.mode = .atom node start) (hkind : t.kind.startsQuantifier = false) :
    r.take nesting t = r.settle.begin nesting t := by
  unfold Reader.take
  rw [hescape, hmode]
  dsimp only
  split
  case h_5 => rfl
  all_goals
    rename_i hk
    rw [hk] at hkind
    cases hkind

theorem take_low {r : Reader} {t : Token} {opened : Nat} {set : CharSet} {low : Char} {start : Nat}
    (hescape : r.escape? = none) (hmode : r.mode = .low opened set low start) (hkind : t.kind ≠ .dash) :
    r.take nesting t = r.settle.beginItem opened (set.insert low) t := by
  unfold Reader.take
  rw [hescape, hmode]
  dsimp only
  split
  · rename_i hk
    exact absurd hk hkind
  · rfl

theorem step_endTerm {o : List Derivation} {ps : Derivation} {a : Atom}
    (hc : (Token.Kind.ofChar c).startsQuantifier = false) :
    Reader.step nesting (⟨o, ps, .atom a⟩ : Draft).reader ⟨c, (⟨o, ps, .atom a⟩ : Draft).text.size⟩ =
      Reader.step nesting (⟨o, ps ++ [⟨a, none⟩], .slot .term false⟩ : Draft).reader
        ⟨c, (⟨o, ps ++ [⟨a, none⟩], .slot .term false⟩ : Draft).text.size⟩ := by
  have hreached := congrArg Reader.reached (settle_atom o ps a)
  change (⟨o, ps, .atom a⟩ : Draft).text.size = _ at hreached
  rw [Reader.step, Reader.step, ← settle_atom, hreached]
  congr 1
  exact take_atom rfl rfl hc

theorem step_endItem {o : List Derivation} {ps : Derivation} {items : List Item} {l : Letter} (hc : c ≠ '-') :
    Reader.step nesting (⟨o, ps, .letter items l⟩ : Draft).reader ⟨c, (⟨o, ps, .letter items l⟩ : Draft).text.size⟩ =
      Reader.step nesting (⟨o, ps, .slot (.item (items ++ [.member l])) false⟩ : Draft).reader
        ⟨c, (⟨o, ps, .slot (.item (items ++ [.member l])) false⟩ : Draft).text.size⟩ := by
  have hreached := congrArg Reader.reached (settle_letter o ps items l)
  change (⟨o, ps, .letter items l⟩ : Draft).text.size = _ at hreached
  have hkind : Token.Kind.ofChar c ≠ .dash := fun h => hc (eq_of_kind_dash h)
  rw [Reader.step, Reader.step, ← settle_letter, hreached]
  congr 1
  exact take_low rfl rfl hkind

theorem take_plain {o : List Derivation} {ps : Derivation} {s : Slot} (start : Nat)
    (hc : Text.needsEscape c = false) :
    (⟨o, ps, .slot s false⟩ : Draft).reader.take nesting ⟨c, start⟩ =
      (⟨o, ps, .slot s false⟩ : Draft).reader.letter c start (start + c.utf8Size) := by
  cases s <;> simp [Reader.take, reader, Piece.escape?, Piece.mode, Reader.begin, Reader.beginItem, Reader.endRange,
    Token.kind, kind_of_ordinary hc, Token.stop]

theorem take_escaped {o : List Derivation} {ps : Derivation} {s : Slot} (start : Nat)
    (hc : Text.needsEscape c = true) :
    (⟨o, ps, .slot s true⟩ : Draft).reader.take nesting ⟨c, start⟩ =
      { (⟨o, ps, .slot s true⟩ : Draft).reader with escape? := none }.letter c ((front o ps).size + s.text.size)
        (start + c.utf8Size) := by
  simp [Reader.take, reader, Piece.escape?, Reader.takeEscaped, Token.kind, isEscapable_ofChar, hc, Token.stop]

/-- **The reader makes every move.** -/
theorem Moves.step (h : Moves nesting z c z') : Reader.step nesting z.reader ⟨c, z.text.size⟩ = .ok z'.reader := by
  have htext := h.text
  induction h with
  | @plain o ps s c p hc hp =>
    exact step_of_take htext ((take_plain _ hc).trans (letter_of_fill false _ _ (size_text _) hp))
  | @escaped o ps s c p hc hp =>
    exact step_of_take htext ((take_escaped _ hc).trans (letter_of_fill true _ _ rfl hp))
  | @backslash o ps s =>
    refine step_of_take htext ?_
    cases s <;> simp [reader, Reader.take, Piece.escape?, Piece.mode, Reader.begin, Reader.beginItem, Reader.endRange,
      Token.kind, Token.Kind.ofChar, size_text, Piece.text]
  | @openGroup o ps h =>
    refine step_of_take htext ?_
    have hn : ¬ nesting ≤ o.length := by omega
    simp [reader, Reader.take, Piece.escape?, Piece.mode, Reader.begin, Token.kind, Token.Kind.ofChar, hn,
      openGroups, size_text, Piece.text, Slot.text, Derivation.terms]
  | @closeGroup o before first body =>
    refine step_of_take htext ?_
    -- the body starts one byte behind its opening parenthesis
    have hopen : (outerText (before :: o)).size = (front o before).size + 1 := by
      simp [outerText, front]
      rfl
    simp [reader, Reader.take, Piece.escape?, Piece.mode, Reader.begin, Token.kind, Token.Kind.ofChar,
      Reader.closeGroup, openGroups, Derivation.terms, Atom.node, Pattern.coalesce_eq_joinRuns, hopen]
  | openSet =>
    refine step_of_take htext ?_
    simp [reader, Reader.take, Piece.escape?, Piece.mode, Reader.begin, Token.kind, Token.Kind.ofChar,
      size_text, Piece.text, Slot.text]
    rfl
  | @closeSet o ps first items =>
    refine step_of_take htext ?_
    simp [reader, Reader.take, Piece.escape?, Piece.mode, Reader.beginItem, Token.kind, Token.Kind.ofChar,
      Item.isEmpty_charSet, Atom.node]
  | dash =>
    refine step_of_take htext ?_
    simp [reader, Reader.take, Piece.escape?, Piece.mode, Token.kind, Token.Kind.ofChar, size_text, Piece.text]
  | @suffix o ps a c q hq =>
    refine step_of_take htext ?_
    refine Eq.trans ?_ (congrArg Except.ok (push_suffix (p := .atom a) q rfl rfl))
    have hstop : (front o ps).size + (a.text ++ q.text).size =
      (⟨o, ps, .atom a⟩ : Draft).text.size + c.utf8Size := by simp [size_text, Piece.text, hq, Nat.add_assoc]
    rw [hstop]
    cases q with
    | star | plus | question =>
      cases hq
      rfl
    | braces low high h => simp [Suffix.text] at hq
  | openBraces =>
    refine step_of_take htext ?_
    simp [reader, Reader.take, Piece.escape?, Piece.mode, Token.kind, Token.Kind.ofChar, size_text, Piece.text,
      digitsValue?]
  | digit hd h =>
    refine step_of_take htext ?_
    simp [reader, Reader.take, Piece.escape?, Piece.mode, Reader.takeBound, h, digitsValue?_concat]
  | @comma o ps a low =>
    refine step_of_take htext ?_
    have hfits : ¬ Reader.greatestBound < low.value := Nat.not_lt.2 low.fits
    simp [reader, Reader.take, Piece.escape?, Piece.mode, Reader.takeBound, low.digitsValue?, hfits]
    rfl
  | @closeBraces o ps a low high h =>
    refine step_of_take htext ?_
    refine Eq.trans ?_ (congrArg Except.ok (push_suffix (p := .bound a (some low) high.digits high.decimal)
      (.braces low high h) rfl rfl))
    have hfits : ¬ Reader.greatestBound < high.value := Nat.not_lt.2 high.fits
    have hle : low.value.toUInt32 ≤ high.value.toUInt32 := by
      rw [UInt32.le_iff_toNat_le, low.toNat_value, high.toNat_value]
      exact h
    -- the term ends with the brace, so its span is that of the atom and the suffix
    have hstop : (front o ps).size + (a.text ++ (Suffix.braces low high h).text).size =
        (⟨o, ps, .bound a (some low) high.digits high.decimal⟩ : Draft).text.size + Char.utf8Size '}' := by
      simp [size_text, Piece.text, Suffix.text, Bound.textOf, Nat.add_assoc]
    rw [hstop]
    simp [reader, Reader.take, Piece.escape?, Piece.mode, Reader.takeBound, high.digitsValue?, hfits, hle]
    rfl
  | endTerm hc h ih => rw [step_endTerm hc, ih h.text]
  | endItem hc h ih => rw [step_endItem hc, ih h.text]

/-! ## The reader stops where a draft does -/

variable {cause : Cause} {front shown : Text}

theorem step_of_take_error {start stop : Nat}
    (ht : z.reader.take nesting ⟨c, z.text.size⟩ = .error ⟨cause, ⟨start, stop⟩⟩) (hstart : start = front.size)
    (hstop : stop = (front ++ shown).size) :
    Reader.step nesting z.reader ⟨c, z.text.size⟩ = .error (.showing cause front shown) := by
  rw [Reader.step, ht, hstart, hstop]
  rfl

theorem step_of_take_error_last {start : Nat}
    (ht : z.reader.take nesting ⟨c, z.text.size⟩ = .error ⟨cause, ⟨start, (⟨c, z.text.size⟩ : Token).stop⟩⟩)
    (hstart : start = front.size) (htext : z.text ++ [c] = front ++ shown) :
    Reader.step nesting z.reader ⟨c, z.text.size⟩ = .error (.showing cause front shown) := by
  refine step_of_take_error ht hstart ?_
  rw [← htext, Text.size_append]
  rfl

theorem step_of_take_error_here (ht : z.reader.take nesting ⟨c, z.text.size⟩ =
      .error ⟨cause, (⟨c, z.text.size⟩ : Token).span⟩) (hfront : z.text = front) :
    Reader.step nesting z.reader ⟨c, z.text.size⟩ = .error (.showing cause front [c]) := by
  subst hfront
  exact step_of_take_error_last ht rfl rfl

theorem text_term (o : List Derivation) (ps : Derivation) :
    (⟨o, ps, .slot .term false⟩ : Draft).text = Draft.front o ps := List.append_nil _

section
variable {o : List Derivation} {ps : Derivation}

theorem take_term (start : Nat) : (⟨o, ps, .slot .term false⟩ : Draft).reader.take nesting ⟨c, start⟩ =
    (⟨o, ps, .slot .term false⟩ : Draft).reader.begin nesting ⟨c, start⟩ := rfl

theorem begin_of_startsQuantifier {r : Reader} {t : Token} (h : t.kind.startsQuantifier = true) :
    r.begin nesting t =
      .error ⟨if r.terms.isEmpty then .quantifierWithoutTarget else .stackedQuantifier, t.span⟩ := by
  unfold Reader.begin
  cases hk : t.kind with
  | star | plus | question | braceOpen =>
    dsimp only
    split <;> rfl
  | _ =>
    rw [hk] at h
    cases h

theorem take_special {s : Slot} {start : Nat} (hs : s ≠ .term) (hc : Text.isSpecial c = true) (hne : c ≠ ']') :
    (⟨o, ps, .slot s false⟩ : Draft).reader.take nesting ⟨c, start⟩ =
      .error ⟨.unescapedSpecial, (⟨c, start⟩ : Token).span⟩ := by
  obtain ⟨hchar, hbackslash, hclose⟩ := kind_of_special hc hne
  cases s with
  | term => exact absurd rfl hs
  | item items =>
    change Reader.beginItem _ _ _ _ = _
    unfold Reader.beginItem Token.kind
    split <;> first | contradiction | rfl
  | rangeEnd items low =>
    change Reader.endRange _ _ _ = _
    unfold Reader.endRange Token.kind
    split <;> first | contradiction | rfl

theorem letter_disordered {items : List Item} {low : Letter} {b : Bool} {start stop : Nat} (h : c < low.char) :
    { (⟨o, ps, .slot (.rangeEnd items low) b⟩ : Draft).reader with escape? := none }.letter c start stop =
      .error ⟨.invalidRange, ⟨(Draft.front o ps).size + Text.size ('[' :: items.flatMap Item.text), stop⟩⟩ :=
  if_neg (Char.not_le.2 h)

end

/-- **The reader stops with every refusal.** -/
theorem Refuses.step (h : z.Refuses nesting c cause front shown) :
    Reader.step nesting z.reader ⟨c, z.text.size⟩ = .error (.showing cause front shown) := by
  induction h with
  | @tooDeep o ps h =>
    refine step_of_take_error_here ((take_term _).trans ?_) (text_term o ps)
    exact if_pos (h.trans_eq (length_openGroups o).symm)
  | unopened => exact step_of_take_error_here rfl (text_term [] _)
  | emptyGroup =>
    exact step_of_take_error_last rfl rfl
      (by simp [Draft.text, Draft.front, outerText, Piece.text, Slot.text, Derivation.text])
  | unbalanced hc =>
    refine step_of_take_error_here ?_ (text_term _ _)
    rcases hc with rfl | rfl <;> rfl
  | dash => exact step_of_take_error_here rfl (text_term _ _)
  | noTarget hc => exact step_of_take_error_here ((take_term _).trans (begin_of_startsQuantifier hc)) (text_term _ _)
  | stacked hc => exact step_of_take_error_here ((take_term _).trans (begin_of_startsQuantifier hc)) (text_term _ _)
  | special hs hc hne => exact step_of_take_error_here (take_special hs hc hne) rfl
  | emptySet => exact step_of_take_error_last rfl rfl (by simp [Draft.text, Piece.text, Slot.text])
  | @openRange o ps items low =>
    -- the bracket is read, but the dash before it shows the fault
    have hsize := Text.size_append (Draft.front o ps) ('[' :: items.flatMap Item.text ++ low.text)
    rw [← List.append_assoc] at hsize
    refine step_of_take_error rfl hsize.symm ?_
    rw [Text.size_append _ ['-'], hsize]
    rfl
  | @disordered o ps items low c hc h =>
    exact step_of_take_error_last ((take_plain _ hc).trans (letter_disordered h)) (Text.size_append _ _).symm
      (by simp [Draft.text, Piece.text, Slot.text, Letter.text])
  | @escapedDisordered o ps items low c hc h =>
    exact step_of_take_error_last ((take_escaped _ hc).trans (letter_disordered h)) (Text.size_append _ _).symm
      (by simp [Draft.text, Piece.text, Slot.text, Letter.text])
  | @notEscapable o ps s c hc =>
    have hkind : ¬ (⟨c, (⟨o, ps, .slot s true⟩ : Draft).text.size⟩ : Token).kind.isEscapable = true := by
      simp [Token.kind, isEscapable_ofChar, hc]
    exact step_of_take_error_last (if_neg hkind) (Text.size_append _ _).symm (by simp [Draft.text, Piece.text])
  | noDigits hc =>
    exact step_of_take_error_last (Reader.takeBound_noDigits hc) (Text.size_append _ _).symm
      (by simp [Draft.text, Piece.text])
  | @tooGreat o ps a low? digits c hd hc h =>
    have hvalue : digitsValue? digits = some (Nat.ofDigitChars 10 digits 0) := by
      cases digits with
      | nil => cases h
      | cons d digits => rfl
    have hstop : (⟨o, ps, .bound a low? digits hd⟩ : Draft).text =
        Draft.front o ps ++ a.text ++ ('{' :: Bound.textOf low? ++ digits) := by simp [Draft.text, Piece.text]
    refine step_of_take_error ?_ (Text.size_append _ _).symm (congrArg Text.size hstop)
    change Reader.takeBound _ _ _ _ _ (digitsValue? digits) _ = _
    rw [hvalue]
    exact Reader.takeBound_tooGreat hc h
  | @unmarked o ps a low? c b hc hne =>
    have hmark : c ≠ match low?.map (·.value.toUInt32) with | none => ',' | some _ => '}' := by
      cases low? <;> exact hne
    refine step_of_take_error_last ?_ (Text.size_append _ _).symm (by simp [Draft.text, Piece.text])
    change Reader.takeBound _ _ _ _ _ (digitsValue? b.digits) _ = _
    rw [b.digitsValue?]
    exact Reader.takeBound_unmarked hc b.fits hmark
  | @boundsBelow o ps a low high h =>
    have hlt : ¬ low.value.toUInt32 ≤ high.value.toUInt32 := by
      rw [UInt32.le_iff_toNat_le, low.toNat_value, high.toNat_value]
      exact Nat.not_le.2 h
    refine step_of_take_error_last ?_ (Text.size_append _ _).symm (by simp [Draft.text, Piece.text, Bound.textOf])
    change Reader.takeBound _ _ _ _ _ (digitsValue? high.digits) _ = _
    rw [high.digitsValue?]
    exact Reader.takeBound_below high.fits hlt
  | endTerm hc h ih => rw [step_endTerm hc, ih]
  | endItem hc h ih => rw [step_endItem hc, ih]

/-- **A step of the reader is a move of the draft it has read.** -/
theorem step_eq_ok_iff {r : Reader} :
    Reader.step nesting z.reader ⟨c, z.text.size⟩ = .ok r ↔ ∃ z', z.Moves nesting c z' ∧ z'.reader = r := by
  constructor
  · intro h
    rcases z.moves_or_refuses c with ⟨z', hz⟩ | ⟨cause, front, shown, hz⟩
    · exact ⟨z', hz, Except.ok.inj (hz.step.symm.trans h)⟩
    · cases hz.step.symm.trans h
  · rintro ⟨z', hz, rfl⟩
    exact hz.step

end Draft
end Grammar
end PatternWalk
