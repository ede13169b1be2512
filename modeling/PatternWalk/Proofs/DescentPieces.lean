import PatternWalk.Proofs.SideBySide
/-!
# DescentPieces — sets and quantifiers, read by descent

Each function for a piece of the grammar agrees with the reader, if it begins where its caller calls it.  The reader
looks at a character once, and where its state waits for what comes next the function has looked ahead: so what follows
a piece is known not to continue it (`goOn_atom`, `goOn_low`).
-/
namespace PatternWalk

namespace Descent

variable {α : Type}

section
variable {nesting turns : Nat} {source rest : Text} {answer : Except Fault Pattern} {s : Cursor} {c : Char}
  {outer : List Reader.OpenGroup} {terms : Pattern} {mode : Reader.Mode} {reached opened start start' : Nat}

/-! ## Escapes and members of sets -/

theorem readEscape_agrees (h : Meets nesting source answer ⟨outer, terms, mode, none, reached⟩ ('\\' :: rest) s)
    (hback : Reader.take nesting ⟨outer, terms, mode, none, reached⟩ ⟨'\\', reached⟩ =
      .ok ⟨outer, terms, mode, some reached, reached⟩) :
    Agrees answer (HasLetter nesting source answer ⟨outer, terms, mode, none, reached⟩ rest.length)
      (readEscape source s) := by
  have hstep := h.step hback
  obtain ⟨rfl, -, -⟩ := h
  unfold readEscape
  rw [bump_cons]
  cases rest with
  | nil => exact hstep.answer_eq
  | cons c rest =>
    have hc := Text.dropBytes?_add_utf8Size hstep.rest_eq
    by_cases hkind : (Token.Kind.ofChar c).isEscapable = true
    · simp only [current?_cons, if_pos hkind, bump_cons, charOf_lexeme hstep.rest_eq]
      refine ⟨_, rest, rfl, hc, Nat.le_succ _, ?_⟩
      have htake : Reader.take nesting ⟨outer, terms, mode, some reached, reached + Char.utf8Size '\\'⟩
          ⟨c, reached + Char.utf8Size '\\'⟩ = Reader.letter ⟨outer, terms, mode, none, reached + Char.utf8Size '\\'⟩ c
            reached (reached + Char.utf8Size '\\' + c.utf8Size) := if_pos hkind
      have hletter := Reader.letter_reached ⟨outer, terms, mode, none, reached⟩ (reached + Char.utf8Size '\\') c reached
        (reached + Char.utf8Size '\\' + c.utf8Size)
      rw [hstep.answer_eq, Reader.goOn_cons, htake, hletter]
      cases Reader.letter ⟨outer, terms, mode, none, reached⟩ c reached _ <;> rfl
    · simp only [current?_cons, if_neg hkind]
      refine (hstep.answer_eq_error (if_neg hkind)).trans ?_
      rw [Span.cover_of_le (Nat.le_add_right _ _) (Nat.le_add_right _ _)]
      rfl

theorem readMember_agrees {set : CharSet}
    (hmode : mode = .item opened set ∨ ∃ low first dash, mode = .dash opened set low first dash)
    (h : Meets nesting source answer ⟨outer, terms, mode, none, reached⟩ (c :: rest) s)
    (hc : Token.Kind.ofChar c ≠ .bracketClose) :
    Agrees answer (HasLetter nesting source answer ⟨outer, terms, mode, none, reached⟩ rest.length)
      (readMember source s) := by
  have htake : Reader.take nesting ⟨outer, terms, mode, none, reached⟩ ⟨c, reached⟩ = _ := Reader.take_member hmode hc
  obtain rfl := h.cursor_eq
  unfold readMember
  simp only [current?_cons]
  cases hk : Token.Kind.ofChar c with
  | char =>
    rw [hk] at htake
    simp only [← hk, bump_cons, charOf_lexeme h.rest_eq]
    refine ⟨_, rest, rfl, Text.dropBytes?_add_utf8Size h.rest_eq, Nat.le_refl _, ?_⟩
    rw [h.answer_eq, Reader.goOn_cons, htake]
  | backslash =>
    obtain rfl : c = '\\' := Token.Kind.eq_of_written? hk rfl
    exact readEscape_agrees h htake
  | _ =>
    rw [hk] at htake
    exact h.answer_eq_error htake

theorem readHigh_agrees {set : CharSet} {low : Char} {dash : Nat}
    (h : Meets nesting source answer ⟨outer, terms, .dash opened set low start dash, none, reached⟩ (c :: rest) s)
    (hc : Token.Kind.ofChar c ≠ .bracketClose) :
    Agrees answer (Leaves nesting source answer (fun set n => ⟨outer, terms, .item opened set, none, n⟩) rest.length)
      (readHigh source set start low s) := by
  unfold readHigh
  refine (readMember_agrees (.inr ⟨low, start, dash, rfl⟩) h hc).bind ?_
  rintro high _ ⟨stop, rest', rfl, hrest, hlength, hanswer⟩
  by_cases horder : high < low
  · have hletter : Reader.letter ⟨outer, terms, .dash opened set low start dash, none, reached⟩ high reached stop =
        .error ⟨.invalidRange, ⟨start, stop⟩⟩ := if_neg (Char.not_le.2 horder)
    simp only [if_pos horder, reached_before]
    rw [hletter] at hanswer
    exact hanswer
  · have hletter : Reader.letter ⟨outer, terms, .dash opened set low start dash, none, reached⟩ high reached stop =
        .ok ⟨outer, terms, .item opened (set.insertRange ⟨low, high⟩), none, reached⟩ := if_pos (Char.not_lt.1 horder)
    simp only [if_neg horder]
    rw [hletter] at hanswer
    exact ⟨stop, rest', ⟨rfl, hrest, hanswer⟩, hlength⟩

theorem readRange_agrees {set : CharSet} {low : Char}
    (h : Meets nesting source answer ⟨outer, terms, .low opened set low start, none, reached⟩ rest s) :
    Agrees answer (Leaves nesting source answer (fun set n => ⟨outer, terms, .item opened set, none, n⟩) rest.length)
      (readRange source (Reader.delimiter opened) set start low s) := by
  obtain rfl := h.cursor_eq
  -- without a dash the character is a member, and nothing is taken
  have hmember (hdash : ∀ c ∈ rest.head?, Token.Kind.ofChar c ≠ .dash) :
      Leaves nesting source answer (fun set n => ⟨outer, terms, .item opened set, none, n⟩) rest.length (set.insert low)
        (.before reached outer.length rest) :=
    ⟨reached, rest, ⟨rfl, h.rest_eq, h.answer_eq.trans (Reader.goOn_low hdash)⟩, Nat.le_refl _⟩
  unfold readRange
  cases rest with
  | nil => exact hmember (by simp)
  | cons c rest =>
    simp only [currentKind?_cons]
    cases hc : Token.Kind.ofChar c with
    | dash =>
      obtain rfl := Grammar.eq_of_kind_dash hc
      have hstep : Meets nesting source answer
          ⟨outer, terms, .dash opened set low start reached, none, reached + Char.utf8Size '-'⟩ rest
          (.before (reached + Char.utf8Size '-') outer.length rest) := h.step rfl
      simp only [bump_cons]
      cases rest with
      | nil => exact hstep.answer_eq
      | cons d rest =>
        simp only [currentKind?_cons]
        cases hd : Token.Kind.ofChar d with
        | bracketClose =>
          obtain rfl : d = ']' := Token.Kind.eq_of_written? hd rfl
          exact hstep.answer_eq_error rfl
        | _ =>
          exact (readHigh_agrees hstep (by rw [hd]; nofun)).mono (Nat.le_succ_of_le (Nat.le_succ _))
    | _ => exact hmember (by simp [hc])

/-! ## Sets -/

theorem readItems_agrees : ∀ {turns : Nat} {set : CharSet} {reached : Nat} {rest : Text} {s : Cursor},
    rest.length < turns → Meets nesting source answer ⟨outer, terms, .item opened set, none, reached⟩ rest s →
    Agrees answer (Leaves nesting source answer (fun node n => ⟨outer, terms, .atom node opened, none, n⟩) rest.length)
      (readItems source (Reader.delimiter opened) turns set s)
  | turns + 1, set, reached, rest, s, hturns, h => by
    obtain rfl := h.cursor_eq
    unfold readItems
    cases rest with
    | nil => exact h.answer_eq
    | cons c rest =>
      by_cases hc : Token.Kind.ofChar c = .bracketClose
      · obtain rfl : c = ']' := Token.Kind.eq_of_written? hc rfl
        simp only [current?_cons, if_pos hc, bump_cons]
        by_cases hset : set.isEmpty = true
        · simp only [if_pos hset, reached_before]
          exact h.answer_eq_error (if_pos hset)
        · simp only [if_neg hset]
          exact ⟨_, rest, h.step (if_neg hset), Nat.le_succ _⟩
      · simp only [current?_cons, if_neg hc]
        refine (readMember_agrees (.inl rfl) h hc).bind ?_
        rintro low _ ⟨stop, rest', rfl, hrest', hlength', hanswer⟩
        have hlow : Meets nesting source answer ⟨outer, terms, .low opened set low reached, none, stop⟩ rest'
            (.before stop outer.length rest') := ⟨rfl, hrest', hanswer⟩
        refine (readRange_agrees hlow).bind ?_
        rintro set' s' ⟨stop', rest'', hmeets, hlength''⟩
        have hlt : rest''.length < turns := by
          rw [List.length_cons] at hturns
          omega
        refine (readItems_agrees hlt hmeets).mono ?_
        rw [List.length_cons]
        omega

theorem readSet_agrees (hturns : rest.length < turns)
    (h : Meets nesting source answer ⟨outer, terms, .ready, none, reached⟩ ('[' :: rest) s) :
    Agrees answer (Leaves nesting source answer (fun node n => ⟨outer, terms, .atom node reached, none, n⟩) rest.length)
      (readSet source turns s) := by
  obtain rfl := h.cursor_eq
  unfold readSet
  rw [bump_cons]
  exact readItems_agrees hturns (h.step rfl)

/-! ## Bounds -/

theorem readDigits_eq : ∀ {turns reached depth : Nat} {rest : Text}, source.dropBytes? reached = some rest →
    rest.length < turns → readDigits source turns (.before reached depth rest) =
      some (.ok ((rest.takeWhile Char.isDigit).length,
        .before (reached + Text.size (rest.takeWhile Char.isDigit)) depth (rest.dropWhile Char.isDigit)))
  | turns + 1, reached, depth, [], _, _ => rfl
  | turns + 1, reached, depth, c :: rest, h, hturns => by
    have hplain : c.isDigit = true → Token.Kind.ofChar c = .char :=
      fun hc => Grammar.kind_of_ordinary (Grammar.ordinary_of_isDigit hc)
    have hc := isChar_lexeme h hplain
    unfold readDigits
    by_cases hd : c.isDigit = true
    · have hrest : readDigits source turns (.before (reached + c.utf8Size) depth rest) = _ :=
        readDigits_eq (Text.dropBytes?_add_utf8Size h) (Nat.lt_of_succ_lt_succ hturns)
      simp only [current?_cons, hc, pure_bind_apply, if_pos hd, bump_cons, bind_of_ok hrest]
      rw [List.takeWhile_cons_of_pos hd, List.dropWhile_cons_of_pos hd, Text.size_cons, ← Nat.add_assoc]
      rfl
    · simp only [current?_cons, hc, pure_bind_apply, if_neg hd]
      rw [List.takeWhile_cons_of_neg hd, List.dropWhile_cons_of_neg hd]
      rfl

theorem refuseBounds_agrees {post : α → Cursor → Prop} {node : Node} {first? : Option UInt32} {digits? : Option Nat}
    (h : Meets nesting source answer ⟨outer, terms, .bound node start opened first? digits?, none, reached⟩ rest s)
    (hopened : opened < reached) (hdigits : digits?.any (Reader.greatestBound < ·) = false)
    (hrest : ∀ c ∈ rest.head?, Reader.takeBound ⟨outer, terms, .bound node start opened first? digits?, none, reached⟩
      node start opened first? digits? ⟨c, reached⟩ =
        .error ⟨.invalidQuantifierBounds, ⟨opened, reached + c.utf8Size⟩⟩) :
    Agrees answer post (refuseBounds (Reader.delimiter opened) s) := by
  obtain rfl := h.cursor_eq
  unfold refuseBounds
  cases rest with
  | nil => exact h.answer_eq.trans (if_neg (Bool.eq_false_iff.1 hdigits))
  | cons c rest =>
    rw [current?_cons]
    refine (h.answer_eq_error (hrest c rfl)).trans ?_
    rw [Reader.delimiter, Span.cover_of_le (Nat.le_of_lt hopened) (Nat.le_add_right_of_le hopened)]

def HasBound (nesting : Nat) (source : Text) (answer : Except Fault Pattern) (outer : List Reader.OpenGroup)
    (terms : Pattern) (node : Node) (start opened : Nat) (first? : Option UInt32) (length : Nat) (bound : UInt32)
    (s : Cursor) : Prop :=
  ∃ value reached rest, bound = value.toUInt32 ∧ value ≤ Reader.greatestBound ∧ opened < reached ∧
    (∀ c ∈ rest.head?, c.isDigit = false) ∧ rest.length ≤ length ∧
    Meets nesting source answer ⟨outer, terms, .bound node start opened first? (some value), none, reached⟩ rest s

section
variable {node : Node} {first? : Option UInt32}

theorem readNumber_agrees {digits : Text} {length : Nat}
    (hdigits : source.slice? start (start + digits.size) = some digits)
    (hopened : opened < start) (hnext : ∀ c ∈ rest.head?, c.isDigit = false) (hlength : rest.length ≤ length)
    (h : Meets nesting source answer ⟨outer, terms, .bound node start' opened first?
      (some (Nat.ofDigitChars 10 digits 0)), none, start + digits.size⟩ rest s) :
    Agrees answer (HasBound nesting source answer outer terms node start' opened first? length)
      (readNumber source (Reader.delimiter opened) ⟨start, start + digits.size⟩ s) := by
  have htext : Span.textIn? ⟨start, start + digits.size⟩ source = some digits := hdigits
  unfold readNumber
  rw [htext]
  dsimp only
  by_cases hgreat : Reader.greatestBound < Nat.ofDigitChars 10 digits 0
  · simp only [if_pos hgreat]
    change answer = _
    rw [Reader.delimiter, Span.cover_of_le (Nat.le_of_lt hopened) (Nat.le_add_right_of_le hopened), h.answer_eq]
    cases rest with
    | nil => exact if_pos (by simpa using hgreat)
    | cons c rest => exact Reader.goOn_of_error (Reader.takeBound_tooGreat (hnext c rfl) hgreat)
  · simp only [if_neg hgreat]
    exact ⟨_, _, rest, rfl, Nat.not_lt.1 hgreat, Nat.lt_add_right _ hopened, hnext, hlength, h⟩

theorem readBound_agrees (hturns : rest.length < turns) (hopened : opened < reached)
    (h : Meets nesting source answer ⟨outer, terms, .bound node start opened first? none, none, reached⟩ rest s) :
    Agrees answer (HasBound nesting source answer outer terms node start opened first? rest.length)
      (readBound source turns (Reader.delimiter opened) s) := by
  obtain rfl := h.cursor_eq
  have hcount : readDigits source turns (.before reached outer.length rest) = _ := readDigits_eq h.rest_eq hturns
  have hsplit : rest.takeWhile Char.isDigit ++ rest.dropWhile Char.isDigit = rest := List.takeWhile_append_dropWhile
  have hall : ∀ c ∈ rest.takeWhile Char.isDigit, c.isDigit = true := List.all_eq_true.1 List.all_takeWhile
  have hnext : ∀ c ∈ (rest.dropWhile Char.isDigit).head?, c.isDigit = false := by
    have := List.head?_dropWhile_not Char.isDigit rest
    intro c hc
    rwa [Option.mem_def.1 hc] at this
  generalize rest.takeWhile Char.isDigit = digits at hcount hsplit hall
  generalize rest.dropWhile Char.isDigit = back at hcount hsplit hnext
  subst hsplit
  unfold readBound
  cases digits with
  | nil =>
    have hrefuse : Agrees answer (HasBound nesting source answer outer terms node start opened first? back.length)
        (refuseBounds (Reader.delimiter opened) (.before reached outer.length back)) :=
      refuseBounds_agrees h hopened rfl fun c hc => Reader.takeBound_noDigits (hnext c hc)
    rw [List.nil_append] at hcount ⊢
    cases back with
    | nil =>
      simp only [current?_nil, bind_of_ok hcount]
      exact hrefuse
    | cons c back =>
      simp only [current?_cons, bind_of_ok hcount]
      exact hrefuse
  | cons d digits =>
    have hdigits := Text.slice?_of_dropBytes? h.rest_eq
    have hread := @Reader.goOn_digits nesting back outer terms node start opened first? [] (d :: digits) reached hall
    have hmeets : Meets nesting source answer ⟨outer, terms, .bound node start opened first?
        (some (Nat.ofDigitChars 10 (d :: digits) 0)), none, reached + Text.size (d :: digits)⟩ back
        (.before (reached + Text.size (d :: digits)) outer.length back) :=
      ⟨rfl, Text.dropBytes?_add_size h.rest_eq, h.answer_eq.trans hread⟩
    have hlength : back.length ≤ (d :: digits ++ back).length := List.length_append ▸ Nat.le_add_left _ _
    have hnumber := readNumber_agrees hdigits hopened hnext hlength hmeets
    rw [List.cons_append] at hcount hnumber ⊢
    simp only [current?_cons, bind_of_ok hcount, List.length_cons, Option.filter_some, Nat.zero_lt_succ, decide_true,
      if_true, reached_before]
    exact hnumber

theorem readMark_agrees {isMark : Lexeme → Descent Bool} (mark : Char) {value : Nat}
    (hmark : mark = match first? with | none => ',' | some _ => '}')
    (hisMark : ∀ c, source.dropBytes? reached = some (c :: rest.tail) →
      isMark ⟨Token.Kind.ofChar c, ⟨reached, reached + c.utf8Size⟩⟩ = pure (c == mark))
    (hfits : value ≤ Reader.greatestBound) (hopened : opened < reached) (hnext : ∀ c ∈ rest.head?, c.isDigit = false)
    (h : Meets nesting source answer ⟨outer, terms, .bound node start opened first? (some value), none, reached⟩ rest
      s) :
    Agrees answer (fun _ s => ∃ rest', rest = mark :: rest' ∧ s = .before (reached + mark.utf8Size) outer.length rest')
      (readMark (Reader.delimiter opened) isMark s) := by
  have hdigits : (some value).any (Reader.greatestBound < ·) = false := by simpa using hfits
  obtain rfl := h.cursor_eq
  unfold readMark
  cases rest with
  | nil => exact refuseBounds_agrees h hopened hdigits (by simp)
  | cons c rest =>
    simp only [current?_cons, hisMark c h.rest_eq, pure_bind_apply]
    by_cases hc : c = mark
    · simp only [beq_iff_eq, if_pos hc, bump_cons]
      exact ⟨rest, by rw [hc], by rw [hc]⟩
    · simp only [beq_iff_eq, if_neg hc]
      refine refuseBounds_agrees h hopened hdigits fun d hd => ?_
      obtain rfl := Option.some.inj hd
      exact Reader.takeBound_unmarked (hnext c rfl) hfits fun heq => hc (heq.trans hmark.symm)

theorem readBounds_agrees (hturns : rest.length < turns)
    (h : Meets nesting source answer ⟨outer, terms, .atom node start, none, reached⟩ ('{' :: rest) s) :
    Agrees answer (Leaves nesting source answer
      (fun q n => ⟨outer, terms ++ [⟨node, q, ⟨start, n⟩⟩], .ready, none, n⟩) rest.length)
      (readBounds source turns s) := by
  have hopen : Meets nesting source answer
      ⟨outer, terms, .bound node start reached none none, none, reached + Char.utf8Size '{'⟩ rest
      (.before (reached + Char.utf8Size '{') outer.length rest) := h.step rfl
  obtain rfl := h.cursor_eq
  unfold readBounds
  rw [bump_cons]
  refine (readBound_agrees hturns (Nat.lt_succ_self _) hopen).bind ?_
  rintro _ _ ⟨low, n, rest', rfl, hlow, hn, hnext, hlength, hmeets⟩
  have hplain {c : Char} (hc : (c == ',') = true) : Token.Kind.ofChar c = .char := by
    rw [beq_iff_eq] at hc
    rw [hc]
    rfl
  refine (readMark_agrees ',' rfl (fun c hc => isChar_lexeme hc hplain) hlow hn hnext hmeets).bind ?_
  rintro - _ ⟨rest', rfl, rfl⟩
  have hcomma : Meets nesting source answer ⟨outer, terms, .bound node start reached (some low.toUInt32) none, none,
      n + Char.utf8Size ','⟩ rest' (.before (n + Char.utf8Size ',') outer.length rest') :=
    hmeets.step (Reader.takeBound_comma hlow)
  have hturns' : rest'.length < turns := by
    rw [List.length_cons] at hlength
    omega
  refine (readBound_agrees hturns' (Nat.lt_add_right _ hn) hcomma).bind ?_
  rintro _ _ ⟨high, n', rest'', rfl, hhigh, hn', hnext', hlength', hmeets'⟩
  have hbrace (c : Char) : (Token.Kind.ofChar c == .braceClose) = (c == '}') := by
    rw [Bool.eq_iff_iff, beq_iff_eq, beq_iff_eq]
    refine ⟨fun hc => Token.Kind.eq_of_written? hc rfl, fun hc => ?_⟩
    rw [hc]
    rfl
  refine (readMark_agrees '}' rfl (fun c _ => congrArg pure (hbrace c)) hhigh hn' hnext' hmeets').bind ?_
  rintro - _ ⟨rest'', rfl, rfl⟩
  by_cases horder : high.toUInt32 < low.toUInt32
  · simp only [if_pos horder, reached_before]
    exact hmeets'.answer_eq_error (Reader.takeBound_below hhigh (UInt32.not_le.2 horder))
  · simp only [if_neg horder]
    refine ⟨n' + Char.utf8Size '}', rest'', hmeets'.step (Reader.takeBound_close hhigh (UInt32.not_lt.1 horder)), ?_⟩
    rw [List.length_cons] at hlength hlength'
    omega

theorem readQuantifier_agrees (hturns : rest.length < turns)
    (h : Meets nesting source answer ⟨outer, terms, .atom node start, none, reached⟩ rest s) :
    Agrees answer (Leaves nesting source answer
      (fun q n => ⟨outer, terms ++ [⟨node, q, ⟨start, n⟩⟩], .ready, none, n⟩) rest.length)
      (readQuantifier source turns s) := by
  obtain rfl := h.cursor_eq
  -- without a quantifier nothing is taken
  have honce (hnone : ∀ c ∈ rest.head?, (Token.Kind.ofChar c).startsQuantifier = false) :
      Leaves nesting source answer (fun q n => ⟨outer, terms ++ [⟨node, q, ⟨start, n⟩⟩], .ready, none, n⟩) rest.length
        .once (.before reached outer.length rest) :=
    ⟨reached, rest, ⟨rfl, h.rest_eq, h.answer_eq.trans (Reader.goOn_atom hnone)⟩, Nat.le_refl _⟩
  unfold readQuantifier
  cases rest with
  | nil => exact honce (by simp)
  | cons c rest =>
    simp only [currentKind?_cons]
    cases hc : Token.Kind.ofChar c with
    | star =>
      obtain rfl : c = '*' := Token.Kind.eq_of_written? hc rfl
      exact ⟨_, rest, h.step rfl, Nat.le_succ _⟩
    | plus =>
      obtain rfl : c = '+' := Token.Kind.eq_of_written? hc rfl
      exact ⟨_, rest, h.step rfl, Nat.le_succ _⟩
    | question =>
      obtain rfl : c = '?' := Token.Kind.eq_of_written? hc rfl
      exact ⟨_, rest, h.step rfl, Nat.le_succ _⟩
    | braceOpen =>
      obtain rfl : c = '{' := Token.Kind.eq_of_written? hc rfl
      exact (readBounds_agrees (Nat.lt_of_succ_lt hturns) h).mono (Nat.le_succ _)
    | _ => exact honce fun d hd => by rw [← Option.some.inj hd, hc]; rfl

end

end

end Descent

end PatternWalk
