import PatternWalk.Proofs.Canonical
import PatternWalk.Proofs.DescentPieces
/-!
# Descending — reading by descent never gives up

The body of a group is read by the function that reads the terms of a pattern.  It stops before the parenthesis that
closes the group, and this is what its caller relies on (`HasLevel`).  Every turn of a loop takes a token, so there are
turns enough when there are more than characters ahead.  A descent on the tokens of a text therefore has a result, for
every text, and it is what the text is read as (`readByDescent_eq`).
-/
namespace PatternWalk

theorem Pattern.isEmpty_coalesce (p : Pattern) : (coalesce p).isEmpty = p.isEmpty := by
  rw [Bool.eq_iff_iff, List.isEmpty_iff, List.isEmpty_iff]
  refine ⟨coalesce_eq_nil, ?_⟩
  rintro rfl
  rfl

namespace Descent

/-- **A level ends**: the outermost one with the text, and the reader comes to its terms; any other before the
parenthesis that closes its group. -/
def HasLevel (nesting : Nat) (source : Text) (answer : Except Fault Pattern) (length : Nat) :
    (outer : List Reader.OpenGroup) → Pattern → Cursor → Prop
  | [], p, _ => answer = .ok p
  | group :: outer, p, s => ∃ terms reached rest, p = Pattern.coalesce terms ∧ rest.length < length ∧
    Meets nesting source answer ⟨group :: outer, terms, .ready, none, reached⟩ (')' :: rest) s

def opened? (outer : List Reader.OpenGroup) : Option Span := outer.head?.map fun group => Reader.delimiter group.start

section
variable {nesting turns : Nat} {source rest : Text} {answer : Except Fault Pattern} {s : Cursor} {c : Char}
  {outer : List Reader.OpenGroup} {terms : Pattern} {reached : Nat}

theorem HasLevel.mono {length length' : Nat} {p : Pattern} (h : HasLevel nesting source answer length outer p s)
    (hle : length ≤ length') : HasLevel nesting source answer length' outer p s := by
  cases outer with
  | nil => exact h
  | cons group outer =>
    obtain ⟨terms, reached, rest, hp, hlt, hmeets⟩ := h
    exact ⟨terms, reached, rest, hp, Nat.lt_of_lt_of_le hlt hle, hmeets⟩

theorem bumpClosing_cons {depth : Nat} {β : Type} (k : Unit → Descent β) :
    (bumpClosing >>= k) (.before reached depth (')' :: rest)) =
      k () (.before (reached + Char.utf8Size ')') depth rest) := rfl

theorem leave_before {depth : Nat} {β : Type} (k : Unit → Descent β) :
    (leave >>= k) (.before reached depth rest) = k () (.before reached (depth - 1) rest) := rfl

theorem enter_agrees (h : Meets nesting source answer ⟨outer, terms, .ready, none, reached⟩ ('(' :: rest) s) :
    Agrees answer (fun _ s => Meets nesting source answer
      ⟨⟨reached, terms⟩ :: outer, [], .ready, none, reached + Char.utf8Size '('⟩ rest s)
      (enter nesting (Reader.delimiter reached) (.before (reached + Char.utf8Size '(') outer.length rest)) := by
  by_cases hdeep : nesting ≤ outer.length
  · have hrefuse : enter nesting (Reader.delimiter reached) (.before (reached + Char.utf8Size '(') outer.length rest) =
        some (.error ⟨.recursionLimitExceeded, Reader.delimiter reached⟩) := if_pos hdeep
    rw [hrefuse]
    exact h.answer_eq_error (if_pos hdeep)
  · have henter : enter nesting (Reader.delimiter reached) (.before (reached + Char.utf8Size '(') outer.length rest) =
        some (.ok ((), .before (reached + Char.utf8Size '(') (outer.length + 1) rest)) := if_neg hdeep
    rw [henter]
    exact h.step (if_neg hdeep)

theorem readGroup_agrees {readBody : Span → Descent Pattern}
    (hbody : ∀ {s : Cursor}, Meets nesting source answer
      ⟨⟨reached, terms⟩ :: outer, [], .ready, none, reached + Char.utf8Size '('⟩ rest s →
        Agrees answer (HasLevel nesting source answer rest.length (⟨reached, terms⟩ :: outer))
          (readBody (Reader.delimiter reached) s))
    (h : Meets nesting source answer ⟨outer, terms, .ready, none, reached⟩ ('(' :: rest) s) :
    Agrees answer (Leaves nesting source answer (fun node n => ⟨outer, terms, .atom node reached, none, n⟩) rest.length)
      (readGroup nesting readBody s) := by
  obtain rfl := h.cursor_eq
  unfold readGroup
  rw [bump_cons]
  refine (enter_agrees h).bind fun _ s hopen => ?_
  refine (hbody hopen).bind ?_
  rintro body s' ⟨terms', n, rest', rfl, hlt, hmeets⟩
  obtain rfl := hmeets.cursor_eq
  simp only [bumpClosing_cons, leave_before]
  by_cases hempty : (Pattern.coalesce terms').isEmpty = true
  · have hterms := (Pattern.isEmpty_coalesce terms').symm.trans hempty
    simp only [if_pos hempty, reached_before]
    exact hmeets.answer_eq_error (if_pos hterms)
  · have hterms : ¬terms'.isEmpty = true := by rwa [← Pattern.isEmpty_coalesce]
    simp only [if_neg hempty]
    exact ⟨_, rest', hmeets.step (if_neg hterms), Nat.le_of_lt hlt⟩

theorem readAtom_agrees {group : Descent Node} (hturns : rest.length < turns)
    (hgroup : c = '(' → Agrees answer
      (Leaves nesting source answer (fun node n => ⟨outer, terms, .atom node reached, none, n⟩) rest.length) (group s))
    (hclose : ¬(Token.Kind.ofChar c = .parenClose ∧ (opened? outer).isSome = true))
    (h : Meets nesting source answer ⟨outer, terms, .ready, none, reached⟩ (c :: rest) s) :
    Agrees answer (Leaves nesting source answer (fun node n => ⟨outer, terms, .atom node reached, none, n⟩) rest.length)
      (readAtom source group turns terms ⟨Token.Kind.ofChar c, ⟨reached, reached + c.utf8Size⟩⟩ s) := by
  obtain rfl := h.cursor_eq
  unfold readAtom
  cases hc : Token.Kind.ofChar c with
  | parenClose =>
    obtain rfl := Token.Kind.eq_of_written? hc rfl
    cases outer with
    | nil => exact h.answer_eq_error rfl
    | cons group outer => exact absurd ⟨rfl, rfl⟩ hclose
  | bracketClose | braceClose | dash =>
    obtain rfl := Token.Kind.eq_of_written? hc rfl
    exact h.answer_eq_error rfl
  | parenOpen =>
    obtain rfl := Token.Kind.eq_of_written? hc rfl
    exact hgroup rfl
  | bracketOpen =>
    obtain rfl := Token.Kind.eq_of_written? hc rfl
    exact readSet_agrees hturns h
  | backslash =>
    obtain rfl := Token.Kind.eq_of_written? hc rfl
    refine (readEscape_agrees h rfl).bind ?_
    rintro d _ ⟨stop, rest', rfl, hrest, hlength, hanswer⟩
    exact ⟨stop, rest', ⟨rfl, hrest, hanswer⟩, hlength⟩
  | char =>
    have htake : Reader.take nesting ⟨outer, terms, .ready, none, reached⟩ ⟨c, reached⟩ =
        .ok ⟨outer, terms, .atom (.literal [c]) reached, none, reached⟩ := by
      change Reader.begin _ _ _ = _
      unfold Reader.begin Token.kind
      rw [hc]
      rfl
    simp only [← hc, bump_cons, charOf_lexeme h.rest_eq]
    exact ⟨_, rest, h.step htake, Nat.le_refl _⟩
  | star | plus | question | braceOpen =>
    obtain rfl := Token.Kind.eq_of_written? hc rfl
    by_cases hterms : terms.isEmpty = true
    · simp only [if_pos hterms]
      exact h.answer_eq_error (if_pos hterms)
    · simp only [if_neg hterms]
      exact h.answer_eq_error (if_neg hterms)

/-- **The terms of a level agree with the reader.** -/
theorem readTerms_agrees : ∀ {turns : Nat} {outer : List Reader.OpenGroup} {terms : Pattern} {reached : Nat}
    {rest : Text} {s : Cursor}, rest.length < turns →
    Meets nesting source answer ⟨outer, terms, .ready, none, reached⟩ rest s →
    Agrees answer (HasLevel nesting source answer rest.length outer)
      (readTerms source nesting turns (opened? outer) terms s)
  | turns + 1, outer, terms, reached, rest, s, hturns, h => by
    obtain rfl := h.cursor_eq
    unfold readTerms
    cases rest with
    | nil => cases outer <;> exact h.answer_eq
    | cons c rest =>
      by_cases hclose : Token.Kind.ofChar c = .parenClose ∧ (opened? outer).isSome = true
      · simp only [current?_cons, if_pos hclose]
        obtain rfl := Token.Kind.eq_of_written? hclose.1 rfl
        cases outer with
        | nil => cases hclose.2
        | cons group outer => exact ⟨terms, reached, rest, rfl, Nat.lt_succ_self _, h⟩
      · simp only [current?_cons, if_neg hclose]
        have hrest : rest.length < turns := Nat.lt_of_succ_lt_succ hturns
        have hgroup (hc : c = '(') : Agrees answer
            (Leaves nesting source answer (fun node n => ⟨outer, terms, .atom node reached, none, n⟩) rest.length)
            (readGroup nesting (fun opened => readTerms source nesting turns (some opened) [])
              (.before reached outer.length (c :: rest))) := by
          subst hc
          exact readGroup_agrees (fun hbody => readTerms_agrees hrest hbody) h
        refine (readAtom_agrees hrest hgroup hclose h).bind ?_
        rintro node s ⟨n, rest', hmeets, hlength⟩
        refine (readQuantifier_agrees (Nat.lt_of_le_of_lt hlength hrest) hmeets).bind ?_
        rintro q s' ⟨n', rest'', hmeets', hlength'⟩
        have hlt : rest''.length < turns := by omega
        have honward := readTerms_agrees hlt hmeets'
        obtain rfl := hmeets'.cursor_eq
        rw [reached_before]
        exact honward.imp fun p s hlevel => hlevel.mono (Nat.le_succ_of_le (Nat.le_trans hlength' hlength))

theorem Agrees.eq_some {result : Option (Except Fault (Pattern × Cursor))}
    (h : Agrees answer (fun p _ => answer = .ok p) result) : result.map (Except.map Prod.fst) = some answer := by
  match result, h with
  | some (.error _), h => exact congrArg some h.symm
  | some (.ok (p, s)), h => exact congrArg some h.symm

end

end Descent

/-- **Reading by descent never gives up**, and it reads what the reader reads. -/
theorem Pattern.readByDescent_eq (text : Text) (limits : Limits) :
    readByDescent text limits = some (Pattern.read text limits) := by
  have hmeets : Descent.Meets limits.nesting text (Reader.run limits.nesting text) {} text (.before 0 0 text) :=
    ⟨rfl, Text.dropBytes?_append [] text, rfl⟩
  have hagrees := Descent.readTerms_agrees (Nat.lt_succ_self text.length) hmeets
  obtain ⟨result, hresult, hanswer⟩ := Option.map_eq_some_iff.1 hagrees.eq_some
  have hdescent : Descent.readTerms text limits.nesting (text.length + 1) none []
      ⟨(Token.scanFrom 0 text).map Token.lexeme, 0, 0⟩ = some result := hresult
  unfold readByDescent Pattern.read
  rw [Lexeme.scanFrom?_eq, ← hanswer]
  simp only [Option.bind_eq_bind, Option.bind_some, hdescent]
  rfl

/-- **Reading is safe for every text and every limit.**  The rules of the tokens give one token for each character, in
order: its span covers just this character, and its kind is the last one exactly when the character is neither special
nor a backslash.  The spans fill the text without a gap.  And reading these tokens by descent never gives up: no token
is taken where there is none, behind the body of a group stands a closing parenthesis, every token that is looked at
covers one character, the digits of a bound can be cut out of the text, no member of a set is read at the end of the
text, and all loops end.  What comes out is what the text is read as. -/
theorem Pattern.descent_never_gives_up (text : Text) (limits : Limits) :
    (∃ tokens, Lexeme.scanFrom? 0 text = some tokens ∧
      List.Forall₂ (fun t c => t.span.textIn? text = some [c] ∧
        (t.kind = .char ↔ c ∉ Text.specials ∧ c ≠ '\\')) tokens text ∧
      Span.Tile (tokens.map (·.span)) 0 text.size) ∧
    readByDescent text limits = some (Pattern.read text limits) := by
  refine ⟨⟨_, Lexeme.scanFrom?_eq 0 text, ?_, ?_⟩, readByDescent_eq text limits⟩
  · exact Lexeme.forall₂_scanFrom (Text.dropBytes?_append [] text)
  · have htile := Lexeme.tile_scanFrom 0 text
    rwa [Nat.zero_add] at htile

end PatternWalk
