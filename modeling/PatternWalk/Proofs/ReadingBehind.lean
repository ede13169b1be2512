import PatternWalk.Proofs.ReaderMoves
import PatternWalk.Proofs.UniqueReading
/-!
# ReadingBehind — reading goes on as it begins

A reader that has read some terms, with no piece and no group open, goes on as a new reader begins: it does the same
`n` bytes later, and the terms that it reads stand behind those it has.  This holds of every step that succeeds and of
every fault, and of the end of the text (`finish_behind`).  The one exception is a quantifier that the new reader finds
first: it has nothing to repeat, where the other has a term that is repeated or has been already.
-/
namespace PatternWalk

/-! ## Tokens and faults, further on -/

def Token.shift (n : Nat) (t : Token) : Token := { t with start := t.start + n }

def Fault.shift (n : Nat) (fault : Fault) : Fault := { fault with span := fault.span.shift n }

namespace Token

variable (n : Nat) (t : Token)

@[simp] theorem char_shift : (t.shift n).char = t.char := rfl

@[simp] theorem start_shift : (t.shift n).start = t.start + n := rfl

@[simp] theorem kind_shift : (t.shift n).kind = t.kind := rfl

@[simp] theorem stop_shift : (t.shift n).stop = t.stop + n := Nat.add_right_comm _ _ _

@[simp] theorem span_shift : (t.shift n).span = t.span.shift n := by
  rw [span, stop_shift]
  rfl

end Token

namespace Reader

/-! ## The state of a reader that has read terms before -/

section
variable (front : Pattern) (n : Nat)

def Mode.shift : Mode → Mode
  | .ready => .ready
  | .atom node start => .atom (node.shift n) (start + n)
  | .item opened set => .item (opened + n) set
  | .low opened set c start => .low (opened + n) set c (start + n)
  | .dash opened set c start middle => .dash (opened + n) set c (start + n) (middle + n)
  | .bound node start opened first? digits? => .bound (node.shift n) (start + n) (opened + n) first? digits?

/-- The terms of a level inside `outer`: those read before stand in front of them where no group is open. -/
def levelBehind : (outer : List OpenGroup) → Pattern → Pattern
  | [], terms => front ++ Pattern.shift n terms
  | _ :: _, terms => Pattern.shift n terms

def outerBehind : List OpenGroup → List OpenGroup
  | [] => []
  | group :: outer => ⟨group.start + n, levelBehind front n outer group.before⟩ :: outerBehind outer

/-- **The state of `r` with terms in front of it**, which were read from the `n` bytes before. -/
def behind (r : Reader) : Reader where
  outer := outerBehind front n r.outer
  terms := levelBehind front n r.outer r.terms
  mode := r.mode.shift n
  escape? := r.escape?.map (· + n)
  reached := r.reached + n

def answered {α β : Type} (f : α → β) : Except Fault α → Except Fault β
  | .ok a => .ok (f a)
  | .error fault => .error (fault.shift n)

end

structure IsFresh (r : Reader) : Prop where
  outer : r.outer = []
  terms : r.terms = []
  mode : r.mode = .ready
  escape? : r.escape? = none

variable {front : Pattern} {n nesting : Nat} {r : Reader} {t : Token}

@[simp] theorem answered_ok {α β : Type} (f : α → β) (a : α) : answered n f (.ok a) = .ok (f a) := rfl

@[simp] theorem answered_error {α β : Type} (f : α → β) (fault : Fault) :
    answered n f (.error fault) = .error (fault.shift n) := rfl

theorem levelBehind_cons (group : OpenGroup) (outer : List OpenGroup) (terms : Pattern) :
    levelBehind front n (group :: outer) terms = Pattern.shift n terms := rfl

theorem levelBehind_concat (outer : List OpenGroup) (terms : Pattern) (t : Term) :
    levelBehind front n outer (terms ++ [t]) = levelBehind front n outer terms ++ [t.shift n] := by
  cases outer <;> simp [levelBehind, Pattern.shift_append, Pattern.shift]

@[simp] theorem length_outerBehind : ∀ outer : List OpenGroup, (outerBehind front n outer).length = outer.length
  | [] => rfl
  | _ :: outer => by rw [outerBehind, List.length_cons, length_outerBehind outer, List.length_cons]

theorem isEmpty_levelBehind {outer : List OpenGroup} {terms : Pattern} (h : outer ≠ [] ∨ terms ≠ []) :
    (levelBehind front n outer terms).isEmpty = terms.isEmpty := by
  cases outer with
  | nil =>
    have hterms : terms ≠ [] := h.resolve_left (fun h => h rfl)
    cases terms with
    | nil => exact absurd rfl hterms
    | cons t terms => simp [levelBehind, Pattern.shift]
  | cons group outer => exact Pattern.isEmpty_shift n terms

theorem delimiter_add (start n : Nat) : delimiter (start + n) = (delimiter start).shift n := by
  simp only [delimiter, Span.shift, Nat.add_right_comm]

/-! ## Each step is the same, further on -/

theorem push_behind (r : Reader) (node : Node) (q : Quantifier) (start stop : Nat) :
    (r.behind front n).push (node.shift n) q (start + n) (stop + n) = (r.push node q start stop).behind front n := by
  simp only [push, behind, levelBehind_concat]
  rfl

theorem settle_behind (r : Reader) : (r.behind front n).settle = r.settle.behind front n := by
  obtain ⟨outer, terms, mode, escape?, reached⟩ := r
  cases mode with
  | atom node start => exact push_behind _ node .once start reached
  | ready | item | low | dash | bound => rfl

theorem letter_behind (r : Reader) (c : Char) (start stop : Nat) :
    (r.behind front n).letter c (start + n) (stop + n) = answered n (behind front n) (r.letter c start stop) := by
  obtain ⟨outer, terms, mode, escape?, reached⟩ := r
  cases mode with
  | dash opened set low first dash =>
    simp only [letter, behind, Mode.shift]
    split <;> rfl
  | ready | atom | item | low | bound => rfl

theorem letter_behind_token (r : Reader) (t : Token) :
    (r.behind front n).letter (t.shift n).char (t.shift n).start (t.shift n).stop =
      answered n (behind front n) (r.letter t.char t.start t.stop) := by
  rw [Token.char_shift, Token.start_shift, Token.stop_shift]
  exact letter_behind r t.char t.start t.stop

theorem closeGroup_behind (r : Reader) (t : Token) :
    (r.behind front n).closeGroup (t.shift n) = answered n (behind front n) (r.closeGroup t) := by
  obtain ⟨outer, terms, mode, escape?, reached⟩ := r
  cases outer with
  | nil =>
    simp only [closeGroup, behind, outerBehind, Token.span_shift]
    rfl
  | cons group outer =>
    simp only [closeGroup, behind, outerBehind, levelBehind_cons, Pattern.isEmpty_shift, Token.stop_shift]
    split
    · rfl
    · simp only [answered_ok, Mode.shift, Node.shift, Pattern.coalesce_shift, behind]

/-- **Where a term may begin**; a quantifier finds the same there unless nothing has been read yet. -/
theorem begin_behind (h : t.kind.startsQuantifier = true → r.outer ≠ [] ∨ r.terms ≠ []) :
    (r.behind front n).begin nesting (t.shift n) = answered n (behind front n) (r.begin nesting t) := by
  unfold begin
  rw [Token.kind_shift]
  cases hk : t.kind with
  | char => exact letter_behind_token r t
  | backslash => rfl
  | parenOpen =>
    simp only [behind, length_outerBehind, Token.span_shift]
    split <;> rfl
  | bracketOpen => rfl
  | parenClose => exact closeGroup_behind r t
  | bracketClose | braceClose | dash =>
    simp only [Token.span_shift]
    rfl
  | star | plus | question | braceOpen =>
    have hempty : (r.behind front n).terms.isEmpty = r.terms.isEmpty :=
      isEmpty_levelBehind (h (by rw [hk]; rfl))
    simp only [hempty, Token.span_shift]
    split <;> rfl

theorem beginItem_behind (r : Reader) (opened : Nat) (set : CharSet) (t : Token) :
    (r.behind front n).beginItem (opened + n) set (t.shift n) =
      answered n (behind front n) (r.beginItem opened set t) := by
  unfold beginItem
  rw [Token.kind_shift]
  cases t.kind with
  | char => exact letter_behind_token r t
  | backslash => rfl
  | bracketClose =>
    simp only [Token.stop_shift]
    split <;> rfl
  | _ =>
    simp only [Token.span_shift]
    rfl

theorem endRange_behind (r : Reader) (dash : Nat) (t : Token) :
    (r.behind front n).endRange (dash + n) (t.shift n) = answered n (behind front n) (r.endRange dash t) := by
  unfold endRange
  rw [Token.kind_shift]
  cases t.kind with
  | char => exact letter_behind_token r t
  | backslash => rfl
  | bracketClose =>
    rw [delimiter_add]
    rfl
  | _ =>
    simp only [Token.span_shift]
    rfl

theorem takeBound_behind (r : Reader) (node : Node) (start opened : Nat) (first? : Option UInt32)
    (digits? : Option Nat) (t : Token) :
    (r.behind front n).takeBound (node.shift n) (start + n) (opened + n) first? digits? (t.shift n) =
      answered n (behind front n) (r.takeBound node start opened first? digits? t) := by
  unfold takeBound
  simp only [Token.char_shift, Token.stop_shift]
  split
  · rfl
  · cases digits? with
    | none => rfl
    | some value =>
      dsimp only
      split
      · rfl
      · split
        · rfl
        · split
          · exact congrArg Except.ok (push_behind r node _ start t.stop)
          · rfl
        · rfl

theorem takeEscaped_behind (r : Reader) (back : Nat) (t : Token) :
    (r.behind front n).takeEscaped (back + n) (t.shift n) = answered n (behind front n) (r.takeEscaped back t) := by
  unfold takeEscaped
  rw [Token.kind_shift]
  split
  · simp only [Token.char_shift, Token.stop_shift]
    exact letter_behind { r with escape? := none } t.char back t.stop
  · simp only [Token.stop_shift]
    rfl

theorem take_behind (h : r.IsFresh → t.kind.startsQuantifier = false) :
    (r.behind front n).take nesting (t.shift n) = answered n (behind front n) (r.take nesting t) := by
  cases hescape : r.escape? with
  | some back =>
    have hback : (r.behind front n).escape? = some (back + n) := by rw [behind, hescape, Option.map_some]
    rw [take, take, hback, hescape]
    exact takeEscaped_behind r back t
  | none =>
    have hback : (r.behind front n).escape? = none := by rw [behind, hescape, Option.map_none]
    have hmode : (r.behind front n).mode = r.mode.shift n := rfl
    cases hm : r.mode with
    | ready =>
      rw [take, take, hback, hmode, hescape, hm]
      refine begin_behind fun hq => ?_
      by_contra hnone
      have hfresh : r.IsFresh := ⟨by tauto, by tauto, hm, hescape⟩
      rw [h hfresh] at hq
      cases hq
    | atom node start =>
      rw [hm] at hmode
      cases hq : t.kind.startsQuantifier with
      | false =>
        rw [Grammar.Draft.take_atom (t := t.shift n) hback hmode hq, Grammar.Draft.take_atom hescape hm hq,
          settle_behind]
        exact begin_behind fun h => by rw [hq] at h; cases h
      | true =>
        rw [take, take, hback, hmode, hescape, hm]
        simp only [Mode.shift, Token.kind_shift, Token.stop_shift]
        cases hk : t.kind with
        | star | plus | question => exact congrArg Except.ok (push_behind r node _ start t.stop)
        | braceOpen => rfl
        | _ =>
          rw [hk] at hq
          cases hq
    | item opened set =>
      rw [take, take, hback, hmode, hescape, hm]
      exact beginItem_behind r opened set t
    | low opened set c start =>
      rw [hm] at hmode
      by_cases hk : t.kind = .dash
      · rw [take, take, hback, hmode, hescape, hm, Token.kind_shift, hk]
        rfl
      · rw [Grammar.Draft.take_low (t := t.shift n) hback hmode hk, Grammar.Draft.take_low hescape hm hk, settle_behind]
        exact beginItem_behind r.settle opened (set.insert c) t
    | dash opened set c start dash =>
      rw [take, take, hback, hmode, hescape, hm]
      exact endRange_behind r dash t
    | bound node start opened first? digits? =>
      rw [take, take, hback, hmode, hescape, hm]
      exact takeBound_behind r node start opened first? digits? t

theorem step_behind (h : r.IsFresh → t.kind.startsQuantifier = false) :
    step nesting (r.behind front n) (t.shift n) = answered n (behind front n) (step nesting r t) := by
  rw [step, step, take_behind h]
  cases r.take nesting t with
  | error fault => rfl
  | ok r' =>
    rw [answered_ok, Token.stop_shift]
    rfl

theorem finish_behind (r : Reader) :
    (r.behind front n).finish = answered n (fun q => Pattern.coalesce (front ++ Pattern.shift n q)) r.finish := by
  have hterms : ∀ terms, Pattern.coalesce (front ++ Pattern.shift n terms) =
      Pattern.coalesce (front ++ Pattern.shift n (Pattern.coalesce terms)) := fun terms => by
    rw [← Pattern.coalesce_shift, Pattern.coalesce_append_coalesce]
  unfold finish
  rw [settle_behind]
  obtain ⟨outer, terms, mode, escape?, reached⟩ := r
  cases escape? with
  | some back => simp only [behind, Option.map_some, delimiter_add, answered_error, Fault.shift]
  | none =>
    cases mode with
    | ready =>
      cases outer with
      | nil => exact congrArg Except.ok (hterms terms)
      | cons group outer =>
        simp only [behind, Option.map_none, Mode.shift, outerBehind, delimiter_add, answered_error, Fault.shift]
    | atom node start =>
      cases outer with
      | nil => exact congrArg Except.ok (hterms _)
      | cons group outer =>
        simp only [behind, Option.map_none, Mode.shift, outerBehind, delimiter_add, answered_error, Fault.shift]
    | item | low | dash => simp only [behind, Option.map_none, Mode.shift, delimiter_add, answered_error, Fault.shift]
    | bound node start opened first? digits? =>
      simp only [behind, Option.map_none, Mode.shift, delimiter_add]
      split <;> rfl

end Reader

/-! ## A whole text -/

namespace Grammar
namespace Draft

variable {front : Pattern} {n nesting : Nat}

theorem text_of_isFresh {z : Draft} (h : z.reader.IsFresh) : z.text = [] := by
  obtain ⟨o, ps, piece⟩ := z
  obtain ⟨houter, hterms, hmode, hescape⟩ := h
  have ho : o = [] := by
    cases o with
    | nil => rfl
    | cons before o => cases houter
  have hps : ps = [] := by
    cases ps with
    | nil => rfl
    | cons phrase ps => cases hterms
  subst ho hps
  cases piece with
  | slot s b =>
    cases s with
    | term =>
      cases b with
      | false => rfl
      | true => cases hescape
    | item | rangeEnd => cases hmode
  | atom | letter | bound => cases hmode

/-- **A text is read further on as it is read here**, unless it begins with a quantifier and nothing stands before
it. -/
theorem foldlM_step_behind : ∀ {z : Draft} {s : Text}, (z.text = [] → NoSuffix s) →
    (Token.scanFrom (z.text.size + n) s).foldlM (Reader.step nesting) (z.reader.behind front n) =
      Reader.answered n (Reader.behind front n) ((Token.scanFrom z.text.size s).foldlM (Reader.step nesting) z.reader)
  | z, [], _ => rfl
  | z, c :: s, h => by
    have hstep : Reader.step nesting (z.reader.behind front n) ⟨c, z.text.size + n⟩ =
        Reader.answered n (Reader.behind front n) (Reader.step nesting z.reader ⟨c, z.text.size⟩) :=
      Reader.step_behind (t := ⟨c, z.text.size⟩) fun hz => h (text_of_isFresh hz) c rfl
    rw [Token.scanFrom, Token.scanFrom, List.foldlM_cons, List.foldlM_cons, hstep]
    cases hr : Reader.step nesting z.reader ⟨c, z.text.size⟩ with
    | error fault => rfl
    | ok r =>
      obtain ⟨z', hz, rfl⟩ := step_eq_ok_iff.1 hr
      have htext : z'.text = z.text ++ [c] := hz.text
      have hsize : z'.text.size = z.text.size + c.utf8Size := by simp [htext]
      -- something has been read now, so a quantifier is as good here as there
      have hrest := foldlM_step_behind (z := z') (s := s) fun hnil => by simp [htext] at hnil
      rw [hsize, Nat.add_right_comm] at hrest
      exact hrest

end Draft
end Grammar

end PatternWalk
