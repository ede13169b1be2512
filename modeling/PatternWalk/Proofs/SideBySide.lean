import PatternWalk.Proofs.Descent
import PatternWalk.Proofs.ReaderMoves
/-!
# SideBySide — a descent and the reader before the same text

The reader goes on from a state with the text ahead, and comes to an answer (`Reader.goOn`).  A part of a descent agrees
with it (`Agrees`) if it does not give up, and either stops with that answer or leaves both before the same rest, in a
state of the reader that says what the part has read (`Meets`, `Leaves`).
-/
namespace PatternWalk

namespace Reader

variable {nesting : Nat} {r r' : Reader} {c : Char} {rest : Text} {fault : Fault}

/-- **What the reader comes to** from a state on, with this text ahead. -/
def goOn (nesting : Nat) (r : Reader) (rest : Text) : Except Fault Pattern :=
  ((Token.scanFrom r.reached rest).foldlM (step nesting) r).bind finish

theorem goOn_cons (r : Reader) (c : Char) (rest : Text) : r.goOn nesting (c :: rest) =
    (r.take nesting ⟨c, r.reached⟩).bind fun r' => { r' with reached := r.reached + c.utf8Size }.goOn nesting rest := by
  unfold goOn
  rw [Token.scanFrom, List.foldlM_cons]
  cases h : r.take nesting ⟨c, r.reached⟩ with
  | error fault =>
    rw [step, h]
    rfl
  | ok r' =>
    rw [step, h]
    rfl

theorem goOn_of_ok (h : r.take nesting ⟨c, r.reached⟩ = .ok r') :
    r.goOn nesting (c :: rest) = { r' with reached := r.reached + c.utf8Size }.goOn nesting rest := by
  rw [goOn_cons, h]
  rfl

theorem goOn_of_error (h : r.take nesting ⟨c, r.reached⟩ = .error fault) :
    r.goOn nesting (c :: rest) = .error fault := by
  rw [goOn_cons, h]
  rfl

theorem letter_reached (r : Reader) (n : Nat) (c : Char) (start stop : Nat) :
    { r with reached := n }.letter c start stop = (r.letter c start stop).map ({ · with reached := n }) := by
  obtain ⟨outer, terms, mode, escape?, reached⟩ := r
  cases mode with
  | dash opened set low first dash =>
    unfold letter
    dsimp only
    split <;> rfl
  | _ => rfl

theorem take_member {outer : List OpenGroup} {terms : Pattern} {mode : Mode} {opened reached : Nat} {set : CharSet}
    (hmode : mode = .item opened set ∨ ∃ low first dash, mode = .dash opened set low first dash)
    (hc : Token.Kind.ofChar c ≠ .bracketClose) :
    take nesting ⟨outer, terms, mode, none, reached⟩ ⟨c, reached⟩ =
      match Token.Kind.ofChar c with
      | .char => letter ⟨outer, terms, mode, none, reached⟩ c reached (reached + c.utf8Size)
      | .backslash => .ok ⟨outer, terms, mode, some reached, reached⟩
      | _ => .error ⟨.unescapedSpecial, ⟨reached, reached + c.utf8Size⟩⟩ := by
  rcases hmode with rfl | ⟨low, first, dash, rfl⟩
  · change beginItem _ _ _ _ = _
    unfold beginItem Token.kind
    dsimp only
    cases hk : Token.Kind.ofChar c <;> first | rfl | exact absurd hk hc
  · change endRange _ _ _ = _
    unfold endRange Token.kind
    dsimp only
    cases hk : Token.Kind.ofChar c <;> first | rfl | exact absurd hk hc

theorem takeBound_comma {node : Node} {start opened value offset : Nat} (hfits : value ≤ greatestBound) :
    r.takeBound node start opened none (some value) ⟨',', offset⟩ =
      .ok { r with mode := .bound node start opened (some value.toUInt32) none } := by
  have hcomma : ¬ (⟨',', offset⟩ : Token).char.isDigit = true := Bool.false_ne_true
  unfold takeBound
  rw [if_neg hcomma]
  exact if_neg (Nat.not_lt.2 hfits)

theorem takeBound_close {node : Node} {start opened value offset : Nat} {low : UInt32} (hfits : value ≤ greatestBound)
    (h : low ≤ value.toUInt32) : r.takeBound node start opened (some low) (some value) ⟨'}', offset⟩ =
      .ok (r.push node (.between low value.toUInt32) start (⟨'}', offset⟩ : Token).stop) := by
  have hbrace : ¬ (⟨'}', offset⟩ : Token).char.isDigit = true := Bool.false_ne_true
  unfold takeBound
  rw [if_neg hbrace]
  dsimp only
  rw [if_neg (Nat.not_lt.2 hfits)]
  exact if_pos h

theorem goOn_atom {outer : List OpenGroup} {terms : Pattern} {node : Node} {start reached : Nat}
    (h : ∀ c ∈ rest.head?, (Token.Kind.ofChar c).startsQuantifier = false) :
    goOn nesting ⟨outer, terms, .atom node start, none, reached⟩ rest =
      goOn nesting ⟨outer, terms ++ [⟨node, .once, ⟨start, reached⟩⟩], .ready, none, reached⟩ rest := by
  cases rest with
  | nil => cases outer <;> rfl
  | cons c rest =>
    rw [goOn_cons, goOn_cons]
    exact congrArg (Except.bind · _) (Grammar.Draft.take_atom rfl rfl (h c rfl))

theorem goOn_low {outer : List OpenGroup} {terms : Pattern} {opened start reached : Nat} {set : CharSet} {low : Char}
    (h : ∀ c ∈ rest.head?, Token.Kind.ofChar c ≠ .dash) :
    goOn nesting ⟨outer, terms, .low opened set low start, none, reached⟩ rest =
      goOn nesting ⟨outer, terms, .item opened (set.insert low), none, reached⟩ rest := by
  cases rest with
  | nil => rfl
  | cons c rest =>
    rw [goOn_cons, goOn_cons]
    exact congrArg (Except.bind · _) (Grammar.Draft.take_low rfl rfl (h c rfl))

theorem goOn_digits {outer : List OpenGroup} {terms : Pattern} {node : Node} {start opened : Nat}
    {first? : Option UInt32} : ∀ {front digits : Text} {reached : Nat}, (∀ c ∈ digits, c.isDigit = true) →
      goOn nesting ⟨outer, terms, .bound node start opened first? (Grammar.digitsValue? front), none, reached⟩
          (digits ++ rest) =
        goOn nesting ⟨outer, terms, .bound node start opened first? (Grammar.digitsValue? (front ++ digits)), none,
          reached + digits.size⟩ rest
  | _, [], _, _ => by
    rw [List.append_nil]
    rfl
  | front, c :: digits, reached, h => by
    have hc := h c List.mem_cons_self
    have htake : take nesting
        ⟨outer, terms, .bound node start opened first? (Grammar.digitsValue? front), none, reached⟩ ⟨c, reached⟩ =
          .ok ⟨outer, terms, .bound node start opened first? (Grammar.digitsValue? (front ++ [c])), none, reached⟩ := by
      rw [Grammar.digitsValue?_concat]
      exact if_pos hc
    rw [List.cons_append, goOn_of_ok htake, goOn_digits fun d hd => h d (List.mem_cons_of_mem c hd), List.append_assoc,
      Text.size_cons, ← Nat.add_assoc]
    rfl

end Reader

theorem Span.cover_of_le {a b c d : Nat} (hstart : a ≤ c) (hstop : b ≤ d) : Span.cover ⟨a, b⟩ ⟨c, d⟩ = ⟨a, d⟩ := by
  rw [cover, Nat.min_eq_left hstart, Nat.max_eq_right hstop]

/-! ## A descent and the reader side by side -/

def Cursor.before (reached depth : Nat) (rest : Text) : Cursor :=
  ⟨(Token.scanFrom reached rest).map Token.lexeme, reached, depth⟩

namespace Descent

variable {α β : Type}

section
variable {reached depth : Nat} {c : Char} {rest source : Text}

theorem bind_of_ok {m : Descent α} {a : α} {s s' : Cursor} (h : m s = some (.ok (a, s'))) (k : α → Descent β) :
    (m >>= k) s = k a s' := by
  change m.bind k s = _
  rw [Descent.bind, h]

theorem pure_bind_apply (a : α) (k : α → Descent β) (s : Cursor) : ((pure a : Descent α) >>= k) s = k a s := rfl

theorem current?_nil (k : Option Lexeme → Descent β) :
    (current? >>= k) (.before reached depth []) = k none (.before reached depth []) := rfl

theorem current?_cons (k : Option Lexeme → Descent β) : (current? >>= k) (.before reached depth (c :: rest)) =
    k (some ⟨Token.Kind.ofChar c, ⟨reached, reached + c.utf8Size⟩⟩) (.before reached depth (c :: rest)) := rfl

theorem currentKind?_cons (k : Option Token.Kind → Descent β) :
    (currentKind? >>= k) (.before reached depth (c :: rest)) =
      k (some (Token.Kind.ofChar c)) (.before reached depth (c :: rest)) := rfl

theorem reached_before (k : Nat → Descent β) :
    (Descent.reached >>= k) (.before reached depth rest) = k reached (.before reached depth rest) := rfl

theorem bump_cons (k : Lexeme → Descent β) : (bump >>= k) (.before reached depth (c :: rest)) =
    k ⟨Token.Kind.ofChar c, ⟨reached, reached + c.utf8Size⟩⟩ (.before (reached + c.utf8Size) depth rest) := rfl

theorem charOf_lexeme (h : source.dropBytes? reached = some (c :: rest)) :
    charOf source ⟨Token.Kind.ofChar c, ⟨reached, reached + c.utf8Size⟩⟩ = pure c := by
  have hchar : Lexeme.char? ⟨Token.Kind.ofChar c, ⟨reached, reached + c.utf8Size⟩⟩ source = some c :=
    Lexeme.char?_lexeme h
  unfold charOf
  rw [hchar]

theorem isChar_lexeme {accepts : Char → Bool} (h : source.dropBytes? reached = some (c :: rest))
    (hplain : accepts c = true → Token.Kind.ofChar c = .char) :
    isChar source accepts ⟨Token.Kind.ofChar c, ⟨reached, reached + c.utf8Size⟩⟩ = pure (accepts c) := by
  unfold isChar
  rw [charOf_lexeme h]
  by_cases hc : Token.Kind.ofChar c = .char
  · rw [if_pos hc]
    rfl
  · rw [if_neg hc, Bool.eq_false_iff.2 (mt hplain hc)]

end

/-- **A part of a descent agrees with the reader**, which comes to this answer: it does not give up, and if it stops,
then with this answer; otherwise what it has read and where it stands are as they should be. -/
def Agrees (answer : Except Fault Pattern) (post : α → Cursor → Prop) :
    Option (Except Fault (α × Cursor)) → Prop
  | none => False
  | some (.error fault) => answer = .error fault
  | some (.ok (a, s)) => post a s

theorem Agrees.bind {answer : Except Fault Pattern} {post : α → Cursor → Prop} {post' : β → Cursor → Prop}
    {m : Descent α} {k : α → Descent β} {s : Cursor} (h : Agrees answer post (m s))
    (hk : ∀ a s, post a s → Agrees answer post' (k a s)) : Agrees answer post' ((m >>= k) s) := by
  change Agrees answer post' (m.bind k s)
  unfold Descent.bind
  cases hm : m s with
  | none =>
    rw [hm] at h
    exact h.elim
  | some result =>
    rw [hm] at h
    cases result with
    | error fault => exact h
    | ok read => exact hk read.1 read.2 h

theorem Agrees.imp {answer : Except Fault Pattern} {post post' : α → Cursor → Prop}
    {result : Option (Except Fault (α × Cursor))} (h : Agrees answer post result)
    (himp : ∀ a s, post a s → post' a s) : Agrees answer post' result := by
  match result, h with
  | some (.error _), h => exact h
  | some (.ok (a, s)), h => exact himp a s h

/-- **The reader and a descent meet**: the reader is in this state, both stand before the same rest of the source, with
as many groups open, and the reader comes to the answer from there. -/
structure Meets (nesting : Nat) (source : Text) (answer : Except Fault Pattern) (r : Reader) (rest : Text)
    (s : Cursor) : Prop where
  cursor_eq : s = .before r.reached r.outer.length rest
  rest_eq : source.dropBytes? r.reached = some rest
  answer_eq : answer = r.goOn nesting rest

def Leaves (nesting : Nat) (source : Text) (answer : Except Fault Pattern) (next : α → Nat → Reader) (length : Nat)
    (a : α) (s : Cursor) : Prop :=
  ∃ reached rest, Meets nesting source answer (next a reached) rest s ∧ rest.length ≤ length

theorem Agrees.mono {nesting : Nat} {source : Text} {answer : Except Fault Pattern} {next : α → Nat → Reader}
    {length length' : Nat} {result : Option (Except Fault (α × Cursor))}
    (h : Agrees answer (Leaves nesting source answer next length) result) (hle : length ≤ length') :
    Agrees answer (Leaves nesting source answer next length') result :=
  h.imp fun _ _ ⟨reached, rest, hmeets, hlength⟩ => ⟨reached, rest, hmeets, Nat.le_trans hlength hle⟩

def HasLetter (nesting : Nat) (source : Text) (answer : Except Fault Pattern) (r : Reader) (length : Nat) (c : Char)
    (s : Cursor) : Prop :=
  ∃ stop rest, s = .before stop r.outer.length rest ∧ source.dropBytes? stop = some rest ∧ rest.length ≤ length ∧
    answer = (r.letter c r.reached stop).bind fun r' => { r' with reached := stop }.goOn nesting rest

section
variable {nesting reached : Nat} {source rest : Text} {answer : Except Fault Pattern} {r : Reader} {s : Cursor}
  {c : Char} {outer : List Reader.OpenGroup} {terms : Pattern} {mode : Reader.Mode} {escape? : Option Nat}

theorem Meets.step {outer' : List Reader.OpenGroup} {terms' : Pattern} {mode' : Reader.Mode} {escape?' : Option Nat}
    {reached' : Nat} (h : Meets nesting source answer ⟨outer, terms, mode, escape?, reached⟩ (c :: rest) s)
    (htake : Reader.take nesting ⟨outer, terms, mode, escape?, reached⟩ ⟨c, reached⟩ =
      .ok ⟨outer', terms', mode', escape?', reached'⟩) :
    Meets nesting source answer ⟨outer', terms', mode', escape?', reached + c.utf8Size⟩ rest
      (.before (reached + c.utf8Size) outer'.length rest) where
  cursor_eq := rfl
  rest_eq := Text.dropBytes?_add_utf8Size h.rest_eq
  answer_eq := h.answer_eq.trans (Reader.goOn_of_ok htake)

theorem Meets.answer_eq_error (h : Meets nesting source answer r (c :: rest) s) {fault : Fault}
    (htake : r.take nesting ⟨c, r.reached⟩ = .error fault) : answer = .error fault :=
  h.answer_eq.trans (Reader.goOn_of_error htake)

end

end Descent

end PatternWalk
