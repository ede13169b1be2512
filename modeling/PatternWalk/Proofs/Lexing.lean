import Mathlib.Data.List.Forall2
import PatternWalk.Proofs.Places
import PatternWalk.Proofs.Roles
/-!
# Lexing — the rules of the tokens, tried on each character

Every kind of token has a rule: that of an operator or of the backslash matches one character, and the last one matches
the characters that have no rule of their own.  Lexing takes the token of the rule that matches, and gives up unless it
is exactly one.  It never does (`scanFrom?_eq`): the kinds divide the characters among them.  Its tokens are those of
`Token.scan`, told by their kinds and spans, and the spans cut the text into its characters.
-/
namespace PatternWalk

namespace Token.Kind

def written? : Kind → Option Char
  | parenOpen => some '('
  | parenClose => some ')'
  | bracketOpen => some '['
  | bracketClose => some ']'
  | braceOpen => some '{'
  | braceClose => some '}'
  | dash => some '-'
  | plus => some '+'
  | star => some '*'
  | question => some '?'
  | backslash => some '\\'
  | char => none

/-- **The rule of a kind**: its one character, or any that is not written as a token of another kind. -/
def accepts (kind : Kind) (c : Char) : Bool :=
  match kind.written? with
  | some w => c == w
  | none => !(['(', ')', '[', ']', '{', '}', '-', '+', '*', '?', '\\'].contains c)

def all : List Kind :=
  [parenOpen, parenClose, bracketOpen, bracketClose, braceOpen, braceClose, dash, plus, star, question, backslash, char]

end Token.Kind

structure Lexeme where
  kind : Token.Kind
  span : Span
deriving DecidableEq, Repr

namespace Lexeme

/-- **Lexes a text that begins at a byte offset**; nothing unless each character is matched by exactly one rule. -/
def scanFrom? : (start : Nat) → Text → Option (List Lexeme)
  | _, [] => some []
  | start, c :: s =>
    match Token.Kind.all.filter (·.accepts c) with
    | [kind] => (scanFrom? (start + c.utf8Size) s).map (⟨kind, ⟨start, start + c.utf8Size⟩⟩ :: ·)
    | _ => none

def char? (t : Lexeme) (source : Text) : Option Char :=
  match t.span.textIn? source with
  | some [c] => some c
  | _ => none

end Lexeme

/-! ## Characters from a byte on -/

section
variable {source s rest : Text} {start : Nat}

theorem Text.dropBytes?_add_size (h : source.dropBytes? start = some (s ++ rest)) :
    source.dropBytes? (start + s.size) = some rest := by
  obtain ⟨front, rfl, rfl⟩ := Text.eq_append_of_dropBytes? h
  rw [← size_append, ← List.append_assoc]
  exact dropBytes?_append (front ++ s) rest

theorem Text.slice?_of_dropBytes? (h : source.dropBytes? start = some (s ++ rest)) :
    source.slice? start (start + s.size) = some s := by
  obtain ⟨front, rfl, rfl⟩ := Text.eq_append_of_dropBytes? h
  rw [← size_append, ← List.append_assoc]
  exact slice?_append front s rest

theorem Text.dropBytes?_add_utf8Size {c : Char} (h : source.dropBytes? start = some (c :: rest)) :
    source.dropBytes? (start + c.utf8Size) = some rest :=
  dropBytes?_add_size (s := [c]) h

end

/-! ## One rule for each character -/

namespace Token

theorem Kind.filter_accepts (c : Char) : Kind.all.filter (·.accepts c) = [Kind.ofChar c] := by
  rcases Grammar.role_cases c with hc | rfl | rfl | rfl | rfl | rfl | rfl | rfl | rfl | rfl | rfl | rfl
  · obtain ⟨hspecial, hescape⟩ := Grammar.notMem_of_ordinary hc
    rw [Grammar.kind_of_ordinary hc]
    simp only [Text.specials, List.mem_cons, List.not_mem_nil, or_false, not_or] at hspecial
    simp [Kind.all, Kind.accepts, Kind.written?, hspecial, hescape]
  all_goals decide

theorem Kind.eq_of_written? {kind : Kind} {c w : Char} (h : Kind.ofChar c = kind) (hw : kind.written? = some w) :
    c = w := by
  subst h
  rcases Grammar.role_cases c with hc | rfl | rfl | rfl | rfl | rfl | rfl | rfl | rfl | rfl | rfl | rfl
  · rw [Grammar.kind_of_ordinary hc] at hw
    cases hw
  all_goals exact Option.some.inj hw

theorem Kind.ofChar_eq_char_iff (c : Char) : Kind.ofChar c = .char ↔ c ∉ Text.specials ∧ c ≠ '\\' := by
  rcases Grammar.role_cases c with hc | rfl | rfl | rfl | rfl | rfl | rfl | rfl | rfl | rfl | rfl | rfl
  · exact iff_of_true (Grammar.kind_of_ordinary hc) (Grammar.notMem_of_ordinary hc)
  all_goals decide

def lexeme (t : Token) : Lexeme := ⟨t.kind, t.span⟩

end Token

namespace Lexeme

theorem scanFrom?_eq : ∀ (start : Nat) (s : Text), scanFrom? start s = some ((Token.scanFrom start s).map Token.lexeme)
  | _, [] => rfl
  | start, c :: s => by
    rw [scanFrom?, Token.Kind.filter_accepts, scanFrom?_eq]
    rfl

theorem char?_eq_some_iff {t : Lexeme} {source : Text} {c : Char} :
    t.char? source = some c ↔ t.span.textIn? source = some [c] := by
  unfold char?
  split <;> simp_all

theorem char?_lexeme {source rest : Text} {start : Nat} {c : Char} (h : source.dropBytes? start = some (c :: rest)) :
    (Token.lexeme ⟨c, start⟩).char? source = some c :=
  char?_eq_some_iff.2 (Text.slice?_of_dropBytes? (s := [c]) h)

theorem forall₂_scanFrom {source : Text} : ∀ {start : Nat} {s : Text}, source.dropBytes? start = some s →
    List.Forall₂ (fun t c => t.span.textIn? source = some [c] ∧ (t.kind = .char ↔ c ∉ Text.specials ∧ c ≠ '\\'))
      ((Token.scanFrom start s).map Token.lexeme) s
  | _, [], _ => .nil
  | _, c :: _, h =>
    .cons ⟨Text.slice?_of_dropBytes? (s := [c]) h, Token.Kind.ofChar_eq_char_iff c⟩
      (forall₂_scanFrom (Text.dropBytes?_add_utf8Size h))

theorem tile_scanFrom : ∀ (start : Nat) (s : Text),
    Span.Tile (((Token.scanFrom start s).map Token.lexeme).map (·.span)) start (start + s.size)
  | _, [] => rfl
  | start, c :: s => by
    have hrest := tile_scanFrom (start + c.utf8Size) s
    rw [Nat.add_assoc] at hrest
    exact ⟨rfl, Nat.lt_add_of_pos_right c.utf8Size_pos, hrest⟩

end Lexeme

end PatternWalk
