import PatternWalk.Text
/-!
# Token — one character of a pattern, by its role

Every character is a token of its own.  Whether it is an operator or plain text is for the reader to decide, since a
digit or a comma is plain except between braces; so cutting a pattern into tokens cannot fail.
-/
namespace PatternWalk

/-- **What kind of character a token is**: one of the operators, the backslash, or any other. -/
inductive Token.Kind where
  | parenOpen
  | parenClose
  | bracketOpen
  | bracketClose
  | braceOpen
  | braceClose
  | dash
  | plus
  | star
  | question
  | backslash
  | char
deriving DecidableEq, Repr, Inhabited

namespace Token.Kind

def ofChar : Char → Kind
  | '(' => parenOpen
  | ')' => parenClose
  | '[' => bracketOpen
  | ']' => bracketClose
  | '{' => braceOpen
  | '}' => braceClose
  | '-' => dash
  | '+' => plus
  | '*' => star
  | '?' => question
  | '\\' => backslash
  | _ => char

def startsQuantifier : Kind → Bool
  | star | plus | question | braceOpen => true
  | _ => false

def isEscapable : Kind → Bool
  | char => false
  | _ => true

end Token.Kind

/-- **A token**: a character and the byte at which it starts. -/
structure Token where
  char : Char
  start : Nat
deriving DecidableEq, Repr, Inhabited

namespace Token

def kind (t : Token) : Kind := Kind.ofChar t.char

def stop (t : Token) : Nat := t.start + t.char.utf8Size

def span (t : Token) : Span := ⟨t.start, t.stop⟩

def scanFrom : (start : Nat) → Text → List Token
  | _, [] => []
  | start, c :: s => ⟨c, start⟩ :: scanFrom (start + c.utf8Size) s

def scan (s : Text) : List Token := scanFrom 0 s

theorem scanFrom_append : ∀ (start : Nat) (s t : Text),
    scanFrom start (s ++ t) = scanFrom start s ++ scanFrom (start + s.size) t
  | _, [], _ => by simp [scanFrom]
  | start, c :: s, t => by simp [scanFrom, scanFrom_append (start + c.utf8Size) s t, Nat.add_assoc]

end Token

end PatternWalk
