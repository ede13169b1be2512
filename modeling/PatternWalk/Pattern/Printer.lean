import PatternWalk.Pattern.Basic
/-!
# Canonical printing — a pattern as the text that reads back as it

Every special character is written behind a backslash, and a quantified literal of more than one character stands in
parentheses, so that the quantifier keeps applying to all of it.
-/
namespace PatternWalk

namespace Text

def specials : List Char := ['(', ')', '[', ']', '{', '}', '-', '+', '*', '?']

def isSpecial (c : Char) : Bool := specials.contains c

def escape : Char := '\\'

/-- **The character must be written behind a backslash** to stand for itself. -/
def needsEscape (c : Char) : Bool := c == escape || isSpecial c

def escapeChar (c : Char) : Text := if needsEscape c then [escape, c] else [c]

def escapeAll : Text → Text
  | [] => []
  | c :: s => escapeChar c ++ escapeAll s

def decimal (n : Nat) : Text := Nat.toDigits 10 n

end Text

def Quantifier.print : Quantifier → Text
  | .once => []
  | .zeroOrMore => ['*']
  | .zeroOrOne => ['?']
  | .oneOrMore => ['+']
  | .between low high => '{' :: Text.decimal low.toNat ++ ',' :: Text.decimal high.toNat ++ ['}']

def CharRange.print (r : CharRange) : Text := Text.escapeChar r.low ++ '-' :: Text.escapeChar r.high

def CharRange.printAll : List CharRange → Text
  | [] => []
  | r :: ranges => r.print ++ printAll ranges

/-- **The set as it is written**: members first, then ranges, between brackets. -/
def CharSet.print (set : CharSet) : Text :=
  '[' :: Text.escapeAll set.members ++ CharRange.printAll set.ranges ++ [']']

/-- The printed node goes in parentheses before the quantifier: a literal of more than one character does. -/
def Node.needsGroup : Node → Quantifier → Bool
  | .literal (_ :: _ :: _), q => q.isExplicit
  | _, _ => false

mutual
def Node.print : Node → Text
  | .literal text => Text.escapeAll text
  | .charSet set => set.print
  | .group body => '(' :: Pattern.print body ++ [')']
def Term.print : Term → Text
  | ⟨node, q, _⟩ =>
    (if node.needsGroup q then '(' :: node.print ++ [')'] else node.print) ++ q.print
/-- **The pattern in canonical syntax.** -/
def Pattern.print : Pattern → Text
  | [] => []
  | t :: p => t.print ++ Pattern.print p
end

end PatternWalk
