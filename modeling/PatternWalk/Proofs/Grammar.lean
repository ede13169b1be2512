import PatternWalk.Pattern.Printer
import PatternWalk.Proofs.Coalescing
/-!
# Grammar — the derivations of the pattern language

A pattern text is a sequence of phrases, and a phrase is an atom with at most one suffix:

    Pattern := Phrase*
    Phrase  := Atom Suffix?
    Atom    := Letter | '[' Item+ ']' | '(' Phrase+ ')'
    Item    := Letter | Letter '-' Letter
    Letter  := c | '\' c
    Suffix  := '*' | '+' | '?' | '{' Bound ',' Bound '}'
    Bound   := digit+

The types below are the derivation trees of this grammar.  What the grammar demands beside its shape is carried by the
trees: which characters stand for themselves, that a range and two bounds are in order, that a bound fits a word.
`text` is the text that a tree derives, and `terms` are the terms it means.
-/
namespace PatternWalk

/-! ## First occurrences -/

theorem nodup_eraseDups {α : Type} [BEq α] [LawfulBEq α] : ∀ l : List α, l.eraseDups.Nodup
  | [] => List.nodup_nil
  | a :: l => by
    rw [List.eraseDups_cons, List.nodup_cons]
    refine ⟨?_, nodup_eraseDups _⟩
    simp [List.mem_eraseDups]
termination_by l => l.length
decreasing_by
  exact Nat.lt_succ_of_le (List.length_filter_le _ l)

theorem eraseDups_concat_of_mem {α : Type} [BEq α] [LawfulBEq α] {l : List α} {a : α} (h : a ∈ l.eraseDups) :
    (l ++ [a]).eraseDups = l.eraseDups := by
  have ha : a ∈ l := List.mem_eraseDups.1 h
  simp [List.eraseDups_append, List.removeAll, ha]

theorem eraseDups_concat_of_notMem {α : Type} [BEq α] [LawfulBEq α] {l : List α} {a : α} (h : a ∉ l.eraseDups) :
    (l ++ [a]).eraseDups = l.eraseDups ++ [a] := by
  have ha : a ∉ l := fun ha => h (List.mem_eraseDups.2 ha)
  simp [List.eraseDups_append, List.removeAll, ha, List.eraseDups_cons]

namespace Grammar

/-- **A character as it is written**: for itself, or behind a backslash. -/
inductive Letter where
  | plain (c : Char) (ordinary : Text.needsEscape c = false)
  | escaped (c : Char) (special : Text.needsEscape c = true)

namespace Letter

def char : Letter → Char
  | plain c _ | escaped c _ => c

def text : Letter → Text
  | plain c _ => [c]
  | escaped c _ => ['\\', c]

end Letter

/-- **An item of a set**: a member, or a range whose ends are in order. -/
inductive Item where
  | member (letter : Letter)
  | range (low high : Letter) (ordered : low.char ≤ high.char)

namespace Item

def text : Item → Text
  | member letter => letter.text
  | range low high _ => low.text ++ '-' :: high.text

def member? : Item → Option Char
  | member letter => some letter.char
  | range _ _ _ => none

def range? : Item → Option CharRange
  | member _ => none
  | range low high _ => some ⟨low.char, high.char⟩

/-- **The set that items mean**: the members by their first occurrences, and the ranges. -/
def charSet (items : List Item) : CharSet where
  members := (items.filterMap member?).eraseDups
  ranges := items.filterMap range?
  distinct := nodup_eraseDups _

end Item

/-- **A bound of a repetition**: decimal digits, leading zeros allowed, whose value fits 32 bits. -/
structure Bound where
  digits : Text
  nonempty : digits ≠ []
  decimal : ∀ c ∈ digits, c.isDigit = true
  fits : Nat.ofDigitChars 10 digits 0 ≤ 4294967295

namespace Bound

def value (b : Bound) : Nat := Nat.ofDigitChars 10 b.digits 0

theorem toNat_value (b : Bound) : b.value.toUInt32.toNat = b.value := by
  have := b.fits
  exact UInt32.toNat_ofNat_of_lt' (by unfold value; simp only [UInt32.size]; omega)

end Bound

inductive Suffix where
  | star
  | plus
  | question
  | braces (low high : Bound) (ordered : low.value ≤ high.value)

namespace Suffix

def text : Suffix → Text
  | star => ['*']
  | plus => ['+']
  | question => ['?']
  | braces low high _ => '{' :: low.digits ++ ',' :: high.digits ++ ['}']

def quantifier : Suffix → Quantifier
  | star => .zeroOrMore
  | plus => .oneOrMore
  | question => .zeroOrOne
  | braces low high _ => .between low.value.toUInt32 high.value.toUInt32

def textOf : Option Suffix → Text
  | none => []
  | some suffix => suffix.text

def quantifierOf : Option Suffix → Quantifier
  | none => .once
  | some suffix => suffix.quantifier

end Suffix

mutual
/-- **What one repetition of a term is written as.**  Sets and groups have a first part, so none is empty. -/
inductive Atom where
  | letter (letter : Letter)
  | set (first : Item) (items : List Item)
  | group (first : Phrase) (body : List Phrase)
structure Phrase where
  atom : Atom
  suffix? : Option Suffix
end

/-- **A derivation of a pattern**: its phrases in order. -/
abbrev Derivation := List Phrase

/-! ## The text that is derived -/

mutual
def Atom.text : Atom → Text
  | .letter letter => letter.text
  | .set first items => '[' :: (first :: items).flatMap Item.text ++ [']']
  | .group first body => '(' :: (first.text ++ Derivation.text body) ++ [')']
def Phrase.text : Phrase → Text
  | ⟨atom, suffix?⟩ => atom.text ++ Suffix.textOf suffix?
def Derivation.text : Derivation → Text
  | [] => []
  | phrase :: d => phrase.text ++ Derivation.text d
end

/-! ## Nesting -/

mutual
def Atom.depth : Atom → Nat
  | .letter _ | .set _ _ => 0
  | .group first body => max first.depth (Derivation.depth body) + 1
def Phrase.depth : Phrase → Nat
  | ⟨atom, _⟩ => atom.depth
def Derivation.depth : Derivation → Nat
  | [] => 0
  | phrase :: d => max phrase.depth (Derivation.depth d)
end

/-! ## The terms that are meant -/

mutual
def Atom.node : Atom → (start : Nat) → Node
  | .letter letter, _ => .literal [letter.char]
  | .set first items, _ => .charSet (Item.charSet (first :: items))
  | .group first body, start =>
    .group (Pattern.joinRuns
      (first.term (start + 1) :: Derivation.terms body (start + 1 + first.text.size)))
def Phrase.term : Phrase → (start : Nat) → Term
  | ⟨atom, suffix?⟩, start =>
    ⟨atom.node start, Suffix.quantifierOf suffix?,
      ⟨start, start + (atom.text ++ Suffix.textOf suffix?).size⟩⟩
/-- **The terms of a derivation**, one for each phrase, whose text starts at byte `start`.  The runs of literals in the
bodies of groups are joined, those on this level are not. -/
def Derivation.terms : Derivation → (start : Nat) → Pattern
  | [], _ => []
  | phrase :: d, start => phrase.term start :: Derivation.terms d (start + phrase.text.size)
end

/-- **The pattern a derivation means**: its terms, with the runs of literals joined on every level. -/
def Derivation.pattern (d : Derivation) : Pattern := Pattern.joinRuns (Derivation.terms d 0)

/-! ## Derivations in a row -/

namespace Derivation

@[simp] theorem text_append : ∀ d e : Derivation, text (d ++ e) = text d ++ text e
  | [], _ => rfl
  | phrase :: d, e => by simp only [List.cons_append, text, text_append d e, List.append_assoc]

theorem depth_append : ∀ d e : Derivation, depth (d ++ e) = max (depth d) (depth e)
  | [], e => by simp [depth]
  | phrase :: d, e => by simp only [List.cons_append, depth, depth_append d e, max_assoc]

theorem terms_append : ∀ (d e : Derivation) (start : Nat),
    terms (d ++ e) start = terms d start ++ terms e (start + (text d).size)
  | [], _, _ => by simp [terms, text]
  | phrase :: d, e, start => by
    simp only [List.cons_append, terms, text, terms_append d e, Text.size_append, Nat.add_assoc]

end Derivation

end Grammar

end PatternWalk
