import PatternWalk.Pattern.Printer
import PatternWalk.Token
/-!
# Roles — the kinds of tokens and the characters that need a backslash
-/
namespace PatternWalk
namespace Grammar

theorem role_cases (c : Char) : Text.needsEscape c = false ∨ c = '(' ∨ c = ')' ∨ c = '[' ∨ c = ']' ∨ c = '{' ∨
    c = '}' ∨ c = '-' ∨ c = '+' ∨ c = '*' ∨ c = '?' ∨ c = '\\' := by
  by_cases h : Text.needsEscape c = false
  · exact .inl h
  · simp only [Text.needsEscape, Text.escape, Text.isSpecial, Text.specials, List.contains_cons, List.contains_nil,
      Bool.or_false, Bool.not_eq_false, Bool.or_eq_true, beq_iff_eq] at h
    grind

theorem kind_of_ordinary {c : Char} (h : Text.needsEscape c = false) : Token.Kind.ofChar c = .char := by
  unfold Token.Kind.ofChar
  split <;> first | rfl | exact absurd h (by decide)

theorem eq_of_kind_dash {c : Char} (h : Token.Kind.ofChar c = .dash) : c = '-' := by
  rcases role_cases c with hc | rfl | rfl | rfl | rfl | rfl | rfl | rfl | rfl | rfl | rfl | rfl
  · rw [kind_of_ordinary hc] at h
    cases h
  all_goals first | rfl | cases h

theorem isEscapable_ofChar (c : Char) : (Token.Kind.ofChar c).isEscapable = Text.needsEscape c := by
  rcases role_cases c with h | rfl | rfl | rfl | rfl | rfl | rfl | rfl | rfl | rfl | rfl | rfl
  · rw [kind_of_ordinary h, h]
    rfl
  all_goals rfl

theorem notMem_of_ordinary {c : Char} (h : Text.needsEscape c = false) : c ∉ Text.specials ∧ c ≠ '\\' := by
  simpa [Text.needsEscape, Text.isSpecial, Text.escape, and_comm] using h

theorem kind_of_special {c : Char} (h : Text.isSpecial c = true) (hne : c ≠ ']') :
    Token.Kind.ofChar c ≠ .char ∧ Token.Kind.ofChar c ≠ .backslash ∧ Token.Kind.ofChar c ≠ .bracketClose := by
  have hc : c ∈ Text.specials := List.contains_iff_mem.1 h
  simp only [Text.specials, List.mem_cons, List.not_mem_nil, or_false] at hc
  rcases hc with rfl | rfl | rfl | rfl | rfl | rfl | rfl | rfl | rfl | rfl
  all_goals first | exact absurd rfl hne | decide

theorem mem_of_startsQuantifier {c : Char} (h : (Token.Kind.ofChar c).startsQuantifier = true) :
    c ∈ ['*', '+', '?', '{'] := by
  rcases role_cases c with hc | rfl | rfl | rfl | rfl | rfl | rfl | rfl | rfl | rfl | rfl | rfl
  · rw [kind_of_ordinary hc] at h
    cases h
  all_goals first | decide | cases h

theorem ordinary_of_isDigit {c : Char} (h : c.isDigit = true) : Text.needsEscape c = false := by
  rcases role_cases c with hc | rfl | rfl | rfl | rfl | rfl | rfl | rfl | rfl | rfl | rfl | rfl
  · exact hc
  all_goals cases h

end Grammar
end PatternWalk
