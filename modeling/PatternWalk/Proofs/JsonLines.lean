import PatternWalk.Json
import PatternWalk.Proofs.Digits
/-!
# JsonLines — compact JSON is written in one line

Line breaks inside texts are escaped and none are written between values, so the compact form of a value never holds
one.  A list of values written each behind the other with a line break is therefore as many lines as it has values.
-/
namespace PatternWalk

namespace Json

theorem newline_notMem_hex4 (n : Nat) : '\n' ∉ hex4 n := by
  have hdigits : '\n' ∉ Nat.toDigits 16 n := Digits.notMem_toDigits (by decide) (by decide) (by decide) n
  simp [hex4, hdigits]

theorem newline_notMem_escapeChar (c : Char) : '\n' ∉ escapeChar c := by
  by_cases hc : c = '\n'
  · subst hc
    decide
  · unfold escapeChar
    repeat' split
    all_goals first | decide | simp [newline_notMem_hex4, Ne.symm hc]

theorem newline_notMem_quote (s : Text) : '\n' ∉ (quote s).toList := by
  simp [quote, newline_notMem_escapeChar]

mutual
theorem newline_notMem_compact : ∀ v : Json, '\n' ∉ v.compact.toList
  | null => by decide
  | number n => by
    rw [compact, Nat.toString_eq_repr, Nat.toList_repr]
    exact fun h => absurd (Nat.isDigit_of_mem_toDigits (by omega) (by omega) h) (by decide)
  | text s => newline_notMem_quote s
  | array items => by simp [compact, newline_notMem_compactItems items]
  | object fields => by simp [compact, newline_notMem_compactFields fields]
theorem newline_notMem_compactItems : ∀ items : List Json, '\n' ∉ (compactItems items).toList
  | [] => by decide
  | [v] => newline_notMem_compact v
  | v :: w :: items => by simp [compactItems, newline_notMem_compact v, newline_notMem_compactItems (w :: items)]
theorem newline_notMem_compactField : ∀ f : String × Json, '\n' ∉ (compactField f).toList
  | (name, v) => by simp [compactField, newline_notMem_quote, newline_notMem_compact v]
theorem newline_notMem_compactFields : ∀ fields : List (String × Json), '\n' ∉ (compactFields fields).toList
  | [] => by decide
  | [f] => newline_notMem_compactField f
  | f :: g :: fields => by
    simp [compactFields, newline_notMem_compactField f, newline_notMem_compactFields (g :: fields)]
end

end Json

end PatternWalk
