import PatternWalk.Text
/-!
# Digits — numbers written in digits

A number of more than one digit is written as its quotient by the base and then its remainder.  So every digit is one
of the first `b`, and up to base sixteen a number is known from its digits (`toDigits_inj`).
-/
namespace PatternWalk
namespace Digits

variable {b : Nat}

theorem toDigits_of_le (hb : 1 < b) {n : Nat} (hn : b ≤ n) :
    Nat.toDigits b n = Nat.toDigits b (n / b) ++ [(n % b).digitChar] := by
  have hrest : n % b < b := Nat.mod_lt _ (by omega)
  have hsplit := Nat.toDigits_append_toDigits hb (Nat.div_pos hn (by omega)) hrest
  rw [Nat.div_add_mod] at hsplit
  rw [← hsplit, Nat.toDigits_of_lt_base hrest]

theorem exists_of_mem_toDigits (hb : 1 < b) {c : Char} (n : Nat) :
    c ∈ Nat.toDigits b n → ∃ d < b, c = d.digitChar := by
  induction n using Nat.strongRecOn with
  | ind n ih =>
    intro hc
    by_cases hn : n < b
    · rw [Nat.toDigits_of_lt_base hn] at hc
      exact ⟨n, hn, List.mem_singleton.1 hc⟩
    · rw [toDigits_of_le hb (by omega), List.mem_append, List.mem_singleton] at hc
      rcases hc with hc | hc
      · exact ih _ (Nat.div_lt_self (by omega) hb) hc
      · exact ⟨n % b, Nat.mod_lt _ (by omega), hc⟩

/-- A character that is no digit of base sixteen is in no number of a base up to it. -/
theorem notMem_toDigits (hb : 1 < b) (h16 : b ≤ 16) {c : Char} (hc : ∀ d : Fin 16, c ≠ d.val.digitChar) (n : Nat) :
    c ∉ Nat.toDigits b n := by
  intro h
  obtain ⟨d, hd, he⟩ := exists_of_mem_toDigits hb n h
  exact hc ⟨d, by omega⟩ he

theorem digitChar_inj {d e : Nat} (hd : d < 16) (he : e < 16) (h : d.digitChar = e.digitChar) : d = e := by
  have hall : ∀ x y : Fin 16, x.val.digitChar = y.val.digitChar → x = y := by decide
  exact congrArg Fin.val (hall ⟨d, hd⟩ ⟨e, he⟩ h)

theorem toDigits_inj (hb : 1 < b) (h16 : b ≤ 16) {m n : Nat} (h : Nat.toDigits b m = Nat.toDigits b n) : m = n := by
  induction m using Nat.strongRecOn generalizing n with
  | ind m ih =>
    have hlength : ∀ k, b ≤ k → (Nat.toDigits b k).length ≠ 1 := by
      intro k hk
      have hne : Nat.toDigits b (k / b) ≠ [] := Nat.toDigits_ne_nil
      rw [toDigits_of_le hb hk, List.length_append, List.length_singleton]
      exact fun h1 => hne (List.eq_nil_of_length_eq_zero (by omega))
    by_cases hm : m < b <;> by_cases hn : n < b
    · rw [Nat.toDigits_of_lt_base hm, Nat.toDigits_of_lt_base hn] at h
      exact digitChar_inj (by omega) (by omega) (List.singleton_inj.1 h)
    · rw [Nat.toDigits_of_lt_base hm] at h
      exact absurd (congrArg List.length h).symm (hlength n (by omega))
    · rw [Nat.toDigits_of_lt_base hn] at h
      exact absurd (congrArg List.length h) (hlength m (by omega))
    · have hdigit : ∀ k, k % b < 16 := fun k => Nat.lt_of_lt_of_le (Nat.mod_lt k (by omega)) h16
      rw [toDigits_of_le hb (Nat.le_of_not_lt hm), toDigits_of_le hb (Nat.le_of_not_lt hn)] at h
      obtain ⟨hquotient, hremainder⟩ := List.append_inj' h rfl
      have hq : m / b = n / b := ih _ (Nat.div_lt_self (by omega) hb) hquotient
      have hr : m % b = n % b := digitChar_inj (hdigit m) (hdigit n) (List.singleton_inj.1 hremainder)
      rw [← Nat.div_add_mod m b, hq, hr, Nat.div_add_mod]

end Digits
end PatternWalk
