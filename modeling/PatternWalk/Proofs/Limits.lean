import PatternWalk.Proofs.Canonical
import PatternWalk.Proofs.Faults
import PatternWalk.Proofs.Nesting
/-!
# Limits — how deeply groups may be nested

The limit is looked at in one place only: a parenthesis that opens a group inside as many groups as may be open is
refused.  So two limits read a text alike, unless the lower one stops at the first parenthesis that the higher one lets
through (`read_limits`).  A text that is read under some limit is read under just those that its pattern is not too deep
for.
-/
namespace PatternWalk
namespace Grammar

variable {limit limit' : Nat} {text front shown : Text} {cause : Cause}

/-! ## A limit matters only where it refuses a group -/

namespace Draft

variable {z z' : Draft} {c : Char} {s t : Text}

theorem Moves.mono (h : Moves limit z c z') (hle : limit ≤ limit') : Moves limit' z c z' := by
  induction h with
  | openGroup h => exact .openGroup (Nat.lt_of_lt_of_le h hle)
  | backslash => exact .backslash
  | openSet => exact .openSet
  | closeSet => exact .closeSet
  | endTerm hc h ih => exact .endTerm hc ih
  | endItem hc h ih => exact .endItem hc ih
  | _ => constructor <;> assumption

theorem Reads.mono (h : Reads limit z s z') (hle : limit ≤ limit') : Reads limit' z s z' := by
  induction h with
  | done => exact .done
  | move h _ ih => exact .move (h.mono hle) ih

theorem Refuses.of_ne (h : Refuses limit z c cause front shown) (hne : cause ≠ .recursionLimitExceeded) :
    Refuses limit' z c cause front shown := by
  induction h with
  | tooDeep => exact absurd rfl hne
  | endTerm hc h ih => exact .endTerm hc (ih hne)
  | endItem hc h ih => exact .endItem hc (ih hne)
  | _ => constructor <;> assumption

/-- **Only a group is refused for its depth**, where as many are open as may be. -/
theorem Refuses.of_recursionLimit (h : Refuses limit z c cause front shown) (hcause : cause = .recursionLimitExceeded) :
    c = '(' ∧ front = z.text ∧ shown = ['('] ∧ limit ≤ z.outer.length ∧ z.nesting = { groups := z.outer.length } := by
  induction h with
  | tooDeep h => exact ⟨rfl, by simp [Draft.text, Piece.text, Slot.text], rfl, h, rfl⟩
  | endTerm hc h ih =>
    rw [text_endTerm]
    exact ih hcause
  | endItem hc h ih =>
    obtain ⟨-, -, -, -, hset⟩ := ih hcause
    cases hset
  | _ => cases hcause

theorem outer_length_le_depth (z : Draft) : z.outer.length ≤ z.depth := by
  rw [depth]
  omega

theorem Reads.groups_le {n : Nesting} (h : Reads limit .initial (s ++ t) z) (hs : ({} : Nesting).past? s = some n) :
    n.groups ≤ limit := by
  obtain ⟨y, hy, -⟩ := h.exists_of_append
  have hdepth := hy.depth_le (Nat.zero_le limit)
  obtain rfl : n = y.nesting := Option.some.inj (hs.symm.trans hy.nesting)
  exact (outer_length_le_depth y).trans hdepth

end Draft

theorem Fails.mono (h : Fails limit text cause front shown) (hne : cause ≠ .recursionLimitExceeded)
    (hle : limit ≤ limit') : Fails limit' text cause front shown := by
  cases h with
  | refused htext hz h => exact .refused htext (hz.mono hle) (h.of_ne hne)
  | unfinished hz h => exact .unfinished (hz.mono hle) h

/-- **A group that is too deep is the first one that is**: it stands inside as many groups as may be open. -/
theorem Fails.first_group (h : Fails limit text .recursionLimitExceeded front shown) :
    shown = ['('] ∧ text.OpensGroup front.size (limit + 1) ∧
      ∀ earlier < front.size, ¬ text.OpensGroup earlier (limit + 1) := by
  cases h with
  | unfinished hz h => cases h
  | @refused s c tail z _ _ _ htext hz h =>
    obtain ⟨rfl, hfront, rfl, hlimit, hnesting⟩ := h.of_recursionLimit rfl
    obtain rfl : front = s := hfront.trans hz.text_initial
    have hopen : z.outer.length = limit :=
      Nat.le_antisymm (z.outer_length_le_depth.trans (hz.depth_le (Nat.zero_le _))) hlimit
    refine ⟨rfl, ⟨front, tail, limit, htext, rfl, ?_, rfl⟩, ?_⟩
    · rw [← hopen, ← hnesting]
      exact hz.nesting
    · rintro _ hlt ⟨before, rest, groups, htext', rfl, hbefore, hgroups⟩
      obtain rfl : limit = groups := Nat.succ.inj hgroups
      -- the reading goes on behind the earlier parenthesis, with one group open too many
      obtain ⟨u, rfl, hrest⟩ := Text.exists_append_of_size_le (htext'.symm.trans htext) hlt.le
      obtain ⟨c, u, rfl⟩ : ∃ c v, u = c :: v := List.exists_cons_of_ne_nil (by rintro rfl; simp at hlt)
      obtain ⟨rfl, -⟩ := List.cons.inj hrest
      have hbehind : ({} : Nesting).past? (before ++ ['(']) = some { groups := limit + 1 } := by
        rw [Nesting.past?_append, hbefore]
        rfl
      rw [List.append_cons] at hz
      exact absurd (hz.groups_le hbehind) (Nat.not_succ_le_self limit)

/-! ## The limits that a derivation is read under -/

theorem Derivation.read_text_iff (d : Derivation) {p : Pattern} :
    Pattern.read (Derivation.text d) ⟨limit⟩ = .ok p ↔ d.depth ≤ limit ∧ d.pattern = p := by
  rw [read_eq_ok_iff]
  constructor
  · rintro ⟨e, he, hdepth, hp⟩
    obtain rfl := eq_of_text_eq he
    exact ⟨hdepth, hp⟩
  · rintro ⟨hdepth, hp⟩
    exact ⟨d, rfl, hdepth, hp⟩

end Grammar

open Grammar in
/-- **A text that is read under some limit is read under those that its pattern is not too deep for**, as the same
pattern. -/
theorem Pattern.read_iff_depth_le {text : Text} {limits : Limits} {p : Pattern} (h : Pattern.read text limits = .ok p)
    (limit : Nat) : (Pattern.read text ⟨limit⟩ = .ok p ↔ p.depth ≤ limit) ∧
      ((∃ q, Pattern.read text ⟨limit⟩ = .ok q) ↔ p.depth ≤ limit) := by
  obtain ⟨d, rfl, -, rfl⟩ := read_eq_ok_iff.1 h
  simp [Derivation.read_text_iff, Derivation.depth_pattern]

theorem Pattern.read_flatten {limits : Limits} : ∀ {parts : List Text},
    (∀ s ∈ parts, ∃ p, Pattern.read s limits = .ok p) → ∃ p, Pattern.read parts.flatten limits = .ok p
  | [], _ => ⟨[], rfl⟩
  | s :: parts, h => by
    obtain ⟨p, hp⟩ := h s (by simp)
    obtain ⟨q, hq⟩ := read_flatten fun t ht => h t (List.mem_cons_of_mem s ht)
    obtain ⟨d, rfl, hd, -⟩ := Grammar.read_eq_ok_iff.1 hp
    obtain ⟨e, he, hdepth, -⟩ := Grammar.read_eq_ok_iff.1 hq
    refine ⟨_, Grammar.read_eq_ok_iff.2 ⟨d ++ e, ?_, ?_, rfl⟩⟩
    · rw [Grammar.Derivation.text_append, he, List.flatten_cons]
    · rw [Grammar.Derivation.depth_append]
      exact max_le hd hdepth

/-- **The limit bounds the nesting and nothing else.**  Two limits read a text alike, unless the lower one stops at the
first parenthesis that opens a group inside as many groups as it allows.  A text that is read under some limit is read
under just those that are at least the depth of its pattern.  And texts in a row are read under a limit that each of
them is read under, however many there are. -/
theorem Pattern.read_limits {text : Text} {limit limit' : Nat} (h : limit ≤ limit') :
    (Pattern.read text ⟨limit⟩ = Pattern.read text ⟨limit'⟩ ∨
      ∃ offset, Pattern.read text ⟨limit⟩ = .error ⟨.recursionLimitExceeded, ⟨offset, offset + 1⟩, text⟩ ∧
        text.OpensGroup offset (limit + 1) ∧ ∀ earlier < offset, ¬ text.OpensGroup earlier (limit + 1)) ∧
    (∀ p, Pattern.read text ⟨limit'⟩ = .ok p → p.depth ≤ limit' ∧
      ∀ other, (Pattern.read text ⟨other⟩ = .ok p ↔ p.depth ≤ other) ∧
        ((∃ q, Pattern.read text ⟨other⟩ = .ok q) ↔ p.depth ≤ other)) ∧
    ∀ parts : List Text, (∀ s ∈ parts, ∃ p, Pattern.read s ⟨limit⟩ = .ok p) →
      ∃ p, Pattern.read parts.flatten ⟨limit⟩ = .ok p := by
  have hdepth : ∀ {n p}, Pattern.read text ⟨n⟩ = .ok p → p.depth ≤ n := fun hp => (read_iff_depth_le hp _).1.1 hp
  refine ⟨?_, fun p hp => ⟨hdepth hp, read_iff_depth_le hp⟩, fun _ => read_flatten⟩
  cases hread : Pattern.read text ⟨limit⟩ with
  | ok p => exact .inl ((read_iff_depth_le hread limit').1.2 ((hdepth hread).trans h)).symm
  | error e =>
    obtain ⟨cause, front, shown, hfails, rfl⟩ := Grammar.read_eq_error_iff.1 hread
    by_cases hcause : cause = .recursionLimitExceeded
    · subst hcause
      obtain ⟨rfl, hfirst⟩ := hfails.first_group
      refine .inr ⟨front.size, ?_, hfirst⟩
      rw [Text.size_append]
      rfl
    · exact .inl (Grammar.read_eq_error_iff.2 ⟨cause, front, shown, hfails.mono hcause h, rfl⟩).symm

/-- In `(a)((b))` the parenthesis at byte 4 is the first that opens a group in a group.  Under the limit of one the text
is not read, while two groups that stand side by side are. -/
theorem Pattern.read_limits_nested :
    (Pattern.read "(a)((b))".toList ⟨1⟩ = .error ⟨.recursionLimitExceeded, ⟨4, 5⟩, "(a)((b))".toList⟩ ∧
      Text.OpensGroup "(a)((b))".toList 4 2 ∧ ∀ earlier < 4, ¬ Text.OpensGroup "(a)((b))".toList earlier 2) ∧
    (∃ p, Pattern.read "(a)((b))".toList ⟨2⟩ = .ok p ∧ p.depth = 2 ∧
      ∀ limit, (∃ q, Pattern.read "(a)((b))".toList ⟨limit⟩ = .ok q) ↔ 2 ≤ limit) ∧
    ∃ p, Pattern.read "(a)(b)".toList ⟨1⟩ = .ok p := by
  have hlow : Pattern.read "(a)((b))".toList ⟨1⟩ =
      .error ⟨.recursionLimitExceeded, ⟨4, 5⟩, "(a)((b))".toList⟩ := by decide +kernel
  obtain ⟨p, hhigh, hdepth⟩ : ∃ p, Pattern.read "(a)((b))".toList ⟨2⟩ = .ok p ∧ p.depth = 2 :=
    ⟨_, rfl, by decide +kernel⟩
  obtain ⟨hfirst, hdeep, hrow⟩ := @read_limits "(a)((b))".toList 1 2 (by decide)
  refine ⟨⟨hlow, ?_⟩, ⟨p, hhigh, hdepth, fun limit => ?_⟩, hrow ["(a)".toList, "(b)".toList] ?_⟩
  · rcases hfirst with heq | ⟨offset, herror, hopens⟩
    · rw [hlow, hhigh] at heq
      cases heq
    · cases hlow.symm.trans herror
      exact hopens
  · rw [← hdepth]
    exact ((hdeep p hhigh).2 limit).2
  · intro s hs
    obtain rfl | rfl : s = "(a)".toList ∨ s = "(b)".toList := by simpa using hs
    · exact ⟨_, rfl⟩
    · exact ⟨_, rfl⟩

end PatternWalk
