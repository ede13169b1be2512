/-!
# CharSet — the characters one place of a pattern accepts

A set keeps what was written, in the order it was written: single members, each once, and inclusive ranges.
-/
namespace PatternWalk

structure CharRange where
  low : Char
  high : Char
deriving DecidableEq, Repr, Inhabited

def CharRange.contains (r : CharRange) (c : Char) : Bool := r.low ≤ c && c ≤ r.high

/-- **A character set**: members in the order of their first writing, then ranges. -/
structure CharSet where
  members : List Char := []
  ranges : List CharRange := []
  /-- No member is kept twice. -/
  distinct : members.Nodup := by simp
deriving DecidableEq, Repr

namespace CharSet

def empty : CharSet := {}

instance : Inhabited CharSet := ⟨empty⟩

def insert (set : CharSet) (c : Char) : CharSet :=
  if h : c ∈ set.members then set
  else
    { members := set.members ++ [c]
      ranges := set.ranges
      distinct := by
        rw [List.nodup_append]
        refine ⟨set.distinct, by simp, ?_⟩
        intro a ha b hb
        rw [List.mem_singleton.1 hb]
        exact fun he => h (he ▸ ha) }

def insertRange (set : CharSet) (r : CharRange) : CharSet := { set with ranges := set.ranges ++ [r] }

def ofLists (members : List Char) (ranges : List CharRange) : CharSet :=
  ranges.foldl insertRange (members.foldl insert empty)

def isEmpty (set : CharSet) : Bool := set.members.isEmpty && set.ranges.isEmpty

def accepts (set : CharSet) (c : Char) : Bool := set.members.contains c || set.ranges.any (·.contains c)

@[simp] theorem mem_members_insert {set : CharSet} {c x : Char} :
    x ∈ (set.insert c).members ↔ x ∈ set.members ∨ x = c := by
  unfold insert
  split
  · rename_i h
    exact ⟨Or.inl, fun hx => hx.elim id fun he => he ▸ h⟩
  · simp

theorem accepts_insert {set : CharSet} {c x : Char} : (set.insert c).accepts x = (set.accepts x || x == c) := by
  have hr : (set.insert c).ranges = set.ranges := by unfold insert; split <;> rfl
  rw [Bool.eq_iff_iff]
  simp only [accepts, hr, Bool.or_eq_true, List.contains_iff_mem, mem_members_insert, beq_iff_eq]
  exact or_right_comm

theorem accepts_insertRange {set : CharSet} {r : CharRange} {x : Char} :
    (set.insertRange r).accepts x = (set.accepts x || r.contains x) := by
  simp [accepts, insertRange, Bool.or_assoc]

end CharSet

end PatternWalk
