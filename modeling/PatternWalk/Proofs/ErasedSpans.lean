import PatternWalk.Pattern.Outline
import PatternWalk.Proofs.Canonical
/-!
# ErasedSpans — patterns up to their spans

Two patterns are equal up to spans when they are equal with every span erased.  Neither the printed form nor the outline
without spans can tell them apart, and coalescing does the same to both.
-/
namespace PatternWalk

def Span.none : Span := ⟨0, 0⟩

mutual
def Node.eraseSpans : Node → Node
  | .literal text => .literal text
  | .charSet set => .charSet set
  | .group body => .group (Pattern.eraseSpans body)
def Term.eraseSpans : Term → Term
  | ⟨node, q, _⟩ => ⟨node.eraseSpans, q, .none⟩
/-- **The pattern without spans**, at every depth. -/
def Pattern.eraseSpans : Pattern → Pattern
  | [] => []
  | t :: p => t.eraseSpans :: Pattern.eraseSpans p
end

/-! ## What does not see spans -/

mutual
theorem Node.print_eraseSpans : ∀ n : Node, n.eraseSpans.print = n.print
  | .literal _ | .charSet _ => rfl
  | .group body => by rw [Node.eraseSpans, Node.print, Pattern.print_eraseSpans body, Node.print]
theorem Term.print_eraseSpans : ∀ t : Term, t.eraseSpans.print = t.print
  | ⟨n, q, span⟩ => by
    have hgroup : n.eraseSpans.needsGroup q = n.needsGroup q := by cases n <;> rfl
    rw [Term.eraseSpans, Term.print, Term.print, hgroup, n.print_eraseSpans]
theorem Pattern.print_eraseSpans : ∀ p : Pattern, p.eraseSpans.print = p.print
  | [] => rfl
  | t :: p => by rw [Pattern.eraseSpans, Pattern.print, t.print_eraseSpans, Pattern.print_eraseSpans p, Pattern.print]
end

section Outline
variable (hidden : Char → Bool)

mutual
theorem Node.outlineBelow_eraseSpans : ∀ (n : Node) (depth : Nat),
    n.eraseSpans.outlineBelow hidden false depth = n.outlineBelow hidden false depth
  | .literal _, _ | .charSet _, _ => rfl
  | .group body, depth => Pattern.outlineLines_eraseSpans body (depth + 1)
theorem Term.outlineLines_eraseSpans : ∀ (t : Term) (depth : Nat),
    t.eraseSpans.outlineLines hidden false depth = t.outlineLines hidden false depth
  | ⟨n, q, span⟩, depth => by
    have hhead : n.eraseSpans.outlineHead hidden = n.outlineHead hidden := by cases n <;> rfl
    rw [Term.eraseSpans, Term.outlineLines, Term.outlineLines, hhead, n.outlineBelow_eraseSpans depth]
    rfl
theorem Pattern.outlineLines_eraseSpans : ∀ (p : Pattern) (depth : Nat),
    Pattern.outlineLines hidden false p.eraseSpans depth = Pattern.outlineLines hidden false p depth
  | [], _ => rfl
  | t :: p, depth => by
    rw [Pattern.eraseSpans, Pattern.outlineLines, t.outlineLines_eraseSpans depth,
      Pattern.outlineLines_eraseSpans p depth, Pattern.outlineLines]
end

theorem Pattern.outlineHiding_eraseSpans (p : Pattern) :
    p.eraseSpans.outlineHiding hidden false = p.outlineHiding hidden false := by
  rw [outlineHiding, Pattern.outlineLines_eraseSpans, outlineHiding]

end Outline

mutual
theorem Node.depth_eraseSpans : ∀ n : Node, n.eraseSpans.depth = n.depth
  | .literal _ | .charSet _ => rfl
  | .group body => by rw [Node.eraseSpans, Node.depth, Pattern.depth_eraseSpans body, Node.depth]
theorem Term.depth_eraseSpans : ∀ t : Term, t.eraseSpans.depth = t.depth
  | ⟨n, _, _⟩ => n.depth_eraseSpans
theorem Pattern.depth_eraseSpans : ∀ p : Pattern, p.eraseSpans.depth = p.depth
  | [] => rfl
  | t :: p => by rw [Pattern.eraseSpans, Pattern.depth, t.depth_eraseSpans, Pattern.depth_eraseSpans p, Pattern.depth]
end

theorem Pattern.print_eq_of_eraseSpans_eq {p q : Pattern} (h : p.eraseSpans = q.eraseSpans) : p.print = q.print := by
  rw [← p.print_eraseSpans, h, q.print_eraseSpans]

theorem Pattern.outline_eq_of_eraseSpans_eq {p q : Pattern} (h : p.eraseSpans = q.eraseSpans) :
    p.outline false = q.outline false := by
  rw [outline, outline, ← Pattern.outlineHiding_eraseSpans _ p, h, Pattern.outlineHiding_eraseSpans]

/-! ## Coalescing up to spans -/

theorem Term.isPlain_eraseSpans : ∀ t : Term, t.eraseSpans.isPlain = t.isPlain
  | ⟨.literal _, .once, _⟩ => rfl
  | ⟨.literal _, .zeroOrMore, _⟩ | ⟨.literal _, .zeroOrOne, _⟩ | ⟨.literal _, .oneOrMore, _⟩ => rfl
  | ⟨.literal _, .between _ _, _⟩ | ⟨.charSet _, _, _⟩ | ⟨.group _, _, _⟩ => rfl

theorem Term.adjoins_eraseSpans (t u : Term) : t.eraseSpans.adjoins u = t.adjoins u := by
  rw [adjoins, isPlain_eraseSpans, adjoins]

namespace Pattern

theorem eraseSpans_eq_map : ∀ p : Pattern, eraseSpans p = p.map Term.eraseSpans
  | [] => rfl
  | t :: p => by rw [eraseSpans, eraseSpans_eq_map p, List.map_cons]

theorem eraseSpans_append (p q : Pattern) : eraseSpans (p ++ q) = eraseSpans p ++ eraseSpans q := by
  rw [eraseSpans_eq_map, eraseSpans_eq_map, eraseSpans_eq_map, List.map_append]

theorem eraseSpans_coalesce (p : Pattern) : eraseSpans (coalesce p) = coalesce (eraseSpans p) := by
  rw [eraseSpans_eq_map, eraseSpans_eq_map,
    coalesce_map (join?_map Term.isPlain_eraseSpans (g := fun _ => .none) (fun _ _ => rfl) fun _ _ => rfl)]

end Pattern

/-! ## Spans moved on -/

mutual
theorem Node.eraseSpans_shift (n : Nat) : ∀ m : Node, (m.shift n).eraseSpans = m.eraseSpans
  | .literal _ | .charSet _ => rfl
  | .group body => by rw [Node.shift, Node.eraseSpans, Pattern.eraseSpans_shift n body, Node.eraseSpans]
theorem Term.eraseSpans_shift (n : Nat) : ∀ t : Term, (t.shift n).eraseSpans = t.eraseSpans
  | ⟨m, q, span⟩ => by rw [Term.shift, Term.eraseSpans, m.eraseSpans_shift n, Term.eraseSpans]
theorem Pattern.eraseSpans_shift (n : Nat) : ∀ p : Pattern, Pattern.eraseSpans (p.shift n) = p.eraseSpans
  | [] => rfl
  | t :: p => by
    rw [Pattern.shift, Pattern.eraseSpans, t.eraseSpans_shift n, Pattern.eraseSpans_shift n p, Pattern.eraseSpans]
end

end PatternWalk
