import PatternWalk.Proofs.ErasedSpans
import PatternWalk.Proofs.SelfEnding
/-!
# Outlines — an outline tells its pattern

A line of an outline may hold line feeds, since sets are written as they are, and nothing closes a group but a line that
is not indented as deep.  Still every part of a line shows where it ends, and behind a group follows a line that is
further out, so two patterns with one outline are the same up to spans, and the same where the spans are shown
(`outlineHiding_eq_iff`).
-/
namespace PatternWalk

namespace Text

theorem unlines_append (x : List Text) : ∀ lines : List Text, unlines (lines ++ x) = unlines lines ++ unlines x
  | [] => rfl
  | line :: lines => by simp [unlines, unlines_append x lines]

theorem indent_succ (depth : Nat) : indent (depth + 1) = indent depth ++ [' ', ' '] := by
  rw [indent, indent, Nat.mul_add, List.replicate_add]
  rfl

def IsOutside (depth : Nat) (s : Text) : Prop := ∀ r, s ≠ indent depth ++ r

variable {depth : Nat} {s : Text}

theorem IsOutside.succ (h : IsOutside depth s) : IsOutside (depth + 1) s := by
  intro r hr
  rw [indent_succ, List.append_assoc] at hr
  exact h _ hr

theorem isOutside_indent {c : Char} (hc : c ≠ ' ') (depth : Nat) (s : Text) :
    IsOutside (depth + 1) (indent depth ++ c :: s) := by
  intro r hr
  rw [indent_succ, List.append_assoc] at hr
  exact hc (List.cons.inj (List.append_cancel_left hr)).1

theorem isOutside_nil (depth : Nat) : IsOutside (depth + 1) [] := by
  intro r hr
  rw [indent_succ] at hr
  simp at hr

end Text

section Outline
variable {hidden : Char → Bool} {spans : Bool}

theorem Term.unlines_outlineLines (node : Node) (q : Quantifier) (a : Span) (depth : Nat) :
    Text.unlines (Term.outlineLines hidden spans ⟨node, q, a⟩ depth) =
      Text.indent depth ++ (node.outlineHead hidden ++
        (outlineTail spans q a ++ '\n' :: Text.unlines (node.outlineBelow hidden spans depth))) := by
  simp only [outlineLines, Text.unlines, List.append_assoc]

theorem Pattern.unlines_outlineLines_cons (t : Term) (p : Pattern) (depth : Nat) (s : Text) :
    Text.unlines (Pattern.outlineLines hidden spans (t :: p) depth) ++ s =
      Text.unlines (t.outlineLines hidden spans depth) ++
        (Text.unlines (Pattern.outlineLines hidden spans p depth) ++ s) := by
  rw [Pattern.outlineLines, Text.unlines_append, List.append_assoc]

theorem Node.outlineHead_literal (text : Text) : Node.outlineHead hidden (.literal text) =
    ['L', 'i', 't', 'e', 'r', 'a', 'l', ' '] ++ text.quoteHiding hidden := rfl

theorem Node.outlineHead_charSet (set : CharSet) : Node.outlineHead hidden (.charSet set) =
    ['C', 'h', 'a', 'r', 'S', 'e', 't', ' '] ++ set.print := rfl

theorem Node.outlineHead_group (body : Pattern) : Node.outlineHead hidden (.group body) =
    ['G', 'r', 'o', 'u', 'p'] := rfl

theorem Node.outlineHead_eq_cons (hidden : Char → Bool) (n : Node) :
    ∃ c s, n.outlineHead hidden = c :: s ∧ c ≠ ' ' := by
  cases n with
  | literal text => exact ⟨'L', _, rfl, by decide⟩
  | charSet set => exact ⟨'C', _, rfl, by decide⟩
  | group body => exact ⟨'G', _, rfl, by decide⟩

/-- **A term goes on at its depth and no deeper.** -/
theorem Term.isOutside_outline (t : Term) (depth : Nat) (s : Text) :
    Text.IsOutside (depth + 1) (Text.unlines (t.outlineLines hidden spans depth) ++ s) ∧
      ¬ Text.IsOutside depth (Text.unlines (t.outlineLines hidden spans depth) ++ s) := by
  obtain ⟨node, q, a⟩ := t
  obtain ⟨c, line, hline, hc⟩ := node.outlineHead_eq_cons hidden
  rw [unlines_outlineLines, hline, List.append_assoc]
  exact ⟨Text.isOutside_indent hc depth _, fun h => h _ rfl⟩

theorem Pattern.isOutside_outline (p : Pattern) {depth : Nat} {s : Text} (hs : s.IsOutside depth) :
    Text.IsOutside (depth + 1) (Text.unlines (Pattern.outlineLines hidden spans p depth) ++ s) := by
  cases p with
  | nil => exact hs.succ
  | cons t p =>
    rw [unlines_outlineLines_cons]
    exact (t.isOutside_outline depth _).1

def Node.top : Node → Node
  | .group _ => .group []
  | n => n

theorem Node.eq_of_outlineHead_append {m n : Node} {r s : Text}
    (h : m.outlineHead hidden ++ r = n.outlineHead hidden ++ s) : m.top = n.top ∧ r = s := by
  cases m with
  | literal x =>
    cases n with
    | literal y =>
      rw [outlineHead_literal, outlineHead_literal, List.append_assoc, List.append_assoc] at h
      obtain ⟨rfl, hrest⟩ := Text.quoteHiding_endsItself hidden (List.append_cancel_left h)
      exact ⟨rfl, hrest⟩
    | charSet y => simp [outlineHead_literal, outlineHead_charSet] at h
    | group y => simp [outlineHead_literal, outlineHead_group] at h
  | charSet x =>
    cases n with
    | charSet y =>
      rw [outlineHead_charSet, outlineHead_charSet, List.append_assoc, List.append_assoc] at h
      obtain ⟨rfl, hrest⟩ := CharSet.print_endsItself (List.append_cancel_left h)
      exact ⟨rfl, hrest⟩
    | literal y => simp [outlineHead_literal, outlineHead_charSet] at h
    | group y => simp [outlineHead_charSet, outlineHead_group] at h
  | group x =>
    cases n with
    | group y =>
      rw [outlineHead_group, outlineHead_group] at h
      exact ⟨rfl, List.append_cancel_left h⟩
    | literal y => simp [outlineHead_literal, outlineHead_group] at h
    | charSet y => simp [outlineHead_charSet, outlineHead_group] at h

-- The rest of the text is part of each statement: that a level has ended is only seen by what stands behind it.
mutual
theorem Node.eq_of_outlineBelow_append : ∀ (m n : Node) {depth : Nat} {r s : Text}, m.top = n.top →
    Text.IsOutside (depth + 1) r → Text.IsOutside (depth + 1) s →
    Text.unlines (m.outlineBelow hidden spans depth) ++ r = Text.unlines (n.outlineBelow hidden spans depth) ++ s →
    m.eraseSpans = n.eraseSpans ∧ (spans = true → m = n) ∧ r = s
  | .literal _, .literal _, _, _, _, htop, _, _, h | .charSet _, .charSet _, _, _, _, htop, _, _, h =>
    ⟨congrArg Node.eraseSpans htop, fun _ => htop, h⟩
  | .group x, .group y, _, _, _, _, hr, hs, h => by
    obtain ⟨hbody, hexact, hrest⟩ := Pattern.eq_of_outline_append x y hr hs h
    exact ⟨by rw [Node.eraseSpans, hbody, Node.eraseSpans], fun h => by rw [hexact h], hrest⟩
  | .literal _, .charSet _, _, _, _, htop, _, _, _ | .literal _, .group _, _, _, _, htop, _, _, _
  | .charSet _, .literal _, _, _, _, htop, _, _, _ | .charSet _, .group _, _, _, _, htop, _, _, _
  | .group _, .literal _, _, _, _, htop, _, _, _ | .group _, .charSet _, _, _, _, htop, _, _, _ => nomatch htop
theorem Term.eq_of_outline_append : ∀ (t u : Term) {depth : Nat} {r s : Text},
    Text.IsOutside (depth + 1) r → Text.IsOutside (depth + 1) s →
    Text.unlines (t.outlineLines hidden spans depth) ++ r = Text.unlines (u.outlineLines hidden spans depth) ++ s →
    t.eraseSpans = u.eraseSpans ∧ (spans = true → t = u) ∧ r = s
  | ⟨m, q, a⟩, ⟨n, q', b⟩, depth, r, s, hr, hs, h => by
    simp only [Term.unlines_outlineLines, List.append_assoc, List.cons_append] at h
    obtain ⟨htop, htail⟩ := Node.eq_of_outlineHead_append (List.append_cancel_left h)
    obtain ⟨rfl, hspan, hbelow⟩ := Term.eq_of_outlineTail_append htail
    obtain ⟨hnode, hexact, rfl⟩ := Node.eq_of_outlineBelow_append m n htop hr hs hbelow
    exact ⟨by rw [Term.eraseSpans, hnode, Term.eraseSpans], fun h => by rw [hexact h, hspan h], rfl⟩
/-- **The terms of a level end where the text goes on further out.** -/
theorem Pattern.eq_of_outline_append : ∀ (p q : Pattern) {depth : Nat} {r s : Text},
    Text.IsOutside depth r → Text.IsOutside depth s →
    Text.unlines (Pattern.outlineLines hidden spans p depth) ++ r =
      Text.unlines (Pattern.outlineLines hidden spans q depth) ++ s →
    p.eraseSpans = q.eraseSpans ∧ (spans = true → p = q) ∧ r = s
  | [], [], _, _, _, _, _, h => ⟨rfl, fun _ => rfl, h⟩
  | [], u :: q, depth, r, s, hr, _, h => by
    have hr' : Text.IsOutside depth (Text.unlines (Pattern.outlineLines hidden spans (u :: q) depth) ++ s) := h ▸ hr
    rw [Pattern.unlines_outlineLines_cons] at hr'
    exact absurd hr' (u.isOutside_outline depth _).2
  | t :: p, [], depth, r, s, _, hs, h => by
    have hs' : Text.IsOutside depth (Text.unlines (Pattern.outlineLines hidden spans (t :: p) depth) ++ r) := h ▸ hs
    rw [Pattern.unlines_outlineLines_cons] at hs'
    exact absurd hs' (t.isOutside_outline depth _).2
  | t :: p, u :: q, depth, r, s, hr, hs, h => by
    rw [Pattern.unlines_outlineLines_cons, Pattern.unlines_outlineLines_cons] at h
    obtain ⟨hterm, hexact, hrest⟩ := Term.eq_of_outline_append t u (Pattern.isOutside_outline p hr)
      (Pattern.isOutside_outline q hs) h
    obtain ⟨hterms, hexacts, rfl⟩ := Pattern.eq_of_outline_append p q hr hs hrest
    exact ⟨by rw [Pattern.eraseSpans, hterm, hterms, Pattern.eraseSpans], fun h => by rw [hexact h, hexacts h], rfl⟩
end

theorem Pattern.eq_of_outlineHiding_eq {p q : Pattern}
    (h : p.outlineHiding hidden spans = q.outlineHiding hidden spans) :
    p.eraseSpans = q.eraseSpans ∧ (spans = true → p = q) := by
  have hlines : Text.unlines (Pattern.outlineLines hidden spans p 1) ++ [] =
      Text.unlines (Pattern.outlineLines hidden spans q 1) ++ [] := by
    rw [List.append_nil, List.append_nil]
    exact (List.cons.inj (List.append_cancel_left h)).2
  obtain ⟨herased, hexact, -⟩ := Pattern.eq_of_outline_append p q (Text.isOutside_nil 0) (Text.isOutside_nil 0) hlines
  exact ⟨herased, hexact⟩

end Outline

/-- **An outline tells its pattern**, whichever characters are shown by code point: without spans up to spans, with
spans to the last one. -/
theorem Pattern.outline_determines (p q : Pattern) :
    (∀ hidden : Char → Bool,
      (p.outlineHiding hidden false = q.outlineHiding hidden false ↔ p.eraseSpans = q.eraseSpans) ∧
        (p.outlineHiding hidden true = q.outlineHiding hidden true ↔ p = q)) ∧
      (p.outline false = q.outline false ↔ p.eraseSpans = q.eraseSpans) ∧
      (p.outline true = q.outline true ↔ p = q) := by
  have hall : ∀ hidden : Char → Bool,
      (p.outlineHiding hidden false = q.outlineHiding hidden false ↔ p.eraseSpans = q.eraseSpans) ∧
        (p.outlineHiding hidden true = q.outlineHiding hidden true ↔ p = q) := by
    intro hidden
    refine ⟨⟨fun h => ?_, fun h => ?_⟩, fun h => ?_, fun h => ?_⟩
    · exact (eq_of_outlineHiding_eq h).1
    · rw [← p.outlineHiding_eraseSpans, h, q.outlineHiding_eraseSpans]
    · exact (eq_of_outlineHiding_eq h).2 rfl
    · rw [h]
  exact ⟨hall, hall Text.isHidden⟩

end PatternWalk
