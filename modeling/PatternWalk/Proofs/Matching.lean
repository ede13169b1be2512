import PatternWalk.Proofs.Chains
import PatternWalk.Proofs.ErasedSpans
/-!
# Matching — patterns that match alike

Two patterns match alike when they lead from every place to the same place; `past?` says where.  It does not look at
spans (`past?_eraseSpans`), and coalescing changes nothing for it (`past?_coalesce`): a literal matches where its
characters match one after the other, and an unquantified term where its node does.
-/
namespace PatternWalk

/-! ## Words in a row -/

namespace Place

variable {here there : Place} {s t : Text}

theorem Passes.exists_between (h : here.Passes (s ++ t) there) :
    ∃ mid, here.Passes s mid ∧ mid.Passes t there := by
  refine ⟨⟨here.offset + s.size, t ++ there.rest⟩, ⟨?_, rfl⟩, ⟨rfl, ?_⟩⟩
  · rw [h.rest_eq, List.append_assoc]
  · rw [h.offset_eq, Text.size_append, Nat.add_assoc]

theorem pastWord?_nil (here : Place) : here.pastWord? [] = some here := rfl

theorem pastWord?_append (here : Place) (s t : Text) :
    here.pastWord? (s ++ t) = (here.pastWord? s).bind (·.pastWord? t) := by
  apply Option.ext
  intro there
  simp only [Option.bind_eq_some_iff, pastWord?_eq_some_iff]
  constructor
  · exact Passes.exists_between
  · rintro ⟨mid, hs, ht⟩
    exact hs.trans ht

end Place

/-! ## Terms without a quantifier, and terms in a row -/

theorem Term.past?_congr {m n : Node} (h : m.past? = n.past?) (q : Quantifier) (a b : Span) :
    (⟨m, q, a⟩ : Term).past? = (⟨n, q, b⟩ : Term).past? := by
  funext here
  rw [Term.past?, Term.past?, h]

/-- **A term without a quantifier** matches as its node does, whether the node matches some text or none. -/
theorem Term.past?_once (n : Node) (span : Span) : (⟨n, .once, span⟩ : Term).past? = n.past? := by
  funext here
  have hfirst : Quantifier.once.allowsAnother 0 = true := rfl
  have hsecond : Quantifier.once.allowsAnother (0 + 1) = false := rfl
  unfold Term.past? repeatQuietly
  rw [if_pos hfirst]
  cases hnode : n.past? here with
  | none => rfl
  | some there =>
    obtain ⟨word, hword⟩ := n.advances hnode
    by_cases hlt : there.rest.length < here.rest.length
    · simp only [if_pos hlt]
      unfold repeatQuietly
      simp only [hsecond, Bool.false_eq_true, if_false]
      rfl
    · obtain ⟨-, rfl⟩ := hword.eq_of_not_lt hlt
      simp only [if_neg hlt]
      rfl

theorem Pattern.past?_append (p q : Pattern) (here : Place) :
    Pattern.past? (p ++ q) here = (p.past? here).bind q.past? := by
  rw [past?_eq_foldlM, past?_eq_foldlM p, List.foldlM_append]
  exact congrArg _ (funext fun there => (q.past?_eq_foldlM there).symm)

theorem Pattern.past?_singleton (t : Term) : Pattern.past? [t] = t.past? := by
  funext here
  rw [past?]
  cases t.past? here <;> rfl

theorem Pattern.matchAt_congr {p q : Pattern} (h : p.past? = q.past?) : p.matchAt = q.matchAt := by
  funext source offset
  rw [matchAt, matchAt, fst_evaluateAt, fst_evaluateAt, h]

theorem Pattern.matchAt_eq_some_iff {p : Pattern} {source : Text} {offset : Nat} {m : Match} :
    p.matchAt source offset = some m ↔ m.start = offset ∧
      ∃ here there, source.place? offset = some here ∧ p.past? here = some there ∧ here.Passes m.text there := by
  rw [matchAt, fst_evaluateAt]
  simp only [Option.bind_eq_some_iff, Option.map_eq_some_iff]
  constructor
  · rintro ⟨here, hhere, there, hthere, rfl⟩
    obtain ⟨word, hword⟩ := p.advances hthere
    refine ⟨rfl, here, there, hhere, hthere, ?_⟩
    rwa [hword.textTo]
  · rintro ⟨rfl, here, there, hhere, hthere, hword⟩
    exact ⟨here, hhere, there, hthere, by rw [hword.textTo]⟩

/-- **Patterns in a row match where the first does and the second does from its end on.** -/
theorem Pattern.matchAt_append_eq_some_iff {p q : Pattern} {source : Text} {offset : Nat} {m : Match} :
    matchAt (p ++ q) source offset = some m ↔
      ∃ first second, p.matchAt source offset = some first ∧ q.matchAt source first.stop = some second ∧
        m = ⟨offset, first.text ++ second.text⟩ ∧ m.stop = second.stop := by
  constructor
  · intro h
    obtain ⟨rfl, here, there, hhere, hthere, hword⟩ := matchAt_eq_some_iff.1 h
    rw [past?_append] at hthere
    obtain ⟨mid, hmid, hthere⟩ := Option.bind_eq_some_iff.1 hthere
    obtain ⟨s, hs⟩ := p.advances hmid
    obtain ⟨t, ht⟩ := q.advances hthere
    obtain ⟨hoffset, -⟩ := Text.place?_eq_some_iff.1 hhere
    have hstop : mid.offset = m.start + s.size := by rw [hs.offset_eq, hoffset]
    have htext : m.text = s ++ t := by rw [← hword.textTo, (hs.trans ht).textTo]
    have hplace : source.place? (m.start + s.size) = some mid := hstop ▸ hs.place? (hoffset ▸ hhere)
    refine ⟨⟨m.start, s⟩, ⟨mid.offset, t⟩, matchAt_eq_some_iff.2 ⟨rfl, here, mid, hhere, hmid, hs⟩,
      matchAt_eq_some_iff.2 ⟨hstop, mid, there, hplace, hthere, ht⟩, by rw [← htext], ?_⟩
    rw [Match.stop, Match.stop, htext, Text.size_append, hstop, Nat.add_assoc]
  · rintro ⟨first, second, hfirst, hsecond, rfl, -⟩
    obtain ⟨rfl, here, mid, hhere, hmid, hs⟩ := matchAt_eq_some_iff.1 hfirst
    obtain ⟨hstart, mid', there, hmid', hthere, ht⟩ := matchAt_eq_some_iff.1 hsecond
    obtain ⟨hoffset, -⟩ := Text.place?_eq_some_iff.1 hhere
    have hstop : mid.offset = first.stop := by rw [hs.offset_eq, hoffset, Match.stop]
    have hplace : source.place? first.stop = some mid := hstop ▸ hs.place? (hoffset ▸ hhere)
    obtain rfl : mid' = mid := Option.some.inj (hmid'.symm.trans hplace)
    refine matchAt_eq_some_iff.2 ⟨rfl, here, there, hhere, ?_, hs.trans ht⟩
    rw [past?_append, hmid, Option.bind_some, hthere]

/-! ## Spans are not looked at -/

mutual
theorem Node.past?_eraseSpans : ∀ n : Node, n.eraseSpans.past? = n.past?
  | .literal _ | .charSet _ => rfl
  | .group body => by
    funext here
    exact congrFun (Pattern.past?_eraseSpans body) here
theorem Term.past?_eraseSpans : ∀ t : Term, t.eraseSpans.past? = t.past?
  | ⟨n, q, span⟩ => Term.past?_congr (Node.past?_eraseSpans n) q .none span
theorem Pattern.past?_eraseSpans : ∀ p : Pattern, Pattern.past? p.eraseSpans = p.past?
  | [] => rfl
  | t :: p => by
    funext here
    rw [Pattern.eraseSpans, Pattern.past?, Term.past?_eraseSpans t, Pattern.past?_eraseSpans p, Pattern.past?]
end

theorem Pattern.past?_eq_of_eraseSpans_eq {p q : Pattern} (h : p.eraseSpans = q.eraseSpans) : p.past? = q.past? := by
  rw [← p.past?_eraseSpans, h, q.past?_eraseSpans]

/-! ## Coalescing -/

namespace Pattern

theorem past?_prepend (t : Term) (p : Pattern) : past? (prepend t p) = past? (t :: p) := by
  cases p with
  | nil => rfl
  | cons u p =>
    rw [prepend]
    split
    · rename_i v hv
      obtain ⟨s, s', a, b, rfl, rfl, rfl⟩ := exists_of_join? hv
      funext here
      -- both literals are unquantified, so each is its word
      simp only [past?, Term.past?_once, Node.past?, Place.pastWord?_append, Option.bind_assoc]
    · rfl

/-- **Coalescing changes no match.** -/
theorem past?_coalesce : ∀ p : Pattern, past? (coalesce p) = past? p
  | [] => rfl
  | t :: p => by
    funext here
    rw [coalesce, past?_prepend, past?, past?_coalesce p, past?]

end Pattern

end PatternWalk
