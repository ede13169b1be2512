import Mathlib.Data.List.SplitBy
import PatternWalk.Pattern.Basic
/-!
# Coalescing — what happens to a pattern as a whole

`Pattern.coalesce` puts one term at a time before what is coalesced already.  Seen from the whole pattern it cuts the
terms into their longest runs of unquantified literals, where any other term is a run of its own, and puts one term in
the place of each run (`coalesce_eq_joinRuns`).  A part that is coalesced first makes no difference to the whole
(`coalesce_coalesce_append`).
-/
namespace PatternWalk

/-! ## Lists cut into runs -/

theorem exists_splitBy_cons {α : Type} (r : α → α → Bool) (a : α) (l : List α) :
    ∃ g gs, (a :: l).splitBy r = (a :: g) :: gs := by
  have hne : (a :: l).splitBy r ≠ [] := List.splitBy_ne_nil.2 (by simp)
  have hg := List.head_head_splitBy r (List.cons_ne_nil a l)
  cases hs : (a :: l).splitBy r with
  | nil => exact absurd hs hne
  | cons g gs =>
    cases g with
    | nil => exact absurd (hs ▸ List.mem_cons_self) (List.nil_notMem_splitBy r (a :: l))
    | cons b g =>
      simp only [hs, List.head_cons] at hg
      exact ⟨g, gs, by rw [hg]⟩

theorem splitBy_cons_of_joins {α : Type} {r : α → α → Bool} {a b : α} {l g : List α} {gs : List (List α)}
    (hab : r a b = true) (h : (b :: l).splitBy r = (b :: g) :: gs) :
    (a :: b :: l).splitBy r = (a :: b :: g) :: gs := by
  obtain ⟨hl, hn, hc, hends⟩ := List.splitBy_eq_iff.1 h
  refine List.splitBy_eq_iff.2 ⟨?_, ?_, ?_, ?_⟩
  · rw [hl]
    rfl
  · simpa using hn
  · intro m hm
    rcases List.mem_cons.1 hm with rfl | hm
    · exact List.IsChain.cons_cons hab (hc (b :: g) List.mem_cons_self)
    · exact hc m (List.mem_cons_of_mem _ hm)
  · cases gs with
    | nil => exact List.isChain_singleton _
    | cons m gs =>
      obtain ⟨⟨ha, hb, hr⟩, hrest⟩ := List.isChain_cons_cons.1 hends
      refine List.isChain_cons_cons.2 ⟨⟨by simp, hb, ?_⟩, hrest⟩
      rwa [List.getLast_cons (List.cons_ne_nil b g)]

/-! ## Runs of terms -/

namespace Term

def isPlain : Term → Bool
  | ⟨.literal _, .once, _⟩ => true
  | _ => false

def adjoins (t u : Term) : Bool := t.isPlain && u.isPlain

def literalText : Term → Text
  | ⟨.literal text, _, _⟩ => text
  | _ => []

/-- **The term in the place of a run.**  A term alone stays.  Several literals become one, which has their texts in a
row and the span from their least start to their greatest end. -/
def ofRun : List Term → Term
  | [t] => t
  | run =>
    ⟨.literal (run.flatMap literalText), .once,
      ⟨(run.map (·.span.start)).min?.getD 0, (run.map (·.span.stop)).max?.getD 0⟩⟩

theorem isPlain_iff {t : Term} : t.isPlain = true ↔ ∃ text span, t = ⟨.literal text, .once, span⟩ := by
  refine ⟨fun h => ?_, fun ⟨text, span, h⟩ => h ▸ rfl⟩
  unfold isPlain at h
  split at h
  · exact ⟨_, _, rfl⟩
  · cases h

theorem join?_eq_none {t u : Term} (h : t.adjoins u = false) : t.join? u = none := by
  unfold join?
  split
  · cases h
  · rfl

theorem join?_ofRun {t u : Term} {g : List Term} (htu : t.adjoins u = true) (hg : (u :: g).IsChain (adjoins · ·)) :
    t.join? (ofRun (u :: g)) = some (ofRun (t :: u :: g)) := by
  obtain ⟨ht, hu⟩ : t.isPlain = true ∧ u.isPlain = true := by simpa [adjoins] using htu
  obtain ⟨text, span, rfl⟩ := isPlain_iff.1 ht
  cases g with
  | nil =>
    obtain ⟨text', span', rfl⟩ := isPlain_iff.1 hu
    simp [ofRun, join?, literalText, Span.cover, List.min?_cons, List.max?_cons]
  | cons v g => simp [ofRun, join?, literalText, Span.cover, List.min?_cons, List.max?_cons]

theorem join?_ofRun_eq_none {t u : Term} {g : List Term} (htu : t.adjoins u = false)
    (hg : (u :: g).IsChain (adjoins · ·)) : t.join? (ofRun (u :: g)) = none := by
  apply join?_eq_none
  cases g with
  | nil => exact htu
  | cons v g =>
    have hu : u.isPlain = true := by
      have := (List.isChain_cons_cons.1 hg).1
      simp only [adjoins, Bool.and_eq_true] at this
      exact this.1
    have ht : t.isPlain = false := by simpa [adjoins, hu] using htu
    simp [adjoins, ht]

end Term

namespace Pattern

/-- **The pattern with one term for each of its longest runs of unquantified literals.** -/
def joinRuns (p : Pattern) : Pattern := (p.splitBy Term.adjoins).map Term.ofRun

/-- **Coalescing joins the longest runs**, and does nothing else. -/
theorem coalesce_eq_joinRuns : ∀ p : Pattern, coalesce p = joinRuns p
  | [] => rfl
  | [t] => rfl
  | t :: u :: p => by
    obtain ⟨g, gs, hs⟩ := exists_splitBy_cons Term.adjoins u p
    have hchain : (u :: g).IsChain (Term.adjoins · ·) := List.isChain_of_mem_splitBy (hs ▸ List.mem_cons_self)
    rw [coalesce, coalesce_eq_joinRuns (u :: p), joinRuns, joinRuns, hs, List.map_cons, prepend]
    cases htu : t.adjoins u with
    | true => rw [Term.join?_ofRun htu hchain, splitBy_cons_of_joins htu hs, List.map_cons]
    | false =>
      have hcut : (t :: u :: p).splitBy Term.adjoins = [t] :: (u :: p).splitBy Term.adjoins :=
        List.splitBy_append_cons (l := [t]) p (by simpa using htu)
      rw [Term.join?_ofRun_eq_none htu hchain, hcut, hs]
      rfl

/-! ## Coalescing in parts -/

theorem exists_of_join? {t u v : Term} (h : t.join? u = some v) : ∃ s s' a b,
    t = ⟨.literal s, .once, a⟩ ∧ u = ⟨.literal s', .once, b⟩ ∧ v = ⟨.literal (s ++ s'), .once, a.cover b⟩ := by
  unfold Term.join? at h
  split at h
  · exact ⟨_, _, _, _, rfl, rfl, (Option.some.inj h).symm⟩
  · cases h

theorem coalesce_eq_foldr : ∀ p : Pattern, coalesce p = p.foldr prepend []
  | [] => rfl
  | t :: p => by rw [coalesce, coalesce_eq_foldr p, List.foldr_cons]

theorem coalesce_append (p q : Pattern) : coalesce (p ++ q) = p.foldr prepend (coalesce q) := by
  rw [coalesce_eq_foldr, List.foldr_append, ← coalesce_eq_foldr q]

/-- **Joining is associative**: two neighbours that can be joined are joined before or after the next term is. -/
theorem prepend_prepend_of_join? {t u v : Term} (h : t.join? u = some v) (p : Pattern) :
    prepend t (prepend u p) = prepend v p := by
  obtain ⟨s, s', a, b, rfl, rfl, rfl⟩ := exists_of_join? h
  cases p with
  | nil => rfl
  | cons w p =>
    cases hw : w.isPlain with
    | true =>
      obtain ⟨s'', c, rfl⟩ := Term.isPlain_iff.1 hw
      have hcover : a.cover (b.cover c) = (a.cover b).cover c := by
        simp only [Span.cover, Nat.min_assoc, Nat.max_assoc]
      simp only [prepend, Term.join?, hcover, List.append_assoc]
    | false =>
      have hnone : ∀ x : Term, x.join? w = none := fun x =>
        Term.join?_eq_none (by rw [Term.adjoins, hw, Bool.and_false])
      simp only [prepend, hnone]
      rfl

theorem foldr_prepend_prepend (t : Term) (p q : Pattern) :
    (prepend t p).foldr prepend q = prepend t (p.foldr prepend q) := by
  cases p with
  | nil => rfl
  | cons u p =>
    rw [prepend, List.foldr_cons]
    cases h : t.join? u with
    | none => rfl
    | some v => exact (prepend_prepend_of_join? h _).symm

theorem coalesce_coalesce_append : ∀ p q : Pattern, coalesce (coalesce p ++ q) = coalesce (p ++ q)
  | [], _ => rfl
  | t :: p, q => by
    rw [coalesce, coalesce_append, foldr_prepend_prepend, ← coalesce_append, coalesce_coalesce_append p q]
    rfl

theorem coalesce_coalesce (p : Pattern) : coalesce (coalesce p) = coalesce p := by
  simpa using coalesce_coalesce_append p []

theorem coalesce_append_coalesce (p q : Pattern) : coalesce (p ++ coalesce q) = coalesce (p ++ q) := by
  rw [coalesce_append, coalesce_coalesce, ← coalesce_append]

/-! ## Coalescing under a change of spans -/

/-- **A change of terms that leaves joining as it is**: it changes nothing but spans where terms can be joined. -/
theorem join?_map {f : Term → Term} {g : Span → Span} (hplain : ∀ t, (f t).isPlain = t.isPlain)
    (hf : ∀ text a, f ⟨.literal text, .once, a⟩ = ⟨.literal text, .once, g a⟩)
    (hg : ∀ a b, g (a.cover b) = (g a).cover (g b)) (t u : Term) : (f t).join? (f u) = (t.join? u).map f := by
  cases h : t.adjoins u with
  | false =>
    have h' : (f t).adjoins (f u) = false := by rwa [Term.adjoins, hplain, hplain]
    rw [Term.join?_eq_none h, Term.join?_eq_none h']
    rfl
  | true =>
    obtain ⟨ht, hu⟩ : t.isPlain = true ∧ u.isPlain = true := by simpa [Term.adjoins] using h
    obtain ⟨s, a, rfl⟩ := Term.isPlain_iff.1 ht
    obtain ⟨s', b, rfl⟩ := Term.isPlain_iff.1 hu
    simp only [hf, Term.join?, Option.map_some, hg]

section
variable {f : Term → Term} (hf : ∀ t u, (f t).join? (f u) = (t.join? u).map f)
include hf

theorem prepend_map (t : Term) (p : Pattern) : prepend (f t) (p.map f) = (prepend t p).map f := by
  cases p with
  | nil => rfl
  | cons u p =>
    rw [List.map_cons, prepend, prepend, hf]
    cases t.join? u <;> rfl

theorem coalesce_map : ∀ p : Pattern, coalesce (p.map f) = (coalesce p).map f
  | [] => rfl
  | t :: p => by rw [List.map_cons, coalesce, coalesce_map p, prepend_map hf, coalesce]

end

/-! ### Spans moved on -/

theorem shift_eq_map (n : Nat) : ∀ p : Pattern, shift n p = p.map (Term.shift n)
  | [] => rfl
  | t :: p => by rw [shift, shift_eq_map n p, List.map_cons]

theorem shift_append (n : Nat) (p q : Pattern) : shift n (p ++ q) = shift n p ++ shift n q := by
  rw [shift_eq_map, shift_eq_map, shift_eq_map, List.map_append]

theorem isEmpty_shift (n : Nat) (p : Pattern) : (shift n p).isEmpty = p.isEmpty := by
  cases p <;> rfl

theorem coalesce_shift (n : Nat) (p : Pattern) : coalesce (shift n p) = shift n (coalesce p) := by
  have hplain : ∀ t : Term, (t.shift n).isPlain = t.isPlain := by
    rintro ⟨_ | _ | _, _ | _ | _ | _ | _, _⟩ <;> rfl
  have hcover : ∀ a b : Span, (a.cover b).shift n = (a.shift n).cover (b.shift n) := fun a b => by
    simp only [Span.cover, Span.shift, Nat.add_min_add_right, Nat.add_max_add_right]
  rw [shift_eq_map, shift_eq_map, coalesce_map (join?_map hplain (fun _ _ => rfl) hcover)]

end Pattern

end PatternWalk
