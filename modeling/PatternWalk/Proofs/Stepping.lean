import PatternWalk.Proofs.Chains
import PatternWalk.Walker
/-!
# Stepping — what a walker does in a call

A step passes over words of the delimiter, none of them empty, up to where the delimiter does not match or matches the
empty text.  If the pattern matches there, the walker moves past the match; if not, it stays where it was.  A search
moves past the anchor, at some place ahead.  A call is such steps or one search, or it is refused and nothing happens
(`Walker.performs`).  In every case the walker goes onward in its text and keeps its settings.
-/
namespace PatternWalk

theorem Place.Reaches.stop_textTo {here there : Place} (h : here.Reaches there) :
    Match.stop ⟨here.offset, here.textTo there⟩ = there.offset := by
  obtain ⟨word, hword⟩ := h
  rw [Match.stop, hword.textTo, hword.offset_eq]

section
variable {σ : Type} (observe : Observer σ)

theorem Pattern.fst_evaluate (p : Pattern) (here : Place) (seen : σ) :
    (p.evaluate observe here seen).1 = p.past? here :=
  p.fst_run observe 0 here (observe seen (.attempt here.offset))

/-- The places a delimiter is skipped over, and the one where this ends: a further skip would fail or not get on. -/
def Skips (delimiter : Pattern) (here : Place) (stops : List Place) (there : Place) : Prop :=
  Chain delimiter.past? here stops there ∧ (delimiter.past? there = none ∨ delimiter.past? there = some there)

theorem Walker.exists_skips (delimiter : Pattern) (here : Place) (seen : σ) :
    ∃ stops, Skips delimiter here stops (skipFrom observe delimiter here seen).1 := by
  unfold skipFrom
  have hpast := delimiter.fst_evaluate observe here seen
  generalize delimiter.evaluate observe here seen = result at hpast ⊢
  obtain ⟨there?, seen'⟩ := result
  cases there? with
  | none => exact ⟨[], .rest, .inl hpast.symm⟩
  | some there =>
    obtain ⟨word, hword⟩ := delimiter.advances hpast.symm
    by_cases hlt : there.rest.length < here.rest.length
    · simp only [if_pos hlt]
      obtain ⟨stops, hchain, hend⟩ := exists_skips delimiter there seen'
      exact ⟨there :: stops, .step hpast.symm (hword.offset_lt hlt) hchain, hend⟩
    · -- the delimiter matches the empty text, and is not skipped for it
      simp only [if_neg hlt]
      obtain ⟨-, rfl⟩ := hword.eq_of_not_lt hlt
      exact ⟨[], .rest, .inr hpast.symm⟩
termination_by here.rest.length

theorem Walker.seekFrom_eq_some (anchor : Pattern) {start there : Place} : ∀ {offset : Nat} {rest : Text} {seen : σ},
    (seekFrom observe anchor offset rest seen).1 = some (start, there) →
      (⟨offset, rest⟩ : Place).Reaches start ∧ anchor.past? start = some there
  | offset, [], seen, h => by
    unfold seekFrom at h
    have hpast := anchor.fst_evaluate observe ⟨offset, []⟩ seen
    generalize anchor.evaluate observe ⟨offset, []⟩ seen = result at hpast h
    obtain ⟨there?, seen'⟩ := result
    cases there? with
    | none => cases h
    | some there' =>
      cases h
      exact ⟨.refl _, hpast.symm⟩
  | offset, c :: rest, seen, h => by
    unfold seekFrom at h
    have hpast := anchor.fst_evaluate observe ⟨offset, c :: rest⟩ seen
    generalize anchor.evaluate observe ⟨offset, c :: rest⟩ seen = result at hpast h
    obtain ⟨there?, seen'⟩ := result
    cases there? with
    | none =>
      obtain ⟨hreaches, hmatch⟩ := seekFrom_eq_some anchor h
      have hnext : (⟨offset, c :: rest⟩ : Place).Passes [c] ⟨offset + c.utf8Size, rest⟩ := ⟨rfl, by simp⟩
      exact ⟨.trans ⟨[c], hnext⟩ hreaches, hmatch⟩
    | some there' =>
      cases h
      exact ⟨.refl _, hpast.symm⟩

end

namespace Walker

variable {σ : Type} {w w' w'' : Walker σ}

/-! ## Onward -/

/-- **One walker is onward of another**: in the same session, and not behind it. -/
structure Onward (w w' : Walker σ) : Prop where
  reaches : w.here.Reaches w'.here
  delimiter?_eq : w'.delimiter? = w.delimiter?
  limits_eq : w'.limits = w.limits
  observe_eq : w'.observe = w.observe

theorem Onward.refl (w : Walker σ) : w.Onward w := ⟨.refl _, rfl, rfl, rfl⟩

theorem Onward.trans (h : w.Onward w') (h' : w'.Onward w'') : w.Onward w'' :=
  ⟨h.reaches.trans h'.reaches, h'.delimiter?_eq.trans h.delimiter?_eq, h'.limits_eq.trans h.limits_eq,
    h'.observe_eq.trans h.observe_eq⟩

theorem Onward.cursor_le (h : w.Onward w') : w.cursor ≤ w'.cursor := h.reaches.offset_le

/-! ## Steps -/

def Starts (w : Walker σ) (start : Place) : Prop :=
  match w.delimiter? with
  | none => start = w.here
  | some delimiter => ∃ stops, Skips delimiter w.here stops start

theorem Starts.reaches {start : Place} (h : w.Starts start) : w.here.Reaches start := by
  unfold Starts at h
  split at h
  · exact h ▸ .refl _
  · obtain ⟨stops, hchain, -⟩ := h
    exact hchain.passes (Pattern.advances _)

theorem starts_skipDelimiters (w : Walker σ) : w.Starts w.skipDelimiters.1 := by
  unfold Starts skipDelimiters
  cases w.delimiter? with
  | none => rfl
  | some delimiter => exact exists_skips w.observe delimiter w.here w.seen

/-- **What a step does**: behind what is skipped the pattern matches, and the walker moves past the match; or it does
not, and the walker stays. -/
inductive Steps (w : Walker σ) (p : Pattern) : Option Match × Walker σ → Prop
  | matched {start there seen} (hstart : w.Starts start) (hpast : p.past? start = some there) :
    Steps w p (some ⟨start.offset, start.textTo there⟩, { w with here := there, seen })
  | failed {start seen} (hstart : w.Starts start) (hpast : p.past? start = none) : Steps w p (none, { w with seen })

theorem steps_step (w : Walker σ) (p : Pattern) : w.Steps p (w.step p) := by
  unfold step
  have hstart := w.starts_skipDelimiters
  generalize w.skipDelimiters = skipped at hstart ⊢
  obtain ⟨start, seen⟩ := skipped
  have hpast := p.fst_evaluate w.observe start seen
  dsimp only
  generalize p.evaluate w.observe start seen = result at hpast ⊢
  obtain ⟨there?, seen'⟩ := result
  cases there? with
  | none => exact .failed hstart hpast.symm
  | some there => exact .matched hstart hpast.symm

theorem step_onward (w : Walker σ) (p : Pattern) : w.Onward (w.step p).2 := by
  have h := w.steps_step p
  generalize w.step p = result at h ⊢
  cases h with
  | matched hstart hpast => exact ⟨hstart.reaches.trans (p.advances hpast), rfl, rfl, rfl⟩
  | failed => exact ⟨.refl _, rfl, rfl, rfl⟩

theorem steps_onward : ∀ (patterns : List Pattern) (w : Walker σ) (index : Nat), w.Onward (w.steps patterns index).2
  | [], w, _ => .refl w
  | p :: patterns, w, index => by
    have hstep := w.step_onward p
    unfold steps
    generalize w.step p = result at hstep ⊢
    obtain ⟨m?, w'⟩ := result
    cases m? with
    | none => exact hstep
    | some m => exact hstep.trans (steps_onward patterns w' (index + 1))

/-! ## Searches -/

/-- **What a search does**: it finds the anchor ahead, and the walker moves past it; or the walker stays. -/
inductive Seeks (w : Walker σ) (anchor : Pattern) : Option Sighting × Walker σ → Prop
  | found {start there seen} (hstart : w.here.Reaches start) (hpast : anchor.past? start = some there) :
    Seeks w anchor (some ⟨w.here.textTo start, start.textTo there, start.offset⟩, { w with here := there, seen })
  | failed {seen} : Seeks w anchor (none, { w with seen })

theorem seeks_seek (w : Walker σ) (anchor : Pattern) : w.Seeks anchor (w.seek anchor) := by
  unfold seek
  cases hfound : (seekFrom w.observe anchor w.here.offset w.here.rest w.seen).1 with
  | none =>
    generalize seekFrom w.observe anchor w.here.offset w.here.rest w.seen = result at hfound ⊢
    obtain ⟨found?, seen⟩ := result
    cases hfound
    exact .failed
  | some found =>
    obtain ⟨hstart, hpast⟩ := seekFrom_eq_some w.observe anchor hfound
    generalize seekFrom w.observe anchor w.here.offset w.here.rest w.seen = result at hfound ⊢
    obtain ⟨found?, seen⟩ := result
    cases hfound
    exact .found hstart hpast

theorem seek_onward (w : Walker σ) (anchor : Pattern) : w.Onward (w.seek anchor).2 := by
  have h := w.seeks_seek anchor
  generalize w.seek anchor = result at h ⊢
  cases h with
  | found hstart hpast => exact ⟨hstart.trans (anchor.advances hpast), rfl, rfl, rfl⟩
  | failed => exact ⟨.refl _, rfl, rfl, rfl⟩

/-! ## Calls -/

def Call.patterns (limits : Limits) : Call → Except GrammarError (List Pattern)
  | .walk source | .walkMatch source | .walkUntil source => (source.resolve limits).map ([·])
  | .walkMany sources => PatternSource.resolveAll limits sources

section
variable {source : PatternSource} {sources : List PatternSource} {p : Pattern} {patterns : List Pattern}
  {error : GrammarError}

theorem walkMatch_of_error (h : source.resolve w.limits = .error error) : w.walkMatch source = (.error error, w) := by
  rw [walkMatch, h]

theorem walkMatch_of_ok (h : source.resolve w.limits = .ok p) :
    w.walkMatch source = (.ok (w.step p).1, (w.step p).2) := by
  rw [walkMatch, h]

theorem walk_of_error (h : source.resolve w.limits = .error error) : w.walk source = (.error error, w) := by
  rw [walk, walkMatch_of_error h]
  rfl

theorem walk_of_ok (h : source.resolve w.limits = .ok p) :
    w.walk source = (.ok ((w.step p).1.map (·.text)), (w.step p).2) := by
  rw [walk, walkMatch_of_ok h]
  rfl

theorem walkUntil_of_error (h : source.resolve w.limits = .error error) : w.walkUntil source = (.error error, w) := by
  rw [walkUntil, h]

theorem walkUntil_of_ok (h : source.resolve w.limits = .ok p) :
    w.walkUntil source = (.ok (w.seek p).1, (w.seek p).2) := by
  rw [walkUntil, h]

theorem walkMany_of_error (h : PatternSource.resolveAll w.limits sources = .error error) :
    w.walkMany sources = (.error error, w) := by
  rw [walkMany, h]

theorem walkMany_of_ok (h : PatternSource.resolveAll w.limits sources = .ok patterns) :
    w.walkMany sources = (.ok (w.steps patterns 0).1, (w.steps patterns 0).2) := by
  rw [walkMany, h]

theorem resolve_of_patterns {limits : Limits} (h : (source.resolve limits).map ([·]) = .error error) :
    source.resolve limits = .error error := by
  cases hread : source.resolve limits with
  | error e =>
    rw [hread] at h
    exact congrArg Except.error (Except.error.inj h)
  | ok p =>
    rw [hread] at h
    cases h

theorem exists_resolve_of_patterns {limits : Limits} (h : (source.resolve limits).map ([·]) = .ok patterns) :
    ∃ p, source.resolve limits = .ok p := by
  cases hread : source.resolve limits with
  | error e =>
    rw [hread] at h
    cases h
  | ok p => exact ⟨p, rfl⟩

end

/-- **A call that cannot be read is refused before anything runs.** -/
theorem perform_of_error {error : GrammarError} : ∀ {call : Call}, call.patterns w.limits = .error error →
    w.perform call = (.refused error, w)
  | .walk _, h => by
    rw [perform, walk_of_error (resolve_of_patterns h)]
    rfl
  | .walkMatch _, h => by
    rw [perform, walkMatch_of_error (resolve_of_patterns h)]
    rfl
  | .walkUntil _, h => by
    rw [perform, walkUntil_of_error (resolve_of_patterns h)]
    rfl
  | .walkMany _, h => by
    rw [perform, walkMany_of_error h]
    rfl

theorem perform_walk {source : PatternSource} {p : Pattern} (h : source.resolve w.limits = .ok p) :
    w.perform (.walk source) = (.text ((w.step p).1.map (·.text)), (w.step p).2) := by
  rw [perform, walk_of_ok h]
  rfl

theorem perform_walkMatch {source : PatternSource} {p : Pattern} (h : source.resolve w.limits = .ok p) :
    w.perform (.walkMatch source) = (.found (w.step p).1, (w.step p).2) := by
  rw [perform, walkMatch_of_ok h]
  rfl

theorem perform_walkUntil {source : PatternSource} {p : Pattern} (h : source.resolve w.limits = .ok p) :
    w.perform (.walkUntil source) = (.sighted (w.seek p).1, (w.seek p).2) := by
  rw [perform, walkUntil_of_ok h]
  rfl

theorem perform_walkMany {sources : List PatternSource} {patterns : List Pattern}
    (h : PatternSource.resolveAll w.limits sources = .ok patterns) :
    w.perform (.walkMany sources) = (.progress (w.steps patterns 0).1, (w.steps patterns 0).2) := by
  rw [perform, walkMany_of_ok h]
  rfl

/-- **What a call does**: it is refused, and the walker is as it was; or it is a step, a search or a list of steps. -/
inductive Performs (w : Walker σ) : Call → Answer × Walker σ → Prop
  | refused {call error} : call.patterns w.limits = .error error → Performs w call (.refused error, w)
  | walk {source p} : source.resolve w.limits = .ok p →
    Performs w (.walk source) (.text ((w.step p).1.map (·.text)), (w.step p).2)
  | walkMatch {source p} : source.resolve w.limits = .ok p →
    Performs w (.walkMatch source) (.found (w.step p).1, (w.step p).2)
  | walkUntil {source p} : source.resolve w.limits = .ok p →
    Performs w (.walkUntil source) (.sighted (w.seek p).1, (w.seek p).2)
  | walkMany {sources patterns} : PatternSource.resolveAll w.limits sources = .ok patterns →
    Performs w (.walkMany sources) (.progress (w.steps patterns 0).1, (w.steps patterns 0).2)

theorem performs (w : Walker σ) (call : Call) : w.Performs call (w.perform call) := by
  cases hread : call.patterns w.limits with
  | error error =>
    rw [perform_of_error hread]
    exact .refused hread
  | ok patterns =>
    cases call with
    | walk source =>
      obtain ⟨p, hp⟩ := exists_resolve_of_patterns hread
      rw [perform_walk hp]
      exact .walk hp
    | walkMatch source =>
      obtain ⟨p, hp⟩ := exists_resolve_of_patterns hread
      rw [perform_walkMatch hp]
      exact .walkMatch hp
    | walkUntil source =>
      obtain ⟨p, hp⟩ := exists_resolve_of_patterns hread
      rw [perform_walkUntil hp]
      exact .walkUntil hp
    | walkMany sources =>
      rw [perform_walkMany hread]
      exact .walkMany hread

theorem perform_onward (w : Walker σ) (call : Call) : w.Onward (w.perform call).2 := by
  have h := w.performs call
  generalize w.perform call = result at h ⊢
  cases h with
  | refused => exact .refl w
  | walk | walkMatch => exact w.step_onward _
  | walkUntil => exact w.seek_onward _
  | walkMany => exact steps_onward _ w 0

end Walker

end PatternWalk
