import PatternWalk.Proofs.Matching
import PatternWalk.Proofs.Tiling
/-!
# Delimiting — a delimiter is skipped as a term under a star is repeated

A walker skips its delimiter in a loop of its own, which ends at a match that takes nothing.  A term under `*` repeats
its node in the greedy loop, which counts, and ends likewise.  Both loops get on in the same steps and end at the same
place (`past?_group_zeroOrMore`).  So a step with the delimiter `D` is a match of `(D)*` and the pattern behind it.
-/
namespace PatternWalk

/-! ## Two loops that end at one place -/

section
variable {σ : Type} (observe : Observer σ) (d : Pattern)

theorem repeatQuietly_zeroOrMore (count : UInt32) (here : Place) (seen : σ) :
    (repeatQuietly d.past? .zeroOrMore count here).2 = (Walker.skipFrom observe d here seen).1 := by
  have hallowed : Quantifier.zeroOrMore.allowsAnother count = true := rfl
  unfold repeatQuietly Walker.skipFrom
  rw [if_pos hallowed, ← d.fst_evaluate observe here seen]
  generalize d.evaluate observe here seen = result
  obtain ⟨there?, seen'⟩ := result
  cases there? with
  | none => rfl
  | some there =>
    by_cases hlt : there.rest.length < here.rest.length
    · simp only [if_pos hlt]
      exact repeatQuietly_zeroOrMore (count + 1) there seen'
    · simp only [if_neg hlt]
termination_by here.rest.length

/-- **The star of a group always matches**, up to where skipping its body ends. -/
theorem past?_group_zeroOrMore (span : Span) (here : Place) (seen : σ) :
    (⟨.group d, .zeroOrMore, span⟩ : Term).past? here = some (Walker.skipFrom observe d here seen).1 := by
  have hnode : (Node.group d).past? = d.past? := funext fun _ => rfl
  have hsatisfied : ∀ count, Quantifier.zeroOrMore.isSatisfiedBy count = true := by
    intro count
    simp [Quantifier.isSatisfiedBy, Quantifier.least]
  rw [Term.past?, hnode, if_pos (hsatisfied _), repeatQuietly_zeroOrMore observe]

end

namespace Walker

variable {σ : Type}

/-! ## Skipping comes to an end -/

/-- **Skipping as a machine does it**, by byte offsets in the whole text.  The loop goes on while the delimiter matches
some text, and gives up if it is not done after `turns` turns. -/
def skipWithin (observe : Observer σ) (d : Pattern) (source : Text) :
    (turns : Nat) → (pos : Nat) → σ → Option (Nat × σ)
  | 0, _, _ => none
  | turns + 1, pos, seen =>
    match d.evaluateAt observe source pos seen with
    | (some m, seen) => if m.isEmpty then some (pos, seen) else skipWithin observe d source turns m.stop seen
    | (none, seen) => some (pos, seen)

/-- **One turn more than characters ahead is enough**: every turn but the last takes a character at least. -/
theorem skipWithin_eq (observe : Observer σ) (d : Pattern) {source : Text} : ∀ (turns : Nat) (here : Place) (seen : σ),
    here.rest.length < turns → source.place? here.offset = some here →
    skipWithin observe d source turns here.offset seen =
      some ((skipFrom observe d here seen).1.offset, (skipFrom observe d here seen).2)
  | turns + 1, here, seen, hturns, hhere => by
    unfold skipWithin skipFrom
    rw [d.evaluateAt_of_place? observe hhere]
    have hpast := d.fst_evaluate observe here seen
    generalize d.evaluate observe here seen = result at hpast ⊢
    obtain ⟨there?, seen'⟩ := result
    cases there? with
    | none => rfl
    | some there =>
      obtain ⟨word, hword⟩ := d.advances hpast.symm
      have hstop := Place.Reaches.stop_textTo ⟨word, hword⟩
      dsimp only [Option.map_some]
      by_cases hlt : there.rest.length < here.rest.length
      · have hne : word ≠ [] := hword.ne_nil hlt
        have hsome : Match.isEmpty ⟨here.offset, here.textTo there⟩ = false := by
          rw [Match.isEmpty, hword.textTo]
          simpa using hne
        simp only [hsome, hstop, if_pos hlt, if_neg Bool.false_ne_true]
        exact skipWithin_eq observe d turns there seen' (by omega) (hword.place? hhere)
      · obtain ⟨rfl, rfl⟩ := hword.eq_of_not_lt hlt
        have hempty : Match.isEmpty ⟨there.offset, there.textTo there⟩ = true := by
          rw [Match.isEmpty, hword.textTo]
          rfl
        simp only [hempty, if_neg hlt, if_pos]

/-! ## A step behind a delimiter -/

variable {source : Text} {w : Walker σ} {d : Pattern}

theorem fst_step (w : Walker σ) (p : Pattern) : (w.step p).1 = (p.past? w.skipDelimiters.1).map fun there =>
    ⟨w.skipDelimiters.1.offset, w.skipDelimiters.1.textTo there⟩ := by
  unfold step
  generalize w.skipDelimiters = skipped
  obtain ⟨start, seen⟩ := skipped
  have hpast := p.fst_evaluate w.observe start seen
  dsimp only
  rw [← hpast]
  generalize p.evaluate w.observe start seen = result
  obtain ⟨there?, seen'⟩ := result
  cases there? <;> rfl

/-- **A step and the star of its delimiter end together**: the star with the pattern behind it matches where the walker
stands exactly when the step finds a match. -/
theorem stop_step_eq (hd : w.delimiter? = some d) (hhere : source.place? w.cursor = some w.here) (span : Span)
    (p : Pattern) : (w.step p).1.map Match.stop =
      (Pattern.matchAt (⟨.group d, .zeroOrMore, span⟩ :: p) source w.cursor).map Match.stop := by
  have hskip : w.skipDelimiters = skipFrom w.observe d w.here w.seen := by rw [skipDelimiters, hd]
  have hstar := past?_group_zeroOrMore w.observe d span w.here w.seen
  have hreaches : w.here.Reaches w.skipDelimiters.1 := w.starts_skipDelimiters.reaches
  rw [← hskip] at hstar
  rw [fst_step, cursor, Pattern.matchAt_of_place? _ hhere, Pattern.past?, hstar, Option.bind_some]
  cases hpast : p.past? w.skipDelimiters.1 with
  | none => rfl
  | some there =>
    have hthere : w.skipDelimiters.1.Reaches there := p.advances hpast
    exact congrArg some (hthere.stop_textTo.trans (hreaches.trans hthere).stop_textTo.symm)

/-- **What lies before a step** is where the star of the delimiter alone ends: words of the delimiter, none of them
empty, up to where the delimiter does not match or matches the empty text. -/
theorem skipped_of_step (hd : w.delimiter? = some d) (hhere : source.place? w.cursor = some w.here) (span : Span) :
    ∃ words, Skipped source (some d) w.cursor words ∧
      Pattern.matchAt [⟨.group d, .zeroOrMore, span⟩] source w.cursor = some ⟨w.cursor, words.flatten⟩ ∧
      Match.stop ⟨w.cursor, words.flatten⟩ = w.skipDelimiters.1.offset ∧
      source.slice? w.cursor w.skipDelimiters.1.offset = some words.flatten ∧
      (d.matchAt source w.skipDelimiters.1.offset = none ∨
        d.matchAt source w.skipDelimiters.1.offset = some ⟨w.skipDelimiters.1.offset, []⟩) := by
  have hskip : w.skipDelimiters = skipFrom w.observe d w.here w.seen := by rw [skipDelimiters, hd]
  have hstar := past?_group_zeroOrMore w.observe d span w.here w.seen
  obtain ⟨stops, hchain, hend⟩ := exists_skips w.observe d w.here w.seen
  rw [← hskip] at hstar hchain hend
  obtain ⟨words, hskipped, hpass⟩ := hchain.exists_skipped hhere
  have hplace := hpass.place? hhere
  refine ⟨words, hskipped, ?_, hpass.offset_eq.symm, Text.slice?_of_passes hhere hpass, ?_⟩
  · rw [cursor, Pattern.matchAt_of_place? _ hhere, Pattern.past?_singleton, hstar, Option.map_some, hpass.textTo]
  · rw [d.matchAt_of_place? hplace]
    rcases hend with hnone | hstays
    · left
      rw [hnone, Option.map_none]
    · right
      rw [hstays, Option.map_some, (Place.Passes.refl w.skipDelimiters.1).textTo]

/-- **A step with a delimiter is a match with the star of the delimiter in front.**  Skipping ends: one turn more than
characters ahead is enough for a machine's loop, and it skips what the walker skips.  The step finds a match exactly
when the delimiter's group under `*`, with the pattern behind it, matches where the walker stands, and both end alike.
The match begins where the group under `*` alone ends.  The text up to there is made of matches of the delimiter, none
of them empty; and there the delimiter does not match, or matches the empty text. -/
theorem step_delimited {σ : Type} {source : Text} {w : Walker σ} {d : Pattern} (hd : w.delimiter? = some d)
    (hhere : source.place? w.cursor = some w.here) (span : Span) (p : Pattern) :
    (∀ turns, w.remaining.length < turns → skipWithin w.observe d source turns w.cursor w.seen =
      some (w.skipDelimiters.1.offset, w.skipDelimiters.2)) ∧
    (w.step p).1.map Match.stop =
      (Pattern.matchAt (⟨.group d, .zeroOrMore, span⟩ :: p) source w.cursor).map Match.stop ∧
    ∀ m, (w.step p).1 = some m → ∃ words, Skipped source (some d) w.cursor words ∧
      Pattern.matchAt [⟨.group d, .zeroOrMore, span⟩] source w.cursor = some ⟨w.cursor, words.flatten⟩ ∧
      Match.stop ⟨w.cursor, words.flatten⟩ = m.start ∧ source.slice? w.cursor m.start = some words.flatten ∧
      (d.matchAt source m.start = none ∨ d.matchAt source m.start = some ⟨m.start, []⟩) := by
  obtain ⟨words, hskipped, hstar, hstop, hslice, hend⟩ := skipped_of_step hd hhere span
  have hskip : w.skipDelimiters = skipFrom w.observe d w.here w.seen := by rw [skipDelimiters, hd]
  refine ⟨fun turns hturns => ?_, stop_step_eq hd hhere span p, fun m hm => ?_⟩
  · rw [hskip]
    exact skipWithin_eq w.observe d turns w.here w.seen hturns hhere
  · rw [fst_step] at hm
    obtain ⟨there, -, rfl⟩ := Option.map_eq_some_iff.1 hm
    exact ⟨words, hskipped, hstar, hstop, hslice, hend⟩

/-- With the delimiter ` *`, which also matches the empty text, `é` is found in `  éb` behind both blanks. -/
theorem step_delimited_blanks : ∃ (w : Walker Unit) (d p : Pattern) (words : List Text),
    w = { here := .start [' ', ' ', 'é', 'b'], delimiter? := some d, observe := Observer.idle, seen := () } ∧
    d = [⟨.literal [' '], .zeroOrMore, ⟨0, 2⟩⟩] ∧ p = [⟨.literal ['é'], .once, ⟨0, 2⟩⟩] ∧
    w.delimiter? = some d ∧ Text.place? [' ', ' ', 'é', 'b'] w.cursor = some w.here ∧
    (w.step p).1 = some ⟨2, ['é']⟩ ∧
    skipWithin w.observe d [' ', ' ', 'é', 'b'] 5 w.cursor () = some (2, ()) ∧
    (Pattern.matchAt (⟨.group d, .zeroOrMore, ⟨0, 5⟩⟩ :: p) [' ', ' ', 'é', 'b'] 0).map Match.stop = some 4 ∧
    Skipped [' ', ' ', 'é', 'b'] (some d) 0 words ∧
    Pattern.matchAt [⟨.group d, .zeroOrMore, ⟨0, 5⟩⟩] [' ', ' ', 'é', 'b'] 0 = some ⟨0, words.flatten⟩ ∧
    Text.slice? [' ', ' ', 'é', 'b'] 0 2 = some words.flatten := by
  obtain ⟨d, hd⟩ : ∃ d : Pattern, d = [⟨.literal [' '], .zeroOrMore, ⟨0, 2⟩⟩] := ⟨_, rfl⟩
  obtain ⟨p, hp⟩ : ∃ p : Pattern, p = [⟨.literal ['é'], .once, ⟨0, 2⟩⟩] := ⟨_, rfl⟩
  obtain ⟨w, hw⟩ : ∃ w : Walker Unit,
      w = { here := .start [' ', ' ', 'é', 'b'], delimiter? := some d, observe := Observer.idle, seen := () } :=
    ⟨_, rfl⟩
  have hdelimiter : w.delimiter? = some d := by rw [hw]
  have hcursor : w.cursor = 0 := by rw [hw]; rfl
  have hhere : Text.place? [' ', ' ', 'é', 'b'] w.cursor = some w.here := by rw [hw]; rfl
  have hstep : (w.step p).1 = some ⟨2, ['é']⟩ := by
    subst hw hd hp
    decide +kernel
  have hskip : w.skipDelimiters.1.offset = 2 := by
    subst hw hd
    decide +kernel
  obtain ⟨hturns, hstop, hbefore⟩ := step_delimited hdelimiter hhere ⟨0, 5⟩ p
  obtain ⟨words, hskipped, hstar, -, hslice, -⟩ := hbefore _ hstep
  have hends : (Pattern.matchAt (⟨.group d, .zeroOrMore, ⟨0, 5⟩⟩ :: p) [' ', ' ', 'é', 'b'] w.cursor).map Match.stop =
      some 4 := by
    rw [← hstop, hstep]
    rfl
  have hlength : w.remaining.length < 5 := by rw [hw]; exact Nat.lt_succ_self 4
  have hwithin := hturns 5 hlength
  rw [hskip] at hwithin
  rw [hcursor] at hends hskipped hstar hslice
  exact ⟨w, d, p, words, hw, hd, hp, hdelimiter, hhere, hstep, hwithin, hends, hskipped, hstar, hslice⟩

end Walker

end PatternWalk
