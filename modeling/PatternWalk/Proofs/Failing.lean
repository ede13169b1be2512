import PatternWalk.Proofs.ManySteps
/-!
# Failing — a call that fails might as well not have been made

A refused call runs nothing.  A call that finds no match leaves the walker where it was, also when delimiters lie ahead
that were tried; only what was seen may grow.  A list of steps that fails leaves the walker behind the last match.  So
calls that fail can be left out of a session.
-/
namespace PatternWalk

namespace Walker

variable {σ : Type} {w last : Walker σ}

/-- The call was refused, or found no match.  A list of steps that came to a stop is not meant: it may have moved on. -/
def Answer.isFailure : Answer → Bool
  | .text text? => text?.isNone
  | .found match? => match?.isNone
  | .sighted sighting? => sighting?.isNone
  | .progress _ => false
  | .refused _ => true

theorem step_of_none {p : Pattern} (h : (w.step p).1 = none) : ∃ seen, (w.step p).2 = { w with seen } := by
  have hsteps := w.steps_step p
  generalize w.step p = result at hsteps h ⊢
  cases hsteps with
  | matched => cases h
  | @failed start seen => exact ⟨seen, rfl⟩

theorem seek_of_none {anchor : Pattern} (h : (w.seek anchor).1 = none) :
    ∃ seen, (w.seek anchor).2 = { w with seen } := by
  have hseeks := w.seeks_seek anchor
  generalize w.seek anchor = result at hseeks h ⊢
  cases hseeks with
  | found => cases h
  | @failed seen => exact ⟨seen, rfl⟩

theorem fst_perform_eq_refused {call : Call} {error : GrammarError} :
    (w.perform call).1 = .refused error ↔ call.patterns w.limits = .error error := by
  constructor
  · intro h
    have hperforms := w.performs call
    generalize w.perform call = result at hperforms h
    cases hperforms with
    | refused hread => rw [hread, Answer.refused.inj h]
    | walk | walkMatch | walkUntil | walkMany => cases h
  · exact fun h => congrArg Prod.fst (perform_of_error h)

theorem perform_of_isFailure {call : Call} (h : (w.perform call).1.isFailure = true) :
    ∃ seen, (w.perform call).2 = { w with seen } := by
  have hperforms := w.performs call
  generalize w.perform call = result at hperforms h ⊢
  cases hperforms with
  | refused => exact ⟨w.seen, rfl⟩
  | walk => exact step_of_none (Option.map_eq_none_iff.1 (Option.isNone_iff_eq_none.1 h))
  | walkMatch => exact step_of_none (Option.isNone_iff_eq_none.1 h)
  | walkUntil => exact seek_of_none (Option.isNone_iff_eq_none.1 h)
  | walkMany => cases h

theorem cursor_of_step {p : Pattern} {m : Match} (h : w.step p = (some m, last)) : last.cursor = m.stop := by
  have hsteps := w.steps_step p
  rw [h] at hsteps
  cases hsteps with
  | @matched start there seen hstart hpast =>
    have hreaches : start.Reaches there := p.advances hpast
    exact hreaches.stop_textTo.symm

theorem Walks.cursor_eq {patterns : List Pattern} {ms : List Match} (h : w.Walks patterns ms last) :
    last.cursor = (ms.getLast?.map Match.stop).getD w.cursor := by
  induction h with
  | nil => rfl
  | @cons w p m next patterns ms last hstep _ ih =>
    rw [ih, cursor_of_step hstep, List.getLast?_cons]
    cases ms.getLast? <;> rfl

/-- **A list of steps that fails** has made the steps before, each with a match, and the walker stands at the end of
the last. -/
theorem perform_walkMany_of_failedAt {sources : List PatternSource} {texts : List Text} {index : Nat}
    (h : (w.perform (.walkMany sources)).1 = .progress ⟨texts, some index⟩) :
    ∃ patterns ms stop, PatternSource.resolveAll w.limits sources = .ok patterns ∧ index < patterns.length ∧
      w.Walks (patterns.take index) ms stop ∧ ms.map (·.text) = texts ∧
      (w.perform (.walkMany sources)).2.cursor = (ms.getLast?.map Match.stop).getD w.cursor := by
  have hperforms := w.performs (.walkMany sources)
  generalize w.perform (.walkMany sources) = result at hperforms h ⊢
  cases hperforms with
  | refused => cases h
  | @walkMany _ patterns hpatterns =>
    have htries := tries_steps patterns w 0
    generalize w.steps patterns 0 = result at htries h ⊢
    cases htries with
    | complete => cases h
    | @failed front p back ms stop last heq hwalks hstep =>
      obtain ⟨rfl, hindex⟩ : ms.map (·.text) = texts ∧ 0 + ms.length = index := by simpa using h
      rw [Nat.zero_add, hwalks.length_eq] at hindex
      subst hindex heq
      -- the step that fails leaves the walker behind the matches before it
      obtain ⟨seen, hlast⟩ := step_of_none (congrArg Prod.fst hstep)
      rw [hstep] at hlast
      obtain rfl : last = { stop with seen } := hlast
      exact ⟨_, ms, stop, hpatterns, by simp, by simpa using hwalks, rfl, hwalks.cursor_eq⟩

/-! ## Leaving a failed call out -/

theorem unwatched_perform_of_isFailure {call : Call} (h : (w.perform call).1.isFailure = true) :
    (w.perform call).2.unwatched = w.unwatched := by
  obtain ⟨seen, hseen⟩ := perform_of_isFailure h
  rw [hseen]
  rfl

theorem answers_of_isFailure {call : Call} (h : (w.perform call).1.isFailure = true) (more : List Call) :
    (w.perform call).2.answers more = w.answers more := by
  -- the walkers before and after differ in what was seen, so they are compared unwatched
  rw [← unwatched_answers, unwatched_perform_of_isFailure h, unwatched_answers]

theorem cursor_after_of_isFailure {call : Call} (h : (w.perform call).1.isFailure = true) (more : List Call) :
    ((w.perform call).2.after more).cursor = (w.after more).cursor := by
  rw [← unwatched_cursor, ← unwatched_after, unwatched_perform_of_isFailure h, unwatched_after, unwatched_cursor]

/-- **Failed calls are undone**, at every walker, so in every state of a session.  A call is refused with the first
error in its patterns, and then leaves the walker as it was, with all it has seen.  A call without a match leaves it
where it was.  A list of steps that fails at an index has made the steps before it, all of them with a match, and
leaves the walker at the end of the last of these, or where it was if there is none.  And a session in which a failed
call is left out has the same other answers and leads to the same place. -/
theorem failed_calls_undone (w : Walker σ) :
    (∀ call error, ((w.perform call).1 = .refused error ↔ call.patterns w.limits = .error error) ∧
      ((w.perform call).1 = .refused error → (w.perform call).2 = w)) ∧
    (∀ call, (w.perform call).1.isFailure = true → ∃ seen, (w.perform call).2 = { w with seen }) ∧
    (∀ sources texts index, (w.perform (.walkMany sources)).1 = .progress ⟨texts, some index⟩ →
      ∃ patterns ms stop, PatternSource.resolveAll w.limits sources = .ok patterns ∧ index < patterns.length ∧
        w.Walks (patterns.take index) ms stop ∧ ms.map (·.text) = texts ∧
        (w.perform (.walkMany sources)).2.cursor = (ms.getLast?.map Match.stop).getD w.cursor) ∧
    (∀ calls call more, ((w.after calls).perform call).1.isFailure = true →
      w.answers (calls ++ more) = (w.answers (calls ++ call :: more)).eraseIdx calls.length ∧
      (w.after (calls ++ more)).cursor = (w.after (calls ++ call :: more)).cursor) := by
  refine ⟨fun call error => ⟨fst_perform_eq_refused, fun h => ?_⟩, fun call h => perform_of_isFailure h,
    fun sources texts index h => ?_, fun calls call more h => ?_⟩
  · rw [perform_of_error (fst_perform_eq_refused.1 h)]
  · exact perform_walkMany_of_failedAt h
  · constructor
    · rw [answers_append, answers_append, answers_cons, answers_of_isFailure h, ← length_answers w calls,
        List.eraseIdx_append_of_length_le (Nat.le_refl _), Nat.sub_self, List.eraseIdx_cons_zero]
    · rw [after_append, after_append, after_cons, cursor_after_of_isFailure h]

/-- In `a  b`, with the delimiter ` `, the second of two steps fails and the walker stands behind `a`, not behind the
blanks; `(` is refused; and a walk to `b` that comes too early is undone. -/
theorem failed_calls_undone_words : ∃ w : Walker Unit,
    create ['a', ' ', ' ', 'b'] (some [' ']) {} Observer.idle () = .ok w ∧
    (w.perform (.walkMany [.text ['a'], .text ['c']])).1 = .progress ⟨[['a']], some 1⟩ ∧
    (∃ patterns ms stop, PatternSource.resolveAll w.limits [.text ['a'], .text ['c']] = .ok patterns ∧
      1 < patterns.length ∧ w.Walks (patterns.take 1) ms stop ∧ ms.map (·.text) = [['a']] ∧
      (w.perform (.walkMany [.text ['a'], .text ['c']])).2.cursor = (ms.getLast?.map Match.stop).getD w.cursor) ∧
    (∃ error, (w.perform (.walk (.text ['(']))).1 = .refused error ∧ (w.perform (.walk (.text ['(']))).2 = w) ∧
    ((w.after []).perform (.walk (.text ['b']))).1.isFailure = true ∧
    (∃ seen, (w.perform (.walk (.text ['b']))).2 = { w with seen }) ∧
    w.answers ([] ++ [.walk (.text ['a'])]) =
      (w.answers ([] ++ .walk (.text ['b']) :: [.walk (.text ['a'])])).eraseIdx 0 := by
  obtain ⟨w, hcreate, hmany, ⟨error, hrefused⟩, hfailed⟩ : ∃ w : Walker Unit,
      create ['a', ' ', ' ', 'b'] (some [' ']) {} Observer.idle () = .ok w ∧
      (w.perform (.walkMany [.text ['a'], .text ['c']])).1 = .progress ⟨[['a']], some 1⟩ ∧
      (∃ error, (w.perform (.walk (.text ['(']))).1 = .refused error) ∧
      ((w.after []).perform (.walk (.text ['b']))).1.isFailure = true :=
    ⟨⟨.start _, some [⟨.literal [' '], .once, ⟨0, 1⟩⟩], {}, Observer.idle, ()⟩, rfl, by decide +kernel, ⟨_, rfl⟩,
      by decide +kernel⟩
  obtain ⟨hundone, hkept, hlist, hleft⟩ := failed_calls_undone w
  exact ⟨w, hcreate, hmany, hlist _ _ _ hmany, ⟨error, hrefused, (hundone _ _).2 hrefused⟩, hfailed, hkept _ hfailed,
    (hleft [] _ [.walk (.text ['a'])] hfailed).1⟩

end Walker

end PatternWalk
