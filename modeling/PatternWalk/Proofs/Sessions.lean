import PatternWalk.Proofs.Stepping
/-!
# Sessions — calls made one after the other

A session is followed by its answers and by the walker that is left at its end.  Neither the answers nor the places
depend on who watches: a watched walker does, in every call, what the same walker does unwatched
(`Walker.unwatched_perform`), so what was seen before a call makes no difference to it.
-/
namespace PatternWalk

namespace Walker

variable {σ : Type} {w : Walker σ}

/-! ## Answers, and what is left -/

def answers (w : Walker σ) (calls : List Call) : List Answer := (w.performAll calls).map (·.1)

def after (w : Walker σ) (calls : List Call) : Walker σ := calls.foldl (fun w call => (w.perform call).2) w

@[simp] theorem after_nil (w : Walker σ) : w.after [] = w := rfl

@[simp] theorem after_cons (w : Walker σ) (call : Call) (calls : List Call) :
    w.after (call :: calls) = (w.perform call).2.after calls := rfl

theorem after_append (w : Walker σ) (calls more : List Call) : w.after (calls ++ more) = (w.after calls).after more :=
  List.foldl_append

theorem performAll_append : ∀ (w : Walker σ) (calls more : List Call),
    w.performAll (calls ++ more) = w.performAll calls ++ (w.after calls).performAll more
  | _, [], _ => rfl
  | w, call :: calls, more => by
    rw [List.cons_append, performAll, performAll, after_cons, performAll_append, List.cons_append]

@[simp] theorem answers_nil (w : Walker σ) : w.answers [] = [] := rfl

@[simp] theorem answers_cons (w : Walker σ) (call : Call) (calls : List Call) :
    w.answers (call :: calls) = (w.perform call).1 :: (w.perform call).2.answers calls := rfl

theorem answers_append (w : Walker σ) (calls more : List Call) :
    w.answers (calls ++ more) = w.answers calls ++ (w.after calls).answers more := by
  unfold answers
  rw [performAll_append, List.map_append]

theorem length_answers : ∀ (w : Walker σ) (calls : List Call), (w.answers calls).length = calls.length
  | _, [] => rfl
  | w, call :: calls => by rw [answers_cons, List.length_cons, List.length_cons, length_answers _ calls]

theorem after_onward : ∀ (calls : List Call) (w : Walker σ), w.Onward (w.after calls)
  | [], w => .refl w
  | call :: calls, w => (w.perform_onward call).trans (after_onward calls (w.perform call).2)

/-! ## From the start of a text -/

section
variable {source : Text}

theorem here_of_create {delimiter? : Option Text} {limits : Limits} {observe : Observer σ} {seen : σ}
    (h : create source delimiter? limits observe seen = .ok w) : w.here = .start source := by
  unfold create at h
  split at h
  · cases h
    rfl
  · rename_i text
    cases hread : Pattern.read text limits with
    | error e =>
      rw [hread] at h
      cases h
    | ok d =>
      rw [hread] at h
      cases h
      rfl

theorem place?_first (hfirst : w.here = .start source) : source.place? w.cursor = some w.here := by
  rw [cursor, hfirst]
  exact Text.place?_eq_some_iff.2 ⟨rfl, [], .refl _⟩

theorem place?_after (hfirst : w.here = .start source) (calls : List Call) :
    source.place? (w.after calls).cursor = some (w.after calls).here :=
  (after_onward calls w).reaches.place? (place?_first hfirst)

end

/-! ## Unwatched -/

def unwatched (w : Walker σ) : Walker Unit :=
  { here := w.here, delimiter? := w.delimiter?, limits := w.limits, observe := Observer.idle, seen := () }

@[simp] theorem unwatched_cursor (w : Walker σ) : w.unwatched.cursor = w.cursor := rfl

@[simp] theorem unwatched_observe (w : Walker σ) : w.unwatched.observe = Observer.idle := rfl

theorem evaluate_idle (p : Pattern) (here : Place) : p.evaluate Observer.idle here () = (p.past? here, ()) := by
  rw [← p.fst_evaluate Observer.idle here ()]

theorem fst_skipFrom (observe : Observer σ) (delimiter : Pattern) (here : Place) (seen : σ) :
    (skipFrom observe delimiter here seen).1 = (skipFrom Observer.idle delimiter here ()).1 := by
  unfold skipFrom
  rw [evaluate_idle, ← delimiter.fst_evaluate observe here seen]
  generalize delimiter.evaluate observe here seen = result
  obtain ⟨there?, seen'⟩ := result
  cases there? with
  | none => rfl
  | some there =>
    by_cases hlt : there.rest.length < here.rest.length
    · simp only [if_pos hlt]
      exact fst_skipFrom observe delimiter there seen'
    · simp only [if_neg hlt]
termination_by here.rest.length

theorem fst_seekFrom (observe : Observer σ) (anchor : Pattern) : ∀ (offset : Nat) (rest : Text) (seen : σ),
    (seekFrom observe anchor offset rest seen).1 = (seekFrom Observer.idle anchor offset rest ()).1
  | offset, [], seen => by
    unfold seekFrom
    rw [evaluate_idle, ← anchor.fst_evaluate observe ⟨offset, []⟩ seen]
    generalize anchor.evaluate observe ⟨offset, []⟩ seen = result
    obtain ⟨there?, seen'⟩ := result
    cases there? <;> rfl
  | offset, c :: rest, seen => by
    unfold seekFrom
    rw [evaluate_idle, ← anchor.fst_evaluate observe ⟨offset, c :: rest⟩ seen]
    generalize anchor.evaluate observe ⟨offset, c :: rest⟩ seen = result
    obtain ⟨there?, seen'⟩ := result
    cases there? with
    | none => exact fst_seekFrom observe anchor (offset + c.utf8Size) rest seen'
    | some there => rfl

theorem fst_skipDelimiters (w : Walker σ) : w.unwatched.skipDelimiters.1 = w.skipDelimiters.1 := by
  unfold skipDelimiters unwatched
  cases w.delimiter? with
  | none => rfl
  | some delimiter => exact (fst_skipFrom w.observe delimiter w.here w.seen).symm

theorem unwatched_step (w : Walker σ) (p : Pattern) :
    w.unwatched.step p = ((w.step p).1, (w.step p).2.unwatched) := by
  unfold step
  have hstart := w.fst_skipDelimiters
  generalize w.skipDelimiters = skipped at hstart ⊢
  generalize w.unwatched.skipDelimiters = skipped' at hstart ⊢
  obtain ⟨start, seen⟩ := skipped
  obtain ⟨start', _⟩ := skipped'
  obtain rfl : start' = start := hstart
  dsimp only
  rw [unwatched_observe, evaluate_idle, ← p.fst_evaluate w.observe start' seen]
  generalize p.evaluate w.observe start' seen = result
  obtain ⟨there?, seen'⟩ := result
  cases there? <;> rfl

theorem unwatched_steps : ∀ (patterns : List Pattern) (w : Walker σ) (index : Nat),
    w.unwatched.steps patterns index = ((w.steps patterns index).1, (w.steps patterns index).2.unwatched)
  | [], _, _ => rfl
  | p :: patterns, w, index => by
    unfold steps
    rw [unwatched_step]
    generalize w.step p = result
    obtain ⟨m?, w'⟩ := result
    cases m? with
    | none => rfl
    | some m =>
      dsimp only
      rw [unwatched_steps patterns w' (index + 1)]

theorem unwatched_seek (w : Walker σ) (anchor : Pattern) :
    w.unwatched.seek anchor = ((w.seek anchor).1, (w.seek anchor).2.unwatched) := by
  unfold seek
  have hfound := fst_seekFrom w.observe anchor w.here.offset w.here.rest w.seen
  generalize seekFrom w.observe anchor w.here.offset w.here.rest w.seen = result at hfound ⊢
  rw [show seekFrom w.unwatched.observe anchor w.unwatched.here.offset w.unwatched.here.rest w.unwatched.seen =
    (result.1, ()) by rw [hfound]; rfl]
  obtain ⟨found?, seen⟩ := result
  cases found? <;> rfl

/-- **Who watches makes no difference**: unwatched, a walker gives the same answer to a call, and the walkers after it
differ only in that one is watched. -/
theorem unwatched_perform (w : Walker σ) (call : Call) :
    w.unwatched.perform call = ((w.perform call).1, (w.perform call).2.unwatched) := by
  have hperforms := w.performs call
  generalize w.perform call = result at hperforms ⊢
  cases hperforms with
  | refused hread => exact perform_of_error hread
  | walk hread => rw [perform_walk (w := w.unwatched) hread, unwatched_step]
  | walkMatch hread => rw [perform_walkMatch (w := w.unwatched) hread, unwatched_step]
  | walkUntil hread => rw [perform_walkUntil (w := w.unwatched) hread, unwatched_seek]
  | walkMany hread => rw [perform_walkMany (w := w.unwatched) hread, unwatched_steps]

theorem unwatched_answers : ∀ (calls : List Call) (w : Walker σ), w.unwatched.answers calls = w.answers calls
  | [], _ => rfl
  | call :: calls, w => by
    rw [answers_cons, answers_cons, unwatched_perform, unwatched_answers calls]

theorem unwatched_after : ∀ (calls : List Call) (w : Walker σ), w.unwatched.after calls = (w.after calls).unwatched
  | [], _ => rfl
  | call :: calls, w => by
    rw [after_cons, after_cons, unwatched_perform, unwatched_after calls]

end Walker

end PatternWalk
