import PatternWalk.Proofs.Sessions
/-!
# Resuming — a session can be taken up on the text that is left

What stands before a place makes no difference to what happens from there on: in a text with more text in front of it
everything happens `n` bytes later, and in the same way.  This holds of a node, of the greedy loop around it, of a
pattern, of the delimiters that are skipped, of a search and so of every call (`perform_behind`).  A walker that has
got somewhere therefore goes on as a new walker would that starts there (`session_resumes`).
-/
namespace PatternWalk

/-! ## The same place, with more text in front -/

/-- **The same place in a longer text**, which has `n` bytes more in front. -/
def Place.behind (n : Nat) (here : Place) : Place := { here with offset := here.offset + n }

def Match.behind (n : Nat) (m : Match) : Match := { m with start := m.start + n }

def Sighting.behind (n : Nat) (s : Sighting) : Sighting := { s with anchorStart := s.anchorStart + n }

theorem Match.stop_behind (n : Nat) (m : Match) : (m.behind n).stop = m.stop + n := Nat.add_right_comm _ _ _

theorem Sighting.stop_behind (n : Nat) (s : Sighting) : (s.behind n).stop = s.stop + n := Nat.add_right_comm _ _ _

namespace Place

variable (n : Nat) (here : Place)

theorem pastWord?_behind (word : Text) : (here.behind n).pastWord? word = (here.pastWord? word).map (·.behind n) := by
  unfold pastWord?
  rw [Option.map_map]
  refine congrArg (fun f => (Text.after? word here.rest).map f) (funext fun rest => ?_)
  exact congrArg (Place.mk · rest) (Nat.add_right_comm _ _ _)

theorem pastChar?_behind (accepts : Char → Bool) :
    (here.behind n).pastChar? accepts = (here.pastChar? accepts).map (·.behind n) := by
  obtain ⟨offset, rest⟩ := here
  cases rest with
  | nil => rfl
  | cons c rest =>
    by_cases hc : accepts c = true
    · simp [pastChar?, behind, hc, Nat.add_right_comm]
    · simp [pastChar?, behind, hc]

end Place

theorem Text.place?_append_size_add (front rest : Text) (n : Nat) :
    (front ++ rest).place? (front.size + n) = (rest.place? n).map (·.behind front.size) := by
  unfold place?
  rw [dropBytes?_append_size_add, Option.map_map]
  refine congrArg (fun f => (rest.dropBytes? n).map f) (funext fun rest => ?_)
  exact congrArg (Place.mk · rest) (Nat.add_comm _ _)

/-! ## Evaluation does not look back -/

theorem repeatQuietly_behind {once : Place → Option Place} {n : Nat}
    (honce : ∀ here : Place, once (here.behind n) = (once here).map (·.behind n)) (q : Quantifier) (count : UInt32)
    (here : Place) : repeatQuietly once q count (here.behind n) =
      ((repeatQuietly once q count here).1, (repeatQuietly once q count here).2.behind n) := by
  unfold repeatQuietly
  by_cases hq : q.allowsAnother count = true
  · rw [if_pos hq, if_pos hq, honce]
    cases once here with
    | none => rfl
    | some there =>
      by_cases hlt : there.rest.length < here.rest.length
      · -- the rest of the text is the same, so it is shorter here and there
        have hlt' : (there.behind n).rest.length < (here.behind n).rest.length := hlt
        simp only [Option.map_some, if_pos hlt, if_pos hlt']
        exact repeatQuietly_behind honce q (count + 1) there
      · have hlt' : ¬(there.behind n).rest.length < (here.behind n).rest.length := hlt
        simp only [Option.map_some, if_neg hlt, if_neg hlt']
  · rw [if_neg hq, if_neg hq]
termination_by here.rest.length

mutual
theorem Node.past?_behind (n : Nat) : ∀ (m : Node) (here : Place),
    m.past? (here.behind n) = (m.past? here).map (·.behind n)
  | .literal text, here => here.pastWord?_behind n text
  | .charSet set, here => here.pastChar?_behind n set.accepts
  | .group body, here => Pattern.past?_behind n body here
theorem Term.past?_behind (n : Nat) : ∀ (t : Term) (here : Place),
    t.past? (here.behind n) = (t.past? here).map (·.behind n)
  | ⟨m, q, _⟩, here => by
    rw [Term.past?, Term.past?, repeatQuietly_behind (Node.past?_behind n m)]
    by_cases hcount : q.isSatisfiedBy (repeatQuietly m.past? q 0 here).1 = true
    · rw [if_pos hcount, if_pos hcount, Option.map_some]
    · rw [if_neg hcount, if_neg hcount, Option.map_none]
/-- **A pattern does not look back**: with more text in front it leads to the same place as without. -/
theorem Pattern.past?_behind (n : Nat) : ∀ (p : Pattern) (here : Place),
    p.past? (here.behind n) = (p.past? here).map (·.behind n)
  | [], _ => rfl
  | t :: p, here => by
    rw [Pattern.past?, Pattern.past?, Term.past?_behind n t here]
    cases t.past? here with
    | none => rfl
    | some there => exact Pattern.past?_behind n p there
end

theorem Pattern.matchAt_append_size_add (p : Pattern) (front rest : Text) (offset : Nat) :
    p.matchAt (front ++ rest) (front.size + offset) = (p.matchAt rest offset).map (·.behind front.size) := by
  rw [matchAt, matchAt, fst_evaluateAt, fst_evaluateAt, Text.place?_append_size_add]
  cases rest.place? offset with
  | none => rfl
  | some here =>
    simp only [Option.map_some, Option.bind_some, p.past?_behind, Option.map_map]
    refine congrArg (fun f => (p.past? here).map f) (funext fun there => ?_)
    exact congrArg (Match.mk · (here.textTo there)) (Nat.add_comm _ _)

/-! ## Walkers do not look back -/

namespace Walker

/-- **The same walker in a longer text**, which has `n` bytes more in front. -/
def behind {σ : Type} (n : Nat) (w : Walker σ) : Walker σ := { w with here := w.here.behind n }

/-- The same answer in a text with `n` bytes more in front: matches and anchors start later, and nothing else is
different.  A refusal tells of the pattern, not of the text. -/
def Answer.behind (n : Nat) : Answer → Answer
  | .text text? => .text text?
  | .found match? => .found (match?.map (·.behind n))
  | .sighted sighting? => .sighted (sighting?.map (·.behind n))
  | .progress p => .progress p
  | .refused error => .refused error

-- who watches makes no difference, so it is enough to follow walkers that nobody watches
variable (n : Nat) (w : Walker Unit)

theorem evaluate_behind (observe : Observer Unit) (p : Pattern) (here : Place) (seen : Unit) :
    p.evaluate observe (here.behind n) seen =
      ((p.evaluate observe here seen).1.map (·.behind n), (p.evaluate observe here seen).2) := by
  refine Prod.ext ?_ rfl
  rw [p.fst_evaluate, p.fst_evaluate, p.past?_behind]

theorem skipFrom_behind (observe : Observer Unit) (delimiter : Pattern) (here : Place) (seen : Unit) :
    skipFrom observe delimiter (here.behind n) seen =
      ((skipFrom observe delimiter here seen).1.behind n, (skipFrom observe delimiter here seen).2) := by
  unfold skipFrom
  rw [evaluate_behind]
  generalize delimiter.evaluate observe here seen = result
  obtain ⟨there?, seen'⟩ := result
  cases there? with
  | none => rfl
  | some there =>
    by_cases hlt : there.rest.length < here.rest.length
    · have hlt' : (there.behind n).rest.length < (here.behind n).rest.length := hlt
      simp only [Option.map_some, if_pos hlt, if_pos hlt']
      exact skipFrom_behind observe delimiter there seen'
    · have hlt' : ¬(there.behind n).rest.length < (here.behind n).rest.length := hlt
      simp only [Option.map_some, if_neg hlt, if_neg hlt']
termination_by here.rest.length

theorem observe_behind : (w.behind n).observe = w.observe := rfl

theorem skipDelimiters_behind :
    (w.behind n).skipDelimiters = (w.skipDelimiters.1.behind n, w.skipDelimiters.2) := by
  unfold skipDelimiters behind
  cases w.delimiter? with
  | none => rfl
  | some delimiter => exact skipFrom_behind n w.observe delimiter w.here w.seen

theorem step_behind (p : Pattern) :
    (w.behind n).step p = ((w.step p).1.map (·.behind n), (w.step p).2.behind n) := by
  unfold step
  rw [skipDelimiters_behind]
  generalize w.skipDelimiters = skipped
  obtain ⟨start, seen⟩ := skipped
  dsimp only
  rw [observe_behind, evaluate_behind]
  generalize p.evaluate w.observe start seen = result
  obtain ⟨there?, seen'⟩ := result
  cases there? <;> rfl

theorem steps_behind : ∀ (patterns : List Pattern) (w : Walker Unit) (index : Nat),
    (w.behind n).steps patterns index = ((w.steps patterns index).1, (w.steps patterns index).2.behind n)
  | [], _, _ => rfl
  | p :: patterns, w, index => by
    unfold steps
    rw [step_behind]
    generalize w.step p = result
    obtain ⟨m?, w'⟩ := result
    cases m? with
    | none => rfl
    | some m =>
      dsimp only [Option.map]
      rw [steps_behind patterns w' (index + 1)]
      rfl

theorem seekFrom_behind (observe : Observer Unit) (anchor : Pattern) : ∀ (offset : Nat) (rest : Text) (seen : Unit),
    seekFrom observe anchor (offset + n) rest seen =
      ((seekFrom observe anchor offset rest seen).1.map fun (start, there) => (start.behind n, there.behind n),
        (seekFrom observe anchor offset rest seen).2)
  | offset, [], seen => by
    have hhere : (⟨offset + n, []⟩ : Place) = Place.behind n ⟨offset, []⟩ := rfl
    unfold seekFrom
    rw [hhere, evaluate_behind]
    generalize anchor.evaluate observe ⟨offset, []⟩ seen = result
    obtain ⟨there?, seen'⟩ := result
    cases there? <;> rfl
  | offset, c :: rest, seen => by
    have hhere : (⟨offset + n, c :: rest⟩ : Place) = Place.behind n ⟨offset, c :: rest⟩ := rfl
    unfold seekFrom
    rw [hhere, evaluate_behind, Nat.add_right_comm]
    generalize anchor.evaluate observe ⟨offset, c :: rest⟩ seen = result
    obtain ⟨there?, seen'⟩ := result
    cases there? with
    | none => exact seekFrom_behind observe anchor (offset + c.utf8Size) rest seen'
    | some there => rfl

theorem seek_behind (anchor : Pattern) :
    (w.behind n).seek anchor = ((w.seek anchor).1.map (·.behind n), (w.seek anchor).2.behind n) := by
  have hfound : seekFrom (w.behind n).observe anchor (w.behind n).here.offset (w.behind n).here.rest (w.behind n).seen =
    _ := seekFrom_behind n w.observe anchor w.here.offset w.here.rest w.seen
  unfold seek
  rw [hfound]
  generalize seekFrom w.observe anchor w.here.offset w.here.rest w.seen = result
  obtain ⟨found?, seen⟩ := result
  cases found? <;> rfl

/-- **A call does not look back**: with more text in front it has the same answer and the same end, later. -/
theorem perform_behind (call : Call) :
    (w.behind n).perform call = ((w.perform call).1.behind n, (w.perform call).2.behind n) := by
  have hperforms := w.performs call
  generalize w.perform call = result at hperforms ⊢
  cases hperforms with
  | refused hread => exact perform_of_error hread
  | walk hread =>
    rw [perform_walk (w := w.behind n) hread, step_behind, Option.map_map]
    rfl
  | walkMatch hread =>
    rw [perform_walkMatch (w := w.behind n) hread, step_behind]
    rfl
  | walkUntil hread =>
    rw [perform_walkUntil (w := w.behind n) hread, seek_behind]
    rfl
  | walkMany hread =>
    rw [perform_walkMany (w := w.behind n) hread, steps_behind]
    rfl

/-! ## Sessions -/

section
variable {σ τ : Type}

/-- **What is told of a session**: the answer to each call, and the cursor after it. -/
def transcript (w : Walker σ) (calls : List Call) : List (Answer × Nat) :=
  (w.performAll calls).map fun (answer, w) => (answer, w.cursor)

theorem transcript_cons (w : Walker σ) (call : Call) (calls : List Call) : w.transcript (call :: calls) =
    ((w.perform call).1, (w.perform call).2.cursor) :: (w.perform call).2.transcript calls := rfl

theorem unwatched_transcript : ∀ (calls : List Call) (w : Walker σ), w.unwatched.transcript calls = w.transcript calls
  | [], _ => rfl
  | call :: calls, w => by
    rw [transcript_cons, transcript_cons, unwatched_perform, unwatched_transcript calls, unwatched_cursor]

theorem transcript_behind : ∀ (calls : List Call) (w : Walker Unit), (w.behind n).transcript calls =
    (w.transcript calls).map fun (answer, cursor) => (answer.behind n, cursor + n)
  | [], _ => rfl
  | call :: calls, w => by
    rw [transcript_cons, transcript_cons, perform_behind, List.map_cons, transcript_behind calls]
    rfl

theorem exists_eq_of_create {source : Text} {delimiter? : Option Text} {limits : Limits} {observe : Observer σ}
    {seen : σ} {w : Walker σ} (h : create source delimiter? limits observe seen = .ok w) :
    ∃ d?, w = ⟨.start source, d?, limits, observe, seen⟩ ∧
      ∀ (rest : Text) (observe' : Observer τ) (seen' : τ),
        create rest delimiter? limits observe' seen' = .ok ⟨.start rest, d?, limits, observe', seen'⟩ := by
  unfold create at h ⊢
  cases delimiter? with
  | none =>
    cases h
    exact ⟨none, rfl, fun _ _ _ => rfl⟩
  | some text =>
    dsimp only at h ⊢
    cases hread : Pattern.read text limits with
    | error error =>
      rw [hread] at h
      cases h
    | ok d =>
      rw [hread] at h
      cases h
      exact ⟨some d, rfl, fun _ _ _ => rfl⟩

/-- **A session can be resumed on what is left of its text.**  After any calls a walker answers all further calls as a
new walker does that has the same delimiter and limits, and the text from the cursor on as its text: with the same
texts, the same refusals and the same steps that fail, and with every offset, cursors included, later by the cursor.
This is so because a pattern does not look back: behind other text it matches as at the start of the text. -/
theorem session_resumes {source : Text} {delimiter? : Option Text} {limits : Limits} {observe : Observer σ} {seen : σ}
    {first w : Walker σ} (hfirst : create source delimiter? limits observe seen = .ok first) {calls : List Call}
    (hw : w = first.after calls) (observe' : Observer τ) (seen' : τ) :
    (∃ (front rest : Text) (fresh : Walker τ), source = front ++ rest ∧ front.size = w.cursor ∧
      create rest delimiter? limits observe' seen' = .ok fresh ∧
      ∀ more : List Call, w.transcript more =
        (fresh.transcript more).map fun (answer, cursor) => (answer.behind w.cursor, cursor + w.cursor)) ∧
    ∀ (p : Pattern) (front rest : Text),
      p.matchAt (front ++ rest) front.size = (p.matchAt rest 0).map (·.behind front.size) := by
  refine ⟨?_, fun p front rest => p.matchAt_append_size_add front rest 0⟩
  obtain ⟨d?, hd, hcreate⟩ := exists_eq_of_create (τ := τ) hfirst
  have honward : first.Onward w := hw ▸ after_onward calls first
  obtain ⟨front, hpass⟩ := honward.reaches
  have hcursor : w.cursor = 0 + front.size := by
    rw [hd] at hpass
    exact hpass.offset_eq
  have hsource : source = front ++ w.here.rest := by
    rw [hd] at hpass
    exact hpass.rest_eq
  refine ⟨front, w.here.rest, _, hsource, by omega, hcreate _ observe' seen', fun more => ?_⟩
  -- unwatched, the walker is the new one with the text before the cursor in front
  have hsame : w.unwatched = behind w.cursor (unwatched ⟨.start w.here.rest, d?, limits, observe', seen'⟩) := by
    have hdelimiter : w.delimiter? = d? := by rw [honward.delimiter?_eq, hd]
    have hlimits : w.limits = limits := by rw [honward.limits_eq, hd]
    have hhere : w.here = Place.behind w.cursor (.start w.here.rest) :=
      congrArg (Place.mk · w.here.rest) (Nat.zero_add w.cursor).symm
    unfold unwatched behind
    rw [hdelimiter, hlimits]
    exact congrArg (fun here => (⟨here, d?, limits, Observer.idle, ()⟩ : Walker Unit)) hhere
  rw [← unwatched_transcript, hsame, transcript_behind, unwatched_transcript]

end

/-- In `é a!b`, with the delimiter ` `, a walker that has walked past `é` goes on as a new one does in ` a!b`, two bytes
later: of the steps `a` and `c` the second fails, and `b` is found behind `!`. -/
theorem session_resumes_words : ∃ first w : Walker Unit,
    create ['é', ' ', 'a', '!', 'b'] (some [' ']) {} Observer.idle () = .ok first ∧
    w = first.after [.walk (.text ['é'])] ∧
    w.transcript [.walkMany [.text ['a'], .text ['c']], .walkUntil (.text ['b'])] =
      [(.progress ⟨[['a']], some 1⟩, 4), (.sighted (some ⟨['!'], ['b'], 5⟩), 6)] ∧
    (∃ (front rest : Text) (fresh : Walker Unit), ['é', ' ', 'a', '!', 'b'] = front ++ rest ∧ front.size = w.cursor ∧
      create rest (some [' ']) {} Observer.idle () = .ok fresh ∧
      w.transcript [.walkMany [.text ['a'], .text ['c']], .walkUntil (.text ['b'])] =
        (fresh.transcript [.walkMany [.text ['a'], .text ['c']], .walkUntil (.text ['b'])]).map
          fun (answer, cursor) => (answer.behind w.cursor, cursor + w.cursor)) := by
  obtain ⟨first, hfirst, htold⟩ : ∃ first : Walker Unit,
      create ['é', ' ', 'a', '!', 'b'] (some [' ']) {} Observer.idle () = .ok first ∧
      (first.after [.walk (.text ['é'])]).transcript [.walkMany [.text ['a'], .text ['c']], .walkUntil (.text ['b'])] =
        [(.progress ⟨[['a']], some 1⟩, 4), (.sighted (some ⟨['!'], ['b'], 5⟩), 6)] :=
    ⟨⟨.start _, some [⟨.literal [' '], .once, ⟨0, 1⟩⟩], {}, Observer.idle, ()⟩, rfl, by decide +kernel⟩
  obtain ⟨⟨front, rest, fresh, hsource, hsize, hfresh, hmore⟩, -⟩ := session_resumes hfirst rfl Observer.idle ()
  exact ⟨first, _, hfirst, rfl, htold, front, rest, fresh, hsource, hsize, hfresh, hmore _⟩

end Walker

end PatternWalk
