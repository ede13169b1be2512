import PatternWalk.Proofs.Sessions
/-!
# ManySteps — a list of patterns is walked pattern by pattern

A list of patterns is read as a whole before the first step is made.  After that it is walked as if each pattern came in
a call of its own, up to the first that does not match.
-/
namespace PatternWalk

/-! ## Reading the list -/

namespace PatternSource

variable {limits : Limits}

theorem exists_resolveAll : ∀ {sources : List PatternSource},
    (∀ s ∈ sources, ∃ p, s.resolve limits = .ok p) → ∃ patterns, resolveAll limits sources = .ok patterns
  | [], _ => ⟨[], rfl⟩
  | s :: sources, h => by
    obtain ⟨p, hp⟩ := h s List.mem_cons_self
    obtain ⟨patterns, hpatterns⟩ := exists_resolveAll fun s hs => h s (List.mem_cons_of_mem _ hs)
    refine ⟨p :: patterns, ?_⟩
    rw [resolveAll, hp, hpatterns]
    rfl

theorem resolveAll_eq_error {s : PatternSource} {error : GrammarError} (hs : s.resolve limits = .error error)
    (more : List PatternSource) : ∀ {sources : List PatternSource}, (∀ s ∈ sources, ∃ p, s.resolve limits = .ok p) →
      resolveAll limits (sources ++ s :: more) = .error error
  | [], _ => by rw [List.nil_append, resolveAll, hs]
  | s' :: sources, h => by
    obtain ⟨p, hp⟩ := h s' List.mem_cons_self
    have hrest := resolveAll_eq_error hs more fun s hs => h s (List.mem_cons_of_mem s' hs)
    rw [List.cons_append, resolveAll, hp, hrest]
    rfl

theorem resolve_of_resolveAll {s : PatternSource} {sources : List PatternSource} {patterns : List Pattern}
    (h : resolveAll limits (s :: sources) = .ok patterns) : ∃ p rest, s.resolve limits = .ok p ∧
      resolveAll limits sources = .ok rest ∧ patterns = p :: rest := by
  rw [resolveAll] at h
  cases hs : s.resolve limits with
  | error e =>
    rw [hs] at h
    cases h
  | ok p =>
    rw [hs] at h
    cases hrest : resolveAll limits sources with
    | error e =>
      rw [hrest] at h
      cases h
    | ok rest =>
      rw [hrest] at h
      cases h
      exact ⟨p, rest, rfl, rfl, rfl⟩

theorem length_resolveAll : ∀ {sources : List PatternSource} {patterns : List Pattern},
    resolveAll limits sources = .ok patterns → sources.length = patterns.length
  | [], _, h => by
    cases h
    rfl
  | _ :: _, _, h => by
    obtain ⟨p, rest, -, hrest, rfl⟩ := resolve_of_resolveAll h
    rw [List.length_cons, List.length_cons, length_resolveAll hrest]

theorem resolveAll_append : ∀ {sources more : List PatternSource} {patterns others : List Pattern},
    resolveAll limits sources = .ok patterns → resolveAll limits more = .ok others →
      resolveAll limits (sources ++ more) = .ok (patterns ++ others)
  | [], _, _, _, h, h' => by
    cases h
    exact h'
  | s :: sources, more, _, others, h, h' => by
    obtain ⟨p, rest, hs, hrest, rfl⟩ := resolve_of_resolveAll h
    rw [List.cons_append, resolveAll, hs, resolveAll_append hrest h']
    rfl

end PatternSource

/-! ## Walking the list -/

namespace Walker

variable {σ : Type}

theorem steps_cons_some {w next : Walker σ} {p : Pattern} {m : Match} (h : w.step p = (some m, next))
    (patterns : List Pattern) (index : Nat) : w.steps (p :: patterns) index =
      (⟨m.text :: (next.steps patterns (index + 1)).1.texts, (next.steps patterns (index + 1)).1.failedAt?⟩,
        (next.steps patterns (index + 1)).2) := by
  rw [steps, h]

theorem steps_cons_none {w next : Walker σ} {p : Pattern} (h : w.step p = (none, next)) (patterns : List Pattern)
    (index : Nat) : w.steps (p :: patterns) index = (⟨[], some index⟩, next) := by
  rw [steps, h]

inductive Walks : Walker σ → List Pattern → List Match → Walker σ → Prop
  | nil {w} : Walks w [] [] w
  | cons {w p m next patterns ms last} (hstep : w.step p = (some m, next)) (hrest : Walks next patterns ms last) :
    Walks w (p :: patterns) (m :: ms) last

theorem Walks.length_eq {w last : Walker σ} {patterns : List Pattern} {ms : List Match}
    (h : w.Walks patterns ms last) : ms.length = patterns.length := by
  induction h with
  | nil => rfl
  | cons _ _ ih => rw [List.length_cons, List.length_cons, ih]

/-- **What a list of steps does**: all of them match; or some do, and the next one does not. -/
inductive Tries (w : Walker σ) (patterns : List Pattern) (index : Nat) : Progress × Walker σ → Prop
  | complete {ms last} (hwalks : w.Walks patterns ms last) : Tries w patterns index (⟨ms.map (·.text), none⟩, last)
  | failed {front p back ms stop last} (heq : patterns = front ++ p :: back) (hwalks : w.Walks front ms stop)
      (hstep : stop.step p = (none, last)) :
    Tries w patterns index (⟨ms.map (·.text), some (index + ms.length)⟩, last)

theorem tries_steps : ∀ (patterns : List Pattern) (w : Walker σ) (index : Nat),
    w.Tries patterns index (w.steps patterns index)
  | [], _, _ => .complete .nil
  | p :: patterns, w, index => by
    cases hstep : w.step p with
    | mk m? next =>
      cases m? with
      | none =>
        have hfront : p :: patterns = [] ++ p :: patterns := rfl
        rw [steps_cons_none hstep]
        exact .failed hfront .nil hstep
      | some m =>
        have h := tries_steps patterns next (index + 1)
        rw [steps_cons_some hstep]
        generalize next.steps patterns (index + 1) = result at h ⊢
        cases h with
        | complete hwalks => exact .complete (.cons hstep hwalks)
        | @failed front q back ms stop last heq hwalks hfail =>
          have hindex : index + 1 + ms.length = index + (m :: ms).length := by rw [List.length_cons]; omega
          have hfront : p :: patterns = (p :: front) ++ q :: back := congrArg (p :: ·) heq
          rw [hindex]
          exact .failed hfront (.cons hstep hwalks) hfail

theorem failedAt?_steps (w : Walker σ) (patterns : List Pattern) (index : Nat) :
    (w.steps patterns index).1.failedAt? =
      (if (w.steps patterns index).1.isComplete then none else some (index + (w.steps patterns index).1.texts.length)) ∧
    (if (w.steps patterns index).1.isComplete then (w.steps patterns index).1.texts.length = patterns.length
      else (w.steps patterns index).1.texts.length < patterns.length) := by
  have h := tries_steps patterns w index
  generalize w.steps patterns index = result at h ⊢
  cases h with
  | complete hwalks => simpa [Progress.isComplete] using hwalks.length_eq
  | failed heq hwalks =>
    have hlength := hwalks.length_eq
    simp [Progress.isComplete, heq]
    omega

-- a list that is walked on starts to count where the one before it ended
theorem steps_add : ∀ (patterns : List Pattern) (w : Walker σ) (index k : Nat),
    w.steps patterns (index + k) = (⟨(w.steps patterns index).1.texts,
      (w.steps patterns index).1.failedAt?.map (· + k)⟩, (w.steps patterns index).2)
  | [], _, _, _ => rfl
  | p :: patterns, w, index, k => by
    cases hstep : w.step p with
    | mk m? next =>
      cases m? with
      | none =>
        rw [steps_cons_none hstep, steps_cons_none hstep]
        rfl
      | some m => rw [steps_cons_some hstep, steps_cons_some hstep, Nat.add_right_comm, steps_add patterns next]

/-- **Steps are cut anywhere**: the further ones are made if none before them failed. -/
theorem steps_append : ∀ (patterns more : List Pattern) (w : Walker σ) (index : Nat),
    w.steps (patterns ++ more) index =
      if (w.steps patterns index).1.isComplete then
        (⟨(w.steps patterns index).1.texts ++
            ((w.steps patterns index).2.steps more (index + patterns.length)).1.texts,
          ((w.steps patterns index).2.steps more (index + patterns.length)).1.failedAt?⟩,
          ((w.steps patterns index).2.steps more (index + patterns.length)).2)
      else w.steps patterns index
  | [], _, _, _ => rfl
  | p :: patterns, more, w, index => by
    rw [List.cons_append]
    cases hstep : w.step p with
    | mk m? next =>
      cases m? with
      | none =>
        rw [steps_cons_none hstep, steps_cons_none hstep]
        rfl
      | some m =>
        have hindex : index + (p :: patterns).length = index + 1 + patterns.length := by rw [List.length_cons]; omega
        rw [steps_cons_some hstep, steps_cons_some hstep, steps_append patterns more next (index + 1), hindex]
        by_cases hcomplete : (next.steps patterns (index + 1)).1.isComplete = true
        · rw [if_pos hcomplete]
          exact (if_pos hcomplete).symm
        · rw [if_neg hcomplete]
          exact (if_neg hcomplete).symm

/-- **Walks with one pattern after the other**, each in a call of its own, up to the first that does not match: the
texts, and whether all matched. -/
def walkEach (w : Walker σ) : List PatternSource → Except GrammarError (List Text × Bool) × Walker σ
  | [] => (.ok ([], true), w)
  | source :: sources =>
    match w.walk source with
    | (.error e, w) => (.error e, w)
    | (.ok none, w) => (.ok ([], false), w)
    | (.ok (some text), w) =>
      let (walked, w) := walkEach w sources
      (walked.map fun (texts, all) => (text :: texts, all), w)

/-- A list that was read is walked in the same way in one call and in many. -/
theorem walkEach_eq_steps : ∀ {sources : List PatternSource} {patterns : List Pattern} {w : Walker σ} (index : Nat),
    PatternSource.resolveAll w.limits sources = .ok patterns → w.walkEach sources =
      (.ok ((w.steps patterns index).1.texts, (w.steps patterns index).1.isComplete), (w.steps patterns index).2)
  | [], _, _, _, h => by
    cases h
    rfl
  | s :: sources, _, w, index, h => by
    obtain ⟨p, rest, hs, hrest, rfl⟩ := PatternSource.resolve_of_resolveAll h
    have hlimits := (w.step_onward p).limits_eq
    rw [walkEach, walk_of_ok hs]
    cases hstep : w.step p with
    | mk m? next =>
      rw [hstep] at hlimits
      cases m? with
      | none =>
        rw [steps_cons_none hstep]
        rfl
      | some m =>
        have hnext : PatternSource.resolveAll next.limits sources = .ok rest := by rw [hlimits]; exact hrest
        rw [steps_cons_some hstep]
        dsimp only [Option.map]
        rw [walkEach_eq_steps (index + 1) hnext]
        rfl

/-- **A list of patterns is walked pattern by pattern.**  If one of them cannot be read, the first such decides, and
nothing is run.  If all can be read, the texts and the walker that is left, with all it has seen, are those of calls
with one pattern after the other up to the first that does not match, and the index of the failure is the number of
texts.  So a list in two parts is the second part walked after the first, if that came to its end. -/
theorem walkMany_eq_walkEach (w : Walker σ) :
    (∀ (front : List PatternSource) (s : PatternSource) (back : List PatternSource) (error : GrammarError),
      (∀ s' ∈ front, ∃ p, s'.resolve w.limits = .ok p) → s.resolve w.limits = .error error →
        w.walkMany (front ++ s :: back) = (.error error, w) ∧
        w.perform (.walkMany (front ++ s :: back)) = (.refused error, w)) ∧
    (∀ sources : List PatternSource, (∀ s ∈ sources, ∃ p, s.resolve w.limits = .ok p) →
      ∃ texts all last, w.walkEach sources = (.ok (texts, all), last) ∧
        w.walkMany sources = (.ok ⟨texts, if all then none else some texts.length⟩, last) ∧
        if all then texts.length = sources.length else texts.length < sources.length) ∧
    (∀ sources more : List PatternSource, (∀ s ∈ sources ++ more, ∃ p, s.resolve w.limits = .ok p) →
      w.walkMany (sources ++ more) =
        match w.walkMany sources with
        | (.error error, next) => (.error error, next)
        | (.ok progress, next) =>
          if progress.isComplete then
            let (walked, last) := next.walkMany more
            (walked.map fun rest =>
              ⟨progress.texts ++ rest.texts, rest.failedAt?.map (· + sources.length)⟩, last)
          else (.ok progress, next)) := by
  refine ⟨fun front s back error hfront hs => ?_, fun sources hsources => ?_, fun sources more hboth => ?_⟩
  · have hread : PatternSource.resolveAll w.limits (front ++ s :: back) = .error error :=
      PatternSource.resolveAll_eq_error hs back hfront
    exact ⟨walkMany_of_error hread, perform_of_error hread⟩
  · obtain ⟨patterns, hpatterns⟩ := PatternSource.exists_resolveAll hsources
    obtain ⟨hfailed, hlength⟩ := failedAt?_steps w patterns 0
    rw [Nat.zero_add] at hfailed
    refine ⟨_, _, _, walkEach_eq_steps 0 hpatterns, ?_, ?_⟩
    · rw [walkMany_of_ok hpatterns, ← hfailed]
    · rwa [PatternSource.length_resolveAll hpatterns]
  · obtain ⟨patterns, hpatterns⟩ := PatternSource.exists_resolveAll fun s hs => hboth s (List.mem_append_left more hs)
    obtain ⟨others, hothers⟩ := PatternSource.exists_resolveAll fun s hs => hboth s (List.mem_append_right sources hs)
    have hnext : PatternSource.resolveAll (w.steps patterns 0).2.limits more = .ok others := by
      rw [(steps_onward patterns w 0).limits_eq]
      exact hothers
    rw [walkMany_of_ok (PatternSource.resolveAll_append hpatterns hothers), walkMany_of_ok hpatterns, steps_append]
    by_cases hcomplete : (w.steps patterns 0).1.isComplete = true
    · simp only [if_pos hcomplete]
      rw [walkMany_of_ok hnext, Nat.zero_add, ← Nat.zero_add patterns.length, steps_add,
        PatternSource.length_resolveAll hpatterns]
      rfl
    · simp only [if_neg hcomplete]

/-- Over `ab` the patterns `a`, `c`, `b` are walked up to the second, which does not match; with `(` among them nothing
is walked. -/
theorem walkMany_eq_walkEach_letters : ∃ w : Walker Unit, create ['a', 'b'] none {} Observer.idle () = .ok w ∧
    (∀ s ∈ [PatternSource.text ['a'], .text ['c'], .text ['b']], ∃ p, s.resolve w.limits = .ok p) ∧
    (∃ error, PatternSource.resolve w.limits (.text ['(']) = .error error ∧
      w.walkMany ([.text ['a']] ++ .text ['('] :: [.text ['b']]) = (.error error, w)) ∧
    (∃ texts all last, w.walkEach [.text ['a'], .text ['c'], .text ['b']] = (.ok (texts, all), last) ∧
      w.walkMany [.text ['a'], .text ['c'], .text ['b']] =
        (.ok ⟨texts, if all then none else some texts.length⟩, last)) ∧
    w.walkMany ([.text ['a']] ++ [.text ['c'], .text ['b']]) =
      match w.walkMany [.text ['a']] with
      | (.error error, next) => (.error error, next)
      | (.ok progress, next) =>
        if progress.isComplete then
          let (walked, last) := next.walkMany [.text ['c'], .text ['b']]
          (walked.map fun rest => ⟨progress.texts ++ rest.texts, rest.failedAt?.map (· + 1)⟩, last)
        else (.ok progress, next) := by
  obtain ⟨w, hcreate, ⟨error, herror⟩, hread⟩ : ∃ w : Walker Unit,
      create ['a', 'b'] none {} Observer.idle () = .ok w ∧
      (∃ error, PatternSource.resolve w.limits (.text ['(']) = .error error) ∧
      ∀ s ∈ [PatternSource.text ['a'], .text ['c'], .text ['b']], ∃ p, s.resolve w.limits = .ok p := by
    refine ⟨_, rfl, ⟨_, rfl⟩, fun s hs => ?_⟩
    rcases List.mem_cons.1 hs with rfl | hs
    · exact ⟨_, rfl⟩
    · rcases List.mem_cons.1 hs with rfl | hs
      · exact ⟨_, rfl⟩
      · exact List.mem_singleton.1 hs ▸ ⟨_, rfl⟩
  obtain ⟨hfirst, heach, hparts⟩ := walkMany_eq_walkEach w
  obtain ⟨texts, all, last, hwalkEach, hwalkMany, -⟩ := heach _ hread
  have hfront : ∀ s ∈ [PatternSource.text ['a']], ∃ p, s.resolve w.limits = .ok p := fun s hs =>
    hread s (List.mem_singleton.1 hs ▸ List.mem_cons_self)
  exact ⟨w, hcreate, hread, ⟨error, herror, (hfirst _ _ [.text ['b']] error hfront herror).1⟩,
    ⟨texts, all, last, hwalkEach, hwalkMany⟩, hparts [.text ['a']] _ hread⟩

end Walker

end PatternWalk
