import PatternWalk.Proofs.JsonLines
import PatternWalk.Proofs.Outcomes
import PatternWalk.Proofs.Resuming
/-!
# Scripts — a script is a session that stops where a step finds nothing

A script reads all its patterns first: the delimiter, then those of the steps in order, and the first that cannot be
read decides (`run_eq_error_iff`).  Then its steps are the calls of one walker, each made where the calls before it have
led, up to the first that finds nothing; the records tell what these calls answer (`runAll_recounts`).  The exit status
says whether all steps were made and found something, and each record is a line of the output.
-/
namespace PatternWalk

namespace Script

/-! ## Reading the patterns -/

theorem readAll_cons_ok {step : Step} {p : Pattern} (h : Pattern.read step.pattern = .ok p) (steps : List Step) :
    readAll (step :: steps) = (readAll steps).map ((step, p) :: ·) := by rw [readAll, h]

theorem readAll_cons_error {step : Step} {e : GrammarError} (h : Pattern.read step.pattern = .error e)
    (steps : List Step) : readAll (step :: steps) = .error e := by rw [readAll, h]

theorem readAll_eq_error_iff {e : GrammarError} : ∀ {steps : List Step}, readAll steps = .error e ↔
    ∃ front step back, steps = front ++ step :: back ∧ (∀ s ∈ front, ∃ p, Pattern.read s.pattern = .ok p) ∧
      Pattern.read step.pattern = .error e
  | [] => by simp [readAll]
  | step :: steps => by
    cases hread : Pattern.read step.pattern with
    | error e' =>
      rw [readAll_cons_error hread]
      constructor
      · rintro ⟨⟩
        exact ⟨[], step, steps, rfl, fun s hs => absurd hs List.not_mem_nil, hread⟩
      · rintro ⟨front, bad, back, heq, hfront, hbad⟩
        cases front with
        | nil =>
          cases heq
          exact congrArg Except.error (Except.error.inj (hread.symm.trans hbad))
        | cons s front =>
          cases heq
          obtain ⟨p, hp⟩ := hfront step List.mem_cons_self
          cases hread.symm.trans hp
    | ok p =>
      have hrest : readAll steps = .error e ↔ _ := readAll_eq_error_iff
      rw [readAll_cons_ok hread]
      constructor
      · intro h
        cases hsteps : readAll steps with
        | ok pairs =>
          rw [hsteps] at h
          cases h
        | error e' =>
          rw [hsteps] at h hrest
          cases h
          obtain ⟨front, bad, back, rfl, hfront, hbad⟩ := hrest.1 rfl
          refine ⟨step :: front, bad, back, rfl, fun s hs => ?_, hbad⟩
          rcases List.mem_cons.1 hs with rfl | hs
          · exact ⟨p, hread⟩
          · exact hfront s hs
      · rintro ⟨front, bad, back, heq, hfront, hbad⟩
        cases front with
        | nil =>
          cases heq
          cases hread.symm.trans hbad
        | cons s front =>
          cases heq
          rw [hrest.2 ⟨front, bad, back, rfl, fun s hs => hfront s (List.mem_cons_of_mem _ hs), hbad⟩]
          rfl

theorem exists_readAll_eq_error_iff : ∀ {steps : List Step}, (∃ e, readAll steps = .error e) ↔
    ∃ step ∈ steps, ∃ e, Pattern.read step.pattern = .error e
  | [] => by simp [readAll]
  | step :: steps => by
    simp only [List.mem_cons, exists_eq_or_imp]
    rw [← exists_readAll_eq_error_iff]
    cases hread : Pattern.read step.pattern with
    | error e =>
      rw [readAll_cons_error hread]
      exact ⟨fun _ => .inl ⟨e, rfl⟩, fun _ => ⟨e, rfl⟩⟩
    | ok p =>
      rw [readAll_cons_ok hread]
      cases readAll steps <;> simp [Except.map]

theorem of_readAll_eq_ok : ∀ {steps : List Step} {pairs : List (Step × Pattern)}, readAll steps = .ok pairs →
    pairs.map Prod.fst = steps ∧ ∀ pair ∈ pairs, Pattern.read pair.1.pattern = .ok pair.2
  | [], _, h => by
    cases h
    exact ⟨rfl, fun pair hpair => absurd hpair List.not_mem_nil⟩
  | step :: steps, _, h => by
    cases hread : Pattern.read step.pattern with
    | error e =>
      rw [readAll_cons_error hread] at h
      cases h
    | ok p =>
      rw [readAll_cons_ok hread] at h
      cases hsteps : readAll steps with
      | error e =>
        rw [hsteps] at h
        cases h
      | ok pairs =>
        rw [hsteps] at h
        cases h
        obtain ⟨hfst, hpairs⟩ := of_readAll_eq_ok hsteps
        refine ⟨congrArg (step :: ·) hfst, fun pair hpair => ?_⟩
        rcases List.mem_cons.1 hpair with rfl | hpair
        · exact hread
        · exact hpairs pair hpair

def delimiterText (delimiter? : Option String) : Option Text :=
  delimiter?.map fun d => (Delimiter.resolve d).toList

section
variable {source : Text} {steps : List Step} {delimiter? : Option Text} {e : GrammarError}

theorem create_eq_error_iff : Walker.create source delimiter? {} Observer.idle () = .error e ↔
    ∃ text ∈ delimiter?, Pattern.read text = .error e := by
  unfold Walker.create
  cases delimiter? with
  | none => simp
  | some text =>
    dsimp only
    cases hread : Pattern.read text <;> simp [Except.map, hread]

theorem run_of_create {w : Walker Unit} (h : Walker.create source delimiter? {} Observer.idle () = .ok w) :
    run source steps delimiter? = (readAll steps).map fun steps => runAll w steps 0 := by rw [run, h]

/-- **What a script is refused for**: the delimiter, or else the first step whose pattern cannot be read. -/
theorem run_eq_error_iff : run source steps delimiter? = .error e ↔
    (∃ text ∈ delimiter?, Pattern.read text = .error e) ∨
    (∀ text ∈ delimiter?, ∃ d, Pattern.read text = .ok d) ∧ readAll steps = .error e := by
  cases hcreate : Walker.create source delimiter? {} Observer.idle () with
  | error e' =>
    obtain ⟨text, htext, hread⟩ := create_eq_error_iff.1 hcreate
    cases htext
    simp [run, hcreate, hread]
  | ok w =>
    have hread : ∀ text ∈ delimiter?, ∃ d, Pattern.read text = .ok d := by
      intro text htext
      cases hd : Pattern.read text with
      | ok d => exact ⟨d, rfl⟩
      | error e' => cases hcreate.symm.trans (create_eq_error_iff.2 ⟨text, htext, hd⟩)
    have hnot : ¬∃ text ∈ delimiter?, Pattern.read text = .error e :=
      fun h => nomatch hcreate.symm.trans (create_eq_error_iff.2 h)
    rw [run_of_create hcreate, or_iff_right hnot, and_iff_right hread]
    cases readAll steps <;> simp [Except.map]

theorem exists_run_eq_error_iff : (∃ e, run source steps delimiter? = .error e) ↔
    (∃ text ∈ delimiter?, ∃ e, Pattern.read text = .error e) ∨
      ∃ step ∈ steps, ∃ e, Pattern.read step.pattern = .error e := by
  rw [← exists_readAll_eq_error_iff]
  simp only [run_eq_error_iff]
  constructor
  · rintro ⟨e, ⟨text, htext, hread⟩ | ⟨-, hsteps⟩⟩
    · exact .inl ⟨text, htext, e, hread⟩
    · exact .inr ⟨e, hsteps⟩
  · rintro (⟨text, htext, e, hread⟩ | ⟨e, hsteps⟩)
    · exact ⟨e, .inl ⟨text, htext, hread⟩⟩
    · by_cases h : ∃ text ∈ delimiter?, ∃ e, Pattern.read text = .error e
      · obtain ⟨text, htext, e', hread⟩ := h
        exact ⟨e', .inl ⟨text, htext, hread⟩⟩
      · refine ⟨e, .inr ⟨fun text htext => ?_, hsteps⟩⟩
        cases hread : Pattern.read text with
        | ok d => exact ⟨d, rfl⟩
        | error e' => exact absurd ⟨text, htext, e', hread⟩ h

end

/-! ## Making the steps -/

/-- **The call that a step stands for.** -/
def Step.call (step : Step) : Walker.Call :=
  match step.kind with
  | .walk => .walkMatch (.text step.pattern)
  | .search => .walkUntil (.text step.pattern)

def Finding.answer : Finding → Walker.Answer
  | walk match? => .found match?
  | search sighting? => .sighted sighting?

theorem Step.perform_call {σ : Type} {step : Step} {p : Pattern} {w : Walker σ}
    (h : Pattern.read step.pattern w.limits = .ok p) :
    w.perform step.call = ((step.run p w).1.answer, (step.run p w).2) := by
  obtain ⟨kind, pattern⟩ := step
  have hresolve : (PatternSource.text pattern).resolve w.limits = .ok p := h
  cases kind with
  | walk =>
    exact Walker.perform_walkMatch hresolve
  | search =>
    exact Walker.perform_walkUntil hresolve

/-- **Records that recount a session**, numbered from an index.  Each is that of the call in its place, made where the
calls before it have led; all but the last found something, and the last stands for the last call, unless it found
nothing. -/
structure Recounts {σ : Type} (w : Walker σ) (index : Nat) (steps : List Step) (records : List Record) : Prop where
  recorded : ∀ i record, records[i]? = some record → ∃ step after, steps[i]? = some step ∧
    (w.performAll (steps.map Step.call))[i]? = some (record.finding.answer, after) ∧
    record.index = index + i ∧ record.pattern = step.pattern ∧ record.cursor = after.cursor
  matched : ∀ i record, records[i]? = some record → i + 1 < records.length → record.finding.isSome = true
  length_le : records.length ≤ steps.length
  ends : records.length = steps.length ∨ ∃ record, records.getLast? = some record ∧ record.finding.isSome = false

section
variable {σ : Type} {w after : Walker σ} {index : Nat} {step : Step} {steps : List Step} {record : Record}
  {records : List Record}

theorem Recounts.nil : Recounts w index [] [] where
  recorded := by simp
  matched := by simp
  length_le := Nat.le_refl 0
  ends := .inl rfl

theorem Recounts.cons (hperform : w.perform step.call = (record.finding.answer, after)) (hindex : record.index = index)
    (hpattern : record.pattern = step.pattern) (hcursor : record.cursor = after.cursor)
    (hfound : record.finding.isSome = true) (hrest : Recounts after (index + 1) steps records) :
    Recounts w index (step :: steps) (record :: records) where
  recorded := by
    have hcalls : w.performAll ((step :: steps).map Step.call) =
        (record.finding.answer, after) :: after.performAll (steps.map Step.call) := by
      rw [List.map_cons, Walker.performAll, hperform]
    intro i record' h
    rw [hcalls]
    cases i with
    | zero =>
      cases h
      exact ⟨step, after, rfl, rfl, hindex, hpattern, hcursor⟩
    | succ i =>
      obtain ⟨step', after', hstep, hcall, hindex', hpattern', hcursor'⟩ := hrest.recorded i record' h
      exact ⟨step', after', hstep, hcall, by omega, hpattern', hcursor'⟩
  matched := by
    intro i record' h hi
    cases i with
    | zero =>
      cases h
      exact hfound
    | succ i => exact hrest.matched i record' h (Nat.lt_of_succ_lt_succ hi)
  length_le := Nat.succ_le_succ hrest.length_le
  ends := by
    rcases hrest.ends with hlength | ⟨last, hlast, hnone⟩
    · exact .inl (congrArg (· + 1) hlength)
    · exact .inr ⟨last, by rw [List.getLast?_cons, hlast, Option.getD_some], hnone⟩

theorem Recounts.stop (hperform : w.perform step.call = (record.finding.answer, after)) (hindex : record.index = index)
    (hpattern : record.pattern = step.pattern) (hcursor : record.cursor = after.cursor)
    (hnone : record.finding.isSome = false) : Recounts w index (step :: steps) [record] where
  recorded := by
    intro i record' h
    obtain ⟨rfl, rfl⟩ : i = 0 ∧ record = record' := by
      cases i with
      | zero => exact ⟨rfl, Option.some.inj h⟩
      | succ i => simp at h
    refine ⟨step, after, rfl, ?_, hindex, hpattern, hcursor⟩
    rw [List.map_cons, Walker.performAll, hperform]
    rfl
  matched := by
    intro i record' h hi
    rw [List.length_singleton] at hi
    omega
  length_le := by simp
  ends := .inr ⟨record, rfl, hnone⟩

/-- **The records of a script recount its session.** -/
theorem runAll_recounts : ∀ (pairs : List (Step × Pattern)) (w : Walker σ) (index : Nat),
    (∀ pair ∈ pairs, Pattern.read pair.1.pattern w.limits = .ok pair.2) →
      Recounts w index (pairs.map Prod.fst) (runAll w pairs index)
  | [], _, _, _ => .nil
  | (step, p) :: pairs, w, index, hread => by
    have hperform := Step.perform_call (hread (step, p) List.mem_cons_self)
    have honward := w.perform_onward step.call
    unfold runAll
    rw [List.map_cons]
    rw [hperform] at honward
    generalize step.run p w = result at hperform honward ⊢
    obtain ⟨finding, after⟩ := result
    cases hfound : finding.isSome with
    | true =>
      have hrest := runAll_recounts pairs after (index + 1) fun pair hpair => by
        rw [honward.limits_eq]
        exact hread pair (List.mem_cons_of_mem _ hpair)
      simp only [hfound, if_true]
      exact .cons hperform rfl rfl rfl hfound hrest
    | false =>
      simp only [hfound, Bool.false_eq_true, if_false]
      exact .stop hperform rfl rfl rfl hfound

/-- Every step was made and found something, if and only if the last record is that of the last step and found
something. -/
theorem Recounts.all_found_iff (h : Recounts w index steps records) :
    (records.getLast?.map (·.finding.isSome)).getD true = true ↔
      records.length = steps.length ∧ ∀ record ∈ records, record.finding.isSome = true := by
  constructor
  · intro hlast
    refine ⟨?_, fun record hrecord => ?_⟩
    · rcases h.ends with hlength | ⟨last, hgetLast, hnone⟩
      · exact hlength
      · rw [hgetLast, Option.map_some, Option.getD_some, hnone] at hlast
        cases hlast
    · obtain ⟨i, hi, rfl⟩ := List.mem_iff_getElem.1 hrecord
      by_cases hbefore : i + 1 < records.length
      · exact h.matched i _ (List.getElem?_eq_getElem hi) hbefore
      · have hgetLast : records.getLast? = some records[i] := by
          rw [List.getLast?_eq_getElem?, show records.length - 1 = i by omega, List.getElem?_eq_getElem hi]
        rw [hgetLast] at hlast
        exact hlast
  · rintro ⟨-, hall⟩
    cases hgetLast : records.getLast? with
    | none => rfl
    | some last => exact hall last (List.mem_of_getLast? hgetLast)

end

theorem exists_recounts {source : Text} {steps : List Step} {delimiter? : Option Text} {records : List Record}
    (h : run source steps delimiter? = .ok records) :
    ∃ w, Walker.create source delimiter? {} Observer.idle () = .ok w ∧ Recounts w 0 steps records := by
  cases hcreate : Walker.create source delimiter? {} Observer.idle () with
  | error e =>
    rw [run, hcreate] at h
    cases h
  | ok w =>
    rw [run_of_create hcreate] at h
    cases hread : readAll steps with
    | error e =>
      rw [hread] at h
      cases h
    | ok pairs =>
      rw [hread] at h
      cases h
      obtain ⟨rfl, hpairs⟩ := of_readAll_eq_ok hread
      obtain ⟨d?, rfl, -⟩ := Walker.exists_eq_of_create (τ := Unit) hcreate
      exact ⟨_, rfl, runAll_recounts pairs _ 0 hpairs⟩

/-! ## The process -/

end Script

namespace CommandLine

open Script

variable {source : Text} {words : List Text} {delimiter? : Option String} {e : GrammarError} {records : List Record}

theorem Outcome.stdout_success (lines : List String) :
    (success lines).stdout.toList = lines.flatMap fun line => line.toList ++ ['\n'] := by
  simp [success, String.toList_join, List.flatMap_def, List.map_map, Function.comp_def]

theorem answerWalk_of_error (color : Bool)
    (h : run source (words.map Step.read) (delimiterText delimiter?) = .error e) :
    answerWalk source words delimiter? color = .grammarError color e := by
  rw [delimiterText] at h
  rw [answerWalk, h]

theorem answerWalk_of_ok (color : Bool)
    (h : run source (words.map Step.read) (delimiterText delimiter?) = .ok records) :
    ((answerWalk source words delimiter? color).code = 0 ↔
      (records.getLast?.map (·.finding.isSome)).getD true = true) ∧
    (answerWalk source words delimiter? color).stdout.toList =
      records.flatMap fun record => record.toJson.compact.toList ++ ['\n'] := by
  have hlines := Outcome.stdout_success (records.map fun record => record.toJson.compact)
  rw [List.flatMap_map] at hlines
  rw [delimiterText] at h
  rw [answerWalk, h]
  dsimp only
  split
  · case isTrue hlast => exact ⟨iff_of_true rfl hlast, hlines⟩
  · case isFalse hlast => exact ⟨iff_of_false (by simp [Outcome.noMatch]) hlast, hlines⟩

end CommandLine

namespace Script

open CommandLine in
/-- **A script does what its calls do, and says so.**  It is refused exactly when its delimiter or the pattern of a step
cannot be read, with the error of the delimiter or else of the first such step.  Otherwise its records recount a session
of a new walker.  The process exits with status zero exactly when its source is loaded and all steps are made and find
something.  It writes a line for each record; for a script that is refused it writes nothing and exits with status
one. -/
theorem run_refines_session (steps : List Step) (delimiter? : Option String) :
    (∀ source e, run source steps (delimiterText delimiter?) = .error e ↔
      (∃ text ∈ delimiterText delimiter?, Pattern.read text = .error e) ∨
      (∀ text ∈ delimiterText delimiter?, ∃ d, Pattern.read text = .ok d) ∧
        ∃ front step back, steps = front ++ step :: back ∧ (∀ s ∈ front, ∃ p, Pattern.read s.pattern = .ok p) ∧
          Pattern.read step.pattern = .error e) ∧
    (∀ source, (∃ e, run source steps (delimiterText delimiter?) = .error e) ↔
      (∃ text ∈ delimiterText delimiter?, ∃ e, Pattern.read text = .error e) ∨
        ∃ step ∈ steps, ∃ e, Pattern.read step.pattern = .error e) ∧
    (∀ source records, run source steps (delimiterText delimiter?) = .ok records →
      ∃ w, Walker.create source (delimiterText delimiter?) {} Observer.idle () = .ok w ∧ Recounts w 0 steps records) ∧
    ∀ (argument : SourceArgument) (words : List Text) (color : Bool) (file : String → Except LoadFailure Text)
      (stdin : Except LoadFailure Text), words.map Step.read = steps →
      let outcome := (Command.walk argument words delimiter? color).plan.outcome file stdin
      (outcome.code = 0 ↔ ∃ source records, argument.load file stdin = .ok source ∧
        run source steps (delimiterText delimiter?) = .ok records ∧ records.length = steps.length ∧
        ∀ record ∈ records, record.finding.isSome = true) ∧
      (∀ source records, argument.load file stdin = .ok source →
        run source steps (delimiterText delimiter?) = .ok records →
        outcome.stdout.toList = records.flatMap (fun record => record.toJson.compact.toList ++ ['\n']) ∧
        ∀ record ∈ records, '\n' ∉ record.toJson.compact.toList) ∧
      ∀ source e, argument.load file stdin = .ok source → run source steps (delimiterText delimiter?) = .error e →
        outcome.code = 1 ∧ outcome.stdout = "" := by
  refine ⟨fun source e => ?_, fun source => exists_run_eq_error_iff, fun source records h => exists_recounts h, ?_⟩
  · rw [run_eq_error_iff, readAll_eq_error_iff]
  · rintro argument words color file stdin rfl
    dsimp only
    rw [Command.plan, outcome_withSource]
    cases hload : argument.load file stdin with
    | error failure => simp [Outcome.inputError]
    | ok source =>
      dsimp only
      cases hrun : run source (words.map Step.read) (delimiterText delimiter?) with
      | error e =>
        rw [answerWalk_of_error color hrun]
        refine ⟨iff_of_false (by simp [Outcome.grammarError]) ?_, ?_, ?_⟩
        · rintro ⟨_, records, ⟨⟩, h, -⟩
          cases hrun.symm.trans h
        · rintro _ records ⟨⟩ h
          cases hrun.symm.trans h
        · exact fun _ _ _ _ => ⟨rfl, rfl⟩
      | ok records =>
        obtain ⟨hcode, hstdout⟩ := answerWalk_of_ok color hrun
        obtain ⟨w, -, hrecounts⟩ := exists_recounts hrun
        refine ⟨?_, ?_, ?_⟩
        · rw [hcode, hrecounts.all_found_iff]
          constructor
          · exact fun h => ⟨source, records, rfl, hrun, h⟩
          · rintro ⟨_, records', ⟨⟩, h, hall⟩
            cases hrun.symm.trans h
            exact hall
        · rintro _ records' ⟨⟩ h
          cases hrun.symm.trans h
          exact ⟨hstdout, fun record _ => Json.newline_notMem_compact record.toJson⟩
        · rintro _ e ⟨⟩ h
          cases hrun.symm.trans h

open CommandLine in
theorem run_refines_session_letters :
    let words := ["a".toList, "until:c".toList, "b".toList]
    let records : List Record :=
      [⟨0, "a".toList, .walk (some ⟨0, "a".toList⟩), 1⟩, ⟨1, "c".toList, .search none, 1⟩]
    let outcome (words : List Text) := (Command.walk (.inline "ab".toList) words none false).plan.outcome
      (fun _ => .error .missing) (.error .missing)
    (∃ w, Walker.create "ab".toList none {} Observer.idle () = .ok w ∧ Recounts w 0 (words.map Step.read) records) ∧
    (outcome words).stdout.toList = records.flatMap (fun record => record.toJson.compact.toList ++ ['\n']) ∧
    (outcome words).code ≠ 0 ∧
    (outcome ["a".toList, "b".toList]).code = 0 ∧
    (outcome ["a".toList, "(".toList, ")".toList]).stdout = "" := by
  intro words records outcome
  have ok_of_toOption {result : Except GrammarError (List Record)} {records : List Record}
      (h : result.toOption = some records) : result = .ok records := by
    cases result with
    | error e => cases h
    | ok found => exact congrArg Except.ok (Option.some.inj h)
  have hrun : run "ab".toList (words.map Step.read) (delimiterText none) = .ok records :=
    ok_of_toOption (by decide +kernel)
  have hfound : run "ab".toList (["a".toList, "b".toList].map Step.read) (delimiterText none) = .ok
      [⟨0, "a".toList, .walk (some ⟨0, "a".toList⟩), 1⟩, ⟨1, "b".toList, .walk (some ⟨1, "b".toList⟩), 2⟩] :=
    ok_of_toOption (by decide +kernel)
  have hrefused : ∃ e, run "ab".toList (["a".toList, "(".toList, ")".toList].map Step.read) (delimiterText none) =
      .error e := ((run_refines_session _ none).2.1 _).2 (.inr ⟨_, .tail _ (.head _), _, rfl⟩)
  have process (words : List Text) := (run_refines_session (words.map Step.read) none).2.2.2
    (.inline "ab".toList) words false (fun _ => .error .missing) (.error .missing) rfl
  obtain ⟨e, he⟩ := hrefused
  refine ⟨(run_refines_session _ none).2.2.1 _ records hrun, ((process words).2.1 _ records rfl hrun).1,
    fun hcode => ?_, (process _).1.2 ⟨_, _, rfl, hfound, rfl, by decide⟩, ((process _).2.2 _ e rfl he).2⟩
  obtain ⟨source, records', hload, hrun', hlength, -⟩ := (process words).1.1 hcode
  cases hload
  cases hrun.symm.trans hrun'
  cases hlength

end Script

end PatternWalk
