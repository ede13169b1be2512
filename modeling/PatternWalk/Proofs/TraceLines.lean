import PatternWalk.Proofs.EventLogs
import PatternWalk.Proofs.Retelling
import PatternWalk.TraceLog
/-!
# TraceLines — a shorter trace is a longer one with something left out

The lines of a trace are those of the recorded events, one for an event at most.  So what a level of detail leaves out
can be said event by event, though it is left out while terms are matched inside one another: the lines of repetitions,
then those of terms that begin and the text behind each term that was satisfied (`TraceStyle.log_levels`).
-/
namespace PatternWalk

namespace Event

def isRepetition : Event → Bool
  | .repetition .. => true
  | _ => false

/-- The event is told in the same words at every level of detail. -/
def isSteady : Event → Bool
  | .attempt .. | .failed .. | .result .. => true
  | .enter .. | .repetition .. | .satisfied .. => false

end Event

namespace TraceStyle

variable (style : TraceStyle)

def log (p : Pattern) (offset : Nat) : List String := (p.evaluateAt style.collect style.source offset []).2

def atLevel (verbosity : Verbosity) : TraceStyle := { style with verbosity }

def record? (event : Event) : Option (Event × String) := (style.line? event).map fun line => (event, line)

def collectEntries : Observer (List (Event × String)) := fun entries event => entries ++ (style.record? event).toList

def entries (p : Pattern) (offset : Nat) : List (Event × String) :=
  (p.evaluateAt style.collectEntries style.source offset []).2

def ending : Event → String
  | .satisfied _ _ _ start stop => " " ++ style.excerpt start stop
  | _ => ""

/-! ## Lines of the recorded events -/

theorem foldl_append_toList {α : Type} (f : Event → Option α) : ∀ (events : List Event) (seen : List α),
    events.foldl (fun seen event => seen ++ (f event).toList) seen = seen ++ events.filterMap f
  | [], seen => by simp
  | event :: events, seen => by
    rw [List.foldl_cons, foldl_append_toList f events, List.append_assoc]
    cases hf : f event with
    | none => rw [List.filterMap_cons_none hf, Option.toList_none, List.nil_append]
    | some a => rw [List.filterMap_cons_some hf, Option.toList_some, List.singleton_append]

theorem entries_eq_filterMap (p : Pattern) (offset : Nat) :
    style.entries p offset = (p.events style.source offset).filterMap style.record? := by
  rw [entries, p.snd_evaluateAt]
  exact foldl_append_toList style.record? _ []

/-- **Behind lines collected before, an evaluation leaves those lines and then its own.** -/
theorem snd_evaluateAt_collect (p : Pattern) (offset : Nat) (lines : List String) :
    (p.evaluateAt style.collect style.source offset lines).2 = lines ++ style.log p offset := by
  have hlines : ∀ seen, (p.evaluateAt style.collect style.source offset seen).2 =
      seen ++ (p.events style.source offset).filterMap style.line? := by
    intro seen
    rw [p.snd_evaluateAt]
    exact foldl_append_toList style.line? _ seen
  rw [log, hlines, hlines, List.nil_append]

theorem log_eq_map_entries (p : Pattern) (offset : Nat) :
    style.log p offset = (style.entries p offset).map (·.2) := by
  have hline : ∀ event, (style.record? event).map (·.2) = style.line? event := by
    intro event
    rw [record?, Option.map_map]
    exact congrFun Option.map_id_fun' _
  rw [entries_eq_filterMap, List.map_filterMap, log, p.snd_evaluateAt]
  simp only [hline]
  exact foldl_append_toList style.line? _ []

/-! ## Event by event -/

theorem exists_line?_veryVerbose (event : Event) : ∃ line, (style.atLevel .veryVerbose).line? event = some line := by
  cases event with
  | result offset stop? => cases stop? <;> exact ⟨_, rfl⟩
  | _ => exact ⟨_, rfl⟩

theorem record?_verbose (event : Event) : (style.atLevel .verbose).record? event =
    ((style.atLevel .veryVerbose).record? event).filter fun entry => !entry.1.isRepetition := by
  cases event with
  | result offset stop? => cases stop? <;> rfl
  | _ => rfl

/-- **A term that was satisfied has its text told behind the shorter line**; a term that begins has no shorter line. -/
theorem record?_brief (event : Event) :
    ((style.atLevel .verbose).record? event).filter (fun entry => !entry.1.isEnter) =
      ((style.atLevel .brief).record? event).map fun entry => (entry.1, entry.2 ++ style.ending entry.1) := by
  -- an event other than the satisfied ones has nothing behind its line
  have hnone : ∀ line : String, line ++ "" = line := fun _ => String.append_empty
  cases event with
  | enter | repetition => rfl
  | satisfied depth term count start stop =>
    have hbehind : ∀ line : String, indented depth (line ++ " " ++ style.excerpt start stop) =
        indented depth line ++ (" " ++ style.excerpt start stop) := by
      intro line
      rw [indented, indented, String.append_assoc, String.append_assoc]
    exact congrArg (fun line => some (_, line)) (hbehind _)
  | attempt | failed => exact congrArg (fun line => some (_, line)) (hnone _).symm
  | result offset stop? =>
    cases stop? with
    | none => exact congrArg (fun line => some (_, line)) (hnone _).symm
    | some stop => exact congrArg (fun line => some (_, line)) (hnone _).symm

theorem record?_steady {event : Event} (h : event.isSteady = true) (v v' : Verbosity) :
    (style.atLevel v).record? event = (style.atLevel v').record? event := by
  cases event with
  | attempt | failed => rfl
  | result offset stop? => cases stop? <;> rfl
  | enter | repetition | satisfied => cases h

/-! ## Level by level -/

theorem events_of_entries (p : Pattern) (offset : Nat) :
    ((style.atLevel .veryVerbose).entries p offset).map (·.1) = p.events style.source offset := by
  have hevent : ∀ event, ((style.atLevel .veryVerbose).record? event).map (·.1) = some event := by
    intro event
    obtain ⟨line, hline⟩ := style.exists_line?_veryVerbose event
    rw [record?, hline, Option.map_some, Option.map_some]
  rw [entries_eq_filterMap, List.map_filterMap]
  simp only [hevent]
  exact List.filterMap_some

theorem entries_verbose (p : Pattern) (offset : Nat) : (style.atLevel .verbose).entries p offset =
    ((style.atLevel .veryVerbose).entries p offset).filter fun entry => !entry.1.isRepetition := by
  rw [entries_eq_filterMap, entries_eq_filterMap, List.filter_filterMap, funext style.record?_verbose]
  rfl

theorem entries_brief (p : Pattern) (offset : Nat) :
    ((style.atLevel .verbose).entries p offset).filter (fun entry => !entry.1.isEnter) =
      ((style.atLevel .brief).entries p offset).map fun entry => (entry.1, entry.2 ++ style.ending entry.1) := by
  rw [entries_eq_filterMap, entries_eq_filterMap, List.filter_filterMap, List.map_filterMap,
    ← funext style.record?_brief]
  rfl

theorem entries_steady (p : Pattern) (offset : Nat) (v v' : Verbosity) :
    ((style.atLevel v).entries p offset).filter (·.1.isSteady) =
      ((style.atLevel v').entries p offset).filter (·.1.isSteady) := by
  have hsteady : ∀ event, ((style.atLevel v).record? event).filter (·.1.isSteady) =
      ((style.atLevel v').record? event).filter (·.1.isSteady) := by
    intro event
    by_cases h : event.isSteady = true
    · rw [style.record?_steady h v v']
    · have hnone : ∀ v, ((style.atLevel v).record? event).filter (·.1.isSteady) = none := by
        intro v
        rw [Option.filter_eq_none_iff]
        intro entry hentry
        obtain ⟨line, -, rfl⟩ := Option.map_eq_some_iff.1 hentry
        exact h
      rw [hnone, hnone]
  rw [entries_eq_filterMap, entries_eq_filterMap, List.filter_filterMap, List.filter_filterMap]
  simp only [hsteady]
  rfl

/-- **A lower level of detail is a part of a higher one.**  For every pattern, source, offset and palette, each line of
a trace tells an event of the evaluation, and at the highest level each event has its line.  One level lower the lines
of repetitions are left out, and nothing else.  At the lowest level the lines of terms that begin are left out too, and
the line of a satisfied term has lost the text behind it: with that text put back they are the lines of the level
above.  Lines of attempts, failed terms and results are the same at all levels, in the same order. -/
theorem log_levels (p : Pattern) (offset : Nat) :
    (∀ v, (style.atLevel v).log p offset = ((style.atLevel v).entries p offset).map (·.2)) ∧
    ((style.atLevel .veryVerbose).entries p offset).map (·.1) = p.events style.source offset ∧
    (style.atLevel .verbose).entries p offset =
      ((style.atLevel .veryVerbose).entries p offset).filter (fun entry => !entry.1.isRepetition) ∧
    ((style.atLevel .verbose).entries p offset).filter (fun entry => !entry.1.isEnter) =
      ((style.atLevel .brief).entries p offset).map (fun entry => (entry.1, entry.2 ++ style.ending entry.1)) ∧
    ∀ v v', ((style.atLevel v).entries p offset).filter (·.1.isSteady) =
      ((style.atLevel v').entries p offset).filter (·.1.isSteady) := by
  refine ⟨fun v => ?_, ?_, ?_, ?_, ?_⟩
  · exact (style.atLevel v).log_eq_map_entries p offset
  · exact style.events_of_entries p offset
  · exact style.entries_verbose p offset
  · exact style.entries_brief p offset
  · exact style.entries_steady p offset

end TraceStyle

end PatternWalk
