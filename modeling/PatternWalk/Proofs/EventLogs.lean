import PatternWalk.Proofs.Chains
/-!
# EventLogs — what an evaluation may report

The events of an evaluation are a log with a grammar of its own:

    block  := term*            the terms in order, up to the first that fails
    term   := enter turn* last (satisfied | failed)
    turn   := inner repetition
    last   := (empty) | inner | inner repetition
    inner  := block            of the body of a group, one level deeper
            | (empty)          of a literal or a set

`Pattern.Logs` says this of the blocks of a pattern, with the positions and counts that the events tell.  Every block is
well nested (`Pattern.Logs.wellNested`): a term is resolved once for each time it is entered, at the same depth, after
all that was entered inside it.
-/
namespace PatternWalk

section
variable (log : Place → List Event → Option Place → Prop) (report : Nat → Nat → Event)

/-- **The turns of a term that get on**: each is the log of one repetition, and then the repetition is told.  `stops`
are the places where they end. -/
inductive Turns : Place → (stops : List Place) → List Event → Place → Prop
  | none {here} : Turns here [] [] here
  | more {here next there stops inner events} (hinner : log here inner (some next))
      (forward : here.offset < next.offset) (hrest : Turns next stops events there) :
    Turns here (next :: stops) (inner ++ report here.offset next.offset :: events) there

/-- **How the turns of a term end**, at a place behind `made` of them, and the count that the term then has. -/
inductive LastTurn (q : Quantifier) (made : Nat) (there : Place) : List Event → (count : Nat) → Prop
  /-- No more repetitions are allowed. -/
  | full (h : q.Reached made) : LastTurn q made there [] made
  /-- A further repetition fails, and is not told; but what it was made of may be. -/
  | fails {inner} (h : q.Below made) (hinner : log there inner none) : LastTurn q made there inner made
  /-- A further repetition is empty; the count is then the least number at least. -/
  | stays {inner} (h : q.Below made) (hinner : log there inner (some there)) :
    LastTurn q made there (inner ++ [report there.offset there.offset]) (max (made + 1) q.least.toNat)

end

section
variable (told : Nat → Nat)

/-- **The log of a term**, given those of its node, where `told` is what is told of the number of repetitions. -/
inductive TermLog (log : Place → List Event → Option Place → Prop) (depth : Nat) (t : Term) (here : Place) :
    List Event → Option Place → Prop
  | satisfied {stops turns last there made} {count : UInt32}
      (hturns : Turns log (.repetition depth t) here stops turns there)
      (hlast : LastTurn log (.repetition depth t) t.quantifier stops.length there last made)
      (hcount : count.toNat = told made) (henough : t.quantifier.least ≤ count) :
    TermLog log depth t here
      (.enter depth t here.offset :: (turns ++ last) ++ [.satisfied depth t count here.offset there.offset])
      (some there)
  | failed {stops turns last there made} {count : UInt32}
      (hturns : Turns log (.repetition depth t) here stops turns there)
      (hlast : LastTurn log (.repetition depth t) t.quantifier stops.length there last made)
      (hcount : count.toNat = told made) (hshort : count < t.quantifier.least) :
    TermLog log depth t here
      (.enter depth t here.offset :: (turns ++ last) ++ [.failed depth t count there.offset]) none

mutual
def Node.Logs : Node → (depth : Nat) → Place → List Event → Option Place → Prop
  | .literal text, _, here, events, there? => events = [] ∧ there? = here.pastWord? text
  | .charSet set, _, here, events, there? => events = [] ∧ there? = here.pastChar? set.accepts
  | .group body, depth, here, events, there? => Pattern.Logs body (depth + 1) here events there?
def Term.Logs : Term → (depth : Nat) → Place → List Event → Option Place → Prop
  | ⟨node, q, span⟩, depth, here, events, there? =>
    TermLog told (node.Logs depth) depth ⟨node, q, span⟩ here events there?
/-- **The block of a pattern** at a depth, from a place, with the place it leads to unless a term fails.  Each term is
entered where the one before it ended, and a term that fails is the last. -/
def Pattern.Logs : Pattern → (depth : Nat) → Place → List Event → Option Place → Prop
  | [], _, here, events, there? => events = [] ∧ there? = some here
  | t :: p, depth, here, events, there? =>
    (∃ first next rest, t.Logs depth here first (some next) ∧ Pattern.Logs p depth next rest there? ∧
      events = first ++ rest) ∨
    t.Logs depth here events none ∧ there? = none
end

end

/-! ## Blocks are well nested -/

namespace Event

/-- **The open terms after an event**, the innermost first, each with the position it was entered at.  Entering opens a
term inside those that are open.  Repetitions and resolutions are those of the innermost one, and a resolution closes
it.  Nothing for an event that does not fit. -/
def nest? (opened : List (Term × Nat)) : Event → Option (List (Term × Nat))
  | .enter depth t start => if depth = opened.length then some ((t, start) :: opened) else none
  | .repetition depth t _ _ =>
    match opened with
    | (u, _) :: outer => if u = t ∧ depth = outer.length then some opened else none
    | [] => none
  | .satisfied depth t _ start _ =>
    match opened with
    | (u, entered) :: outer => if u = t ∧ entered = start ∧ depth = outer.length then some outer else none
    | [] => none
  | .failed depth t _ _ =>
    match opened with
    | (u, _) :: outer => if u = t ∧ depth = outer.length then some outer else none
    | [] => none
  | .attempt _ | .result _ _ => none

/-- **Events that are well nested** at a depth: they fit whatever terms are open around them, and leave these open. -/
def WellNested (depth : Nat) (events : List Event) : Prop :=
  ∀ opened : List (Term × Nat), opened.length = depth → events.foldlM nest? opened = some opened

variable {depth : Nat} {events more : List Event}

theorem wellNested_nil : WellNested depth [] := fun _ _ => rfl

theorem WellNested.append (h : WellNested depth events) (hmore : WellNested depth more) :
    WellNested depth (events ++ more) := by
  intro opened hdepth
  rw [List.foldlM_append, h opened hdepth]
  exact hmore opened hdepth

def isEnter : Event → Bool
  | .enter .. => true
  | _ => false

def isResolution : Event → Bool
  | .satisfied .. | .failed .. => true
  | _ => false

theorem length_of_nest? {opened opened' : List (Term × Nat)} {event : Event} (h : nest? opened event = some opened') :
    opened.length + [event].countP isEnter = opened'.length + [event].countP isResolution := by
  unfold nest? at h
  split at h
  case h_1 =>
    split at h
    · cases h
      simp [isEnter, isResolution]
    · cases h
  case h_5 | h_6 => cases h
  all_goals
    split at h
    · split at h
      · cases h
        simp [isEnter, isResolution]
      · cases h
    · cases h

/-- **Events that fit open and close as many terms as they say**: what is open after them is what was open before, with
the terms they enter and without those they resolve. -/
theorem length_of_foldlM_nest? : ∀ {events : List Event} {opened opened' : List (Term × Nat)},
    events.foldlM nest? opened = some opened' →
      opened.length + events.countP isEnter = opened'.length + events.countP isResolution
  | [], _, _, h => by
    cases h
    rfl
  | event :: events, opened, opened', h => by
    obtain ⟨between, hevent, hrest⟩ := Option.bind_eq_some_iff.1 h
    have hfirst := length_of_nest? hevent
    have hlast := length_of_foldlM_nest? hrest
    rw [List.countP_cons, List.countP_cons]
    simp only [List.countP_cons, List.countP_nil, Nat.zero_add] at hfirst
    omega

theorem WellNested.balanced (h : WellNested 0 events) : events.countP isEnter = events.countP isResolution := by
  simpa using length_of_foldlM_nest? (h [] rfl)

end Event

section
variable {told : Nat → Nat} {log : Place → List Event → Option Place → Prop} {depth : Nat} {t : Term}
  {here there : Place} {events : List Event} {start : Nat} {outer : List (Term × Nat)}

/-- Events in a term, where it is open: the logs of its node are well nested one level deeper, its repetitions fit. -/
theorem foldlM_nest?_repetition {inner more : List Event} {stop stop' : Nat}
    (hinner : Event.WellNested (depth + 1) inner) (hdepth : outer.length = depth) :
    (inner ++ .repetition depth t stop stop' :: more).foldlM Event.nest? ((t, start) :: outer) =
      more.foldlM Event.nest? ((t, start) :: outer) := by
  have hopened : ((t, start) :: outer).length = depth + 1 := by rw [List.length_cons, hdepth]
  rw [List.foldlM_append, hinner _ hopened]
  change (Event.nest? ((t, start) :: outer) (.repetition depth t stop stop')).bind _ = _
  rw [Event.nest?, if_pos ⟨rfl, hdepth.symm⟩]
  rfl

theorem Turns.foldlM_nest? {stops : List Place} (h : Turns log (.repetition depth t) here stops events there)
    (hlog : ∀ {here inner there?}, log here inner there? → Event.WellNested (depth + 1) inner)
    (hdepth : outer.length = depth) :
    events.foldlM Event.nest? ((t, start) :: outer) = some ((t, start) :: outer) := by
  induction h with
  | none => rfl
  | more hinner _ _ ih => rw [foldlM_nest?_repetition (hlog hinner) hdepth, ih]

theorem LastTurn.foldlM_nest? {q : Quantifier} {made count : Nat}
    (h : LastTurn log (.repetition depth t) q made there events count)
    (hlog : ∀ {here inner there?}, log here inner there? → Event.WellNested (depth + 1) inner)
    (hdepth : outer.length = depth) :
    events.foldlM Event.nest? ((t, start) :: outer) = some ((t, start) :: outer) := by
  cases h with
  | full => rfl
  | fails _ hinner => exact hlog hinner _ (by rw [List.length_cons, hdepth])
  | stays _ hinner =>
    rw [foldlM_nest?_repetition (hlog hinner) hdepth]
    rfl

theorem TermLog.wellNested {there? : Option Place} (h : TermLog told log depth t here events there?)
    (hlog : ∀ {here inner there?}, log here inner there? → Event.WellNested (depth + 1) inner) :
    Event.WellNested depth events := by
  intro outer hdepth
  have henter : Event.nest? outer (.enter depth t here.offset) = some ((t, here.offset) :: outer) :=
    if_pos hdepth.symm
  cases h with
  | @satisfied stops turns last there _ count hturns hlast =>
    have hresolve : Event.nest? ((t, here.offset) :: outer) (.satisfied depth t count here.offset there.offset) =
      some outer := if_pos ⟨rfl, rfl, hdepth.symm⟩
    simp [henter, hturns.foldlM_nest? hlog hdepth, hlast.foldlM_nest? hlog hdepth, hresolve]
  | @failed stops turns last there _ count hturns hlast =>
    have hresolve : Event.nest? ((t, here.offset) :: outer) (.failed depth t count there.offset) = some outer :=
      if_pos ⟨rfl, hdepth.symm⟩
    simp [henter, hturns.foldlM_nest? hlog hdepth, hlast.foldlM_nest? hlog hdepth, hresolve]

end

mutual
theorem Node.Logs.wellNested {told : Nat → Nat} : ∀ {n : Node} {depth : Nat} {here : Place} {events : List Event}
    {there? : Option Place}, n.Logs told depth here events there? → Event.WellNested (depth + 1) events
  | .literal _, _, _, _, _, h | .charSet _, _, _, _, _, h => h.1 ▸ Event.wellNested_nil
  | .group _, _, _, _, _, h => Pattern.Logs.wellNested h
theorem Term.Logs.wellNested {told : Nat → Nat} : ∀ {t : Term} {depth : Nat} {here : Place} {events : List Event}
    {there? : Option Place}, t.Logs told depth here events there? → Event.WellNested depth events
  | ⟨_, _, _⟩, _, _, _, _, h => TermLog.wellNested h Node.Logs.wellNested
theorem Pattern.Logs.wellNested {told : Nat → Nat} : ∀ {p : Pattern} {depth : Nat} {here : Place} {events : List Event}
    {there? : Option Place}, p.Logs told depth here events there? → Event.WellNested depth events
  | [], _, _, _, _, h => h.1 ▸ Event.wellNested_nil
  | _ :: _, _, _, _, _, .inl ⟨_, _, _, hterm, hrest, heq⟩ =>
    heq ▸ (Term.Logs.wellNested hterm).append (Pattern.Logs.wellNested hrest)
  | _ :: _, _, _, _, _, .inr ⟨hterm, _⟩ => Term.Logs.wellNested hterm
end

/-! ## The repetitions of a term -/

namespace Event

def isRepetitionAt (depth : Nat) : Event → Bool
  | .repetition depth' _ _ _ => depth' = depth
  | _ => false

end Event

section
variable {told : Nat → Nat} {log : Place → List Event → Option Place → Prop} {depth k : Nat} {t : Term}
  {here there : Place} {stops : List Place} {events : List Event}

theorem Turns.countP_repetition (h : Turns log (.repetition depth t) here stops events there)
    (hlog : ∀ {here inner there?}, log here inner there? → inner.countP (Event.isRepetitionAt k) = 0) :
    events.countP (Event.isRepetitionAt k) = if depth = k then stops.length else 0 := by
  induction h with
  | none => simp
  | more hinner _ _ ih =>
    rw [List.countP_append, hlog hinner, List.countP_cons, ih]
    by_cases heq : depth = k <;> simp [Event.isRepetitionAt, heq]

theorem LastTurn.countP_repetition {q : Quantifier} {turns made : Nat}
    (h : LastTurn log (.repetition depth t) q turns there events made)
    (hlog : ∀ {here inner there?}, log here inner there? → inner.countP (Event.isRepetitionAt k) = 0) :
    events.countP (Event.isRepetitionAt k) = 0 ∧ made = turns ∨
      events.countP (Event.isRepetitionAt k) = (if depth = k then 1 else 0) ∧ made = max (turns + 1) q.least.toNat := by
  cases h with
  | full => exact .inl ⟨rfl, rfl⟩
  | fails _ hinner => exact .inl ⟨hlog hinner, rfl⟩
  | stays _ hinner =>
    rw [List.countP_append, hlog hinner]
    exact .inr ⟨by by_cases heq : depth = k <;> simp [Event.isRepetitionAt, heq], rfl⟩

/-- **What is told of a satisfied term** is what is told of the number of its repetitions, or of the least number if
that is greater and the last repetition is empty. -/
theorem TermLog.exists_made {count : UInt32} {start stop : Nat} {there? : Option Place}
    (h : TermLog told log depth t here (events ++ [.satisfied depth t count start stop]) there?)
    (hlog : ∀ {here inner there?}, log here inner there? → inner.countP (Event.isRepetitionAt depth) = 0) :
    ∃ made, count.toNat = told made ∧ (made = events.countP (Event.isRepetitionAt depth) ∨
      made = max (events.countP (Event.isRepetitionAt depth)) t.quantifier.least.toNat) := by
  generalize hall : events ++ [.satisfied depth t count start stop] = all at h
  cases h with
  | @satisfied stops turns last there made _ hturns hlast hcount =>
    obtain ⟨rfl, hlasts⟩ := List.append_inj' hall rfl
    have hcounts : (Event.enter depth t here.offset :: (turns ++ last)).countP (Event.isRepetitionAt depth) =
        stops.length + last.countP (Event.isRepetitionAt depth) := by
      rw [List.countP_cons_of_neg (by simp [Event.isRepetitionAt]), List.countP_append, hturns.countP_repetition hlog,
        if_pos rfl]
    obtain ⟨-, -, rfl, -⟩ : depth = depth ∧ t = t ∧ count = _ ∧ _ := by simpa using hlasts
    refine ⟨made, hcount, ?_⟩
    rw [hcounts]
    rcases hlast.countP_repetition hlog with ⟨hnone, hmade⟩ | ⟨hone, hmade⟩
    · exact .inl (by omega)
    · rw [if_pos rfl] at hone
      exact .inr (by omega)
  | failed =>
    obtain ⟨-, hlasts⟩ := List.append_inj' hall rfl
    cases hlasts

theorem TermLog.countP_repetition {there? : Option Place} (h : TermLog told log depth t here events there?)
    (hlog : ∀ {here inner there?}, log here inner there? → inner.countP (Event.isRepetitionAt k) = 0) (hk : k < depth) :
    events.countP (Event.isRepetitionAt k) = 0 := by
  have hne : ¬depth = k := by omega
  cases h with
  | satisfied hturns hlast | failed hturns hlast =>
    have hturns := hturns.countP_repetition hlog
    have hlast := hlast.countP_repetition hlog
    rw [if_neg hne] at hturns hlast
    simp only [List.countP_append, List.countP_cons, List.countP_nil, Event.isRepetitionAt, hturns]
    simpa using hlast.elim And.left And.left

end

mutual
theorem Node.Logs.countP_repetition {told : Nat → Nat} {k : Nat} : ∀ {n : Node} {depth : Nat} {here : Place}
    {events : List Event} {there? : Option Place}, k ≤ depth → n.Logs told depth here events there? →
      events.countP (Event.isRepetitionAt k) = 0
  | .literal _, _, _, _, _, _, h | .charSet _, _, _, _, _, _, h => by
    rw [h.1]
    rfl
  | .group _, _, _, _, _, hk, h => Pattern.Logs.countP_repetition (Nat.lt_succ_of_le hk) h
theorem Term.Logs.countP_repetition {told : Nat → Nat} {k : Nat} : ∀ {t : Term} {depth : Nat} {here : Place}
    {events : List Event} {there? : Option Place}, k < depth → t.Logs told depth here events there? →
      events.countP (Event.isRepetitionAt k) = 0
  | ⟨_, _, _⟩, _, _, _, _, hk, h =>
    TermLog.countP_repetition h (Node.Logs.countP_repetition (Nat.le_of_lt hk)) hk
theorem Pattern.Logs.countP_repetition {told : Nat → Nat} {k : Nat} : ∀ {p : Pattern} {depth : Nat} {here : Place}
    {events : List Event} {there? : Option Place}, k < depth → p.Logs told depth here events there? →
      events.countP (Event.isRepetitionAt k) = 0
  | [], _, _, _, _, _, h => by
    rw [h.1]
    rfl
  | _ :: _, _, _, _, _, hk, .inl ⟨_, _, _, hterm, hrest, heq⟩ => by
    rw [heq, List.countP_append, Term.Logs.countP_repetition hk hterm, Pattern.Logs.countP_repetition hk hrest]
  | _ :: _, _, _, _, _, hk, .inr ⟨hterm, _⟩ => Term.Logs.countP_repetition hk hterm
end

theorem Term.Logs.exists_made {told : Nat → Nat} : ∀ {t : Term} {depth start stop : Nat} {here : Place}
    {events : List Event} {count : UInt32} {there? : Option Place},
    t.Logs told depth here (events ++ [.satisfied depth t count start stop]) there? →
      ∃ made, count.toNat = told made ∧ (made = events.countP (Event.isRepetitionAt depth) ∨
        made = max (events.countP (Event.isRepetitionAt depth)) t.quantifier.least.toNat)
  | ⟨_, _, _⟩, _, _, _, _, _, _, _, h => TermLog.exists_made h (Node.Logs.countP_repetition (Nat.le_refl _))

end PatternWalk
