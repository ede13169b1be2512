import PatternWalk.Proofs.Careful
/-!
# Extent — how far an evaluation reaches

Every position that an evaluation reports is reached from the place where it begins, by going forward over words of the
text.  So it lies on a boundary, not before the offset and not past the end.  Together with careful evaluation this says
that evaluating is safe: it ends for every pattern, well formed or not, and never leaves the text.
-/
namespace PatternWalk

def Event.positions : Event → List Nat
  | attempt offset => [offset]
  | enter _ _ offset => [offset]
  | repetition _ _ start stop => [start, stop]
  | satisfied _ _ _ start stop => [start, stop]
  | failed _ _ _ offset => [offset]
  | result offset stop? => offset :: stop?.toList

def Observer.record : Observer (List Event) := fun events event => events ++ [event]

theorem Observer.foldl_record : ∀ events seen : List Event, events.foldl Observer.record seen = seen ++ events
  | [], seen => by simp
  | event :: events, seen => by
    rw [List.foldl_cons, foldl_record events, Observer.record, List.append_assoc, List.singleton_append]

def Event.From (start : Place) (event : Event) : Prop :=
  ∀ pos ∈ event.positions, ∃ there, start.Reaches there ∧ there.offset = pos

/-- An observer keeps what holds of its memory, as long as the events come from a place on. -/
def Observer.Keeps {σ : Type} (observe : Observer σ) (start : Place) (holds : σ → Prop) : Prop :=
  ∀ (seen : σ) (event : Event), event.From start → holds seen → holds (observe seen event)

section
variable {σ : Type} {observe : Observer σ} {start here : Place} {holds : σ → Prop} {seen : σ}

theorem Event.From.pair {event : Event} {there : Place} (hpositions : event.positions = [here.offset, there.offset])
    (hhere : start.Reaches here) (hthere : start.Reaches there) : event.From start := by
  intro pos hpos
  rw [hpositions, List.mem_cons, List.mem_singleton] at hpos
  rcases hpos with rfl | rfl
  · exact ⟨here, hhere, rfl⟩
  · exact ⟨there, hthere, rfl⟩

theorem Event.From.single {event : Event} (hpositions : event.positions = [here.offset])
    (hhere : start.Reaches here) : event.From start := by
  intro pos hpos
  rw [hpositions, List.mem_singleton] at hpos
  exact ⟨here, hhere, hpos.symm⟩

/-- **What the loop keeps**: each repetition starts where the one before it ended. -/
theorem repeatGreedily_keeps {run : Place → σ → Option Place × σ} {once : Place → Option Place}
    (honce : ∀ here seen, (run here seen).1 = once here) (hadv : Advances once) (report : Nat → Nat → σ → σ)
    (q : Quantifier) (hrun : ∀ {here seen}, start.Reaches here → holds seen → holds (run here seen).2)
    (hreport : ∀ {here there seen}, start.Reaches here → start.Reaches there → holds seen →
      holds (report here.offset there.offset seen))
    (count : UInt32) (here : Place) (seen : σ) (hhere : start.Reaches here) (hseen : holds seen) :
    start.Reaches (repeatGreedily run report q count here seen).1.2 ∧
      holds (repeatGreedily run report q count here seen).2 := by
  unfold repeatGreedily
  by_cases hallowed : q.allowsAnother count = true
  · rw [if_pos hallowed]
    have hthere := honce here seen
    have hafter : holds (run here seen).2 := hrun hhere hseen
    generalize run here seen = result at hthere hafter ⊢
    obtain ⟨there?, seen'⟩ := result
    cases there? with
    | none => exact ⟨hhere, hafter⟩
    | some there =>
      have hnext : start.Reaches there := hhere.trans (hadv hthere.symm)
      have hreported : holds (report here.offset there.offset seen') := hreport hhere hnext hafter
      by_cases hlt : there.rest.length < here.rest.length
      · simp only [if_pos hlt]
        exact repeatGreedily_keeps honce hadv report q hrun hreport (count + 1) there _ hnext hreported
      · simp only [if_neg hlt]
        exact ⟨hhere, hreported⟩
  · rw [if_neg hallowed]
    exact ⟨hhere, hseen⟩
termination_by here.rest.length

mutual
theorem Node.run_keeps (hkeeps : observe.Keeps start holds) : ∀ (n : Node) (depth : Nat) {here : Place} {seen : σ},
    start.Reaches here → holds seen → holds (n.run observe depth here seen).2
  | .literal _, _, _, _, _, hseen | .charSet _, _, _, _, _, hseen => hseen
  | .group body, depth, _, _, hhere, hseen => Pattern.run_keeps hkeeps body (depth + 1) hhere hseen
theorem Term.run_keeps (hkeeps : observe.Keeps start holds) : ∀ (t : Term) (depth : Nat) {here : Place} {seen : σ},
    start.Reaches here → holds seen → holds (t.run observe depth here seen).2
  | ⟨n, q, span⟩, depth, here, seen, hhere, hseen => by
    have hentered : holds (observe seen (.enter depth ⟨n, q, span⟩ here.offset)) :=
      hkeeps _ _ (.single rfl hhere) hseen
    obtain ⟨hstop, hafter⟩ := repeatGreedily_keeps (n.fst_run observe depth) n.advances
      (fun start stop seen => observe seen (.repetition depth ⟨n, q, span⟩ start stop)) q
      (Node.run_keeps hkeeps n depth)
      (fun hhere hthere hseen => hkeeps _ _ (.pair rfl hhere hthere) hseen) 0 here _ hhere hentered
    unfold Term.run
    generalize repeatGreedily (n.run observe depth) _ q 0 here _ = result at hstop hafter ⊢
    obtain ⟨⟨count, stop⟩, seen'⟩ := result
    by_cases hcount : q.isSatisfiedBy count = true
    · simp only [if_pos hcount]
      exact hkeeps _ _ (.pair rfl hhere hstop) hafter
    · simp only [if_neg hcount]
      exact hkeeps _ _ (.single rfl hstop) hafter
theorem Pattern.run_keeps (hkeeps : observe.Keeps start holds) :
    ∀ (p : Pattern) (depth : Nat) {here : Place} {seen : σ}, start.Reaches here → holds seen →
      holds (Pattern.run observe p depth here seen).2
  | [], _, _, _, _, hseen => hseen
  | t :: p, depth, here, seen, hhere, hseen => by
    have hthere := t.fst_run observe depth here seen
    have hafter : holds (t.run observe depth here seen).2 := Term.run_keeps hkeeps t depth hhere hseen
    unfold Pattern.run
    generalize t.run observe depth here seen = result at hthere hafter ⊢
    obtain ⟨there?, seen'⟩ := result
    cases there? with
    | none => exact hafter
    | some there => exact Pattern.run_keeps hkeeps p depth (hhere.trans (t.advances hthere.symm)) hafter
end

theorem Pattern.evaluate_keeps (hkeeps : observe.Keeps start holds) (p : Pattern) (hseen : holds seen) :
    holds (p.evaluate observe start seen).2 := by
  have hstart : start.Reaches start := .refl start
  have hattempt : holds (observe seen (.attempt start.offset)) := hkeeps _ _ (.single rfl hstart) hseen
  have hafter := p.run_keeps hkeeps 0 hstart hattempt
  have hthere := p.fst_run observe 0 start (observe seen (.attempt start.offset))
  unfold evaluate
  generalize Pattern.run observe p 0 start _ = result at hthere hafter ⊢
  obtain ⟨there?, seen'⟩ := result
  cases there? with
  | none => exact hkeeps _ _ (.single rfl hstart) hafter
  | some there => exact hkeeps _ _ (.pair rfl hstart (p.advances hthere.symm)) hafter

end

/-! ## Evaluating is safe -/

theorem Event.From.bounded {source : Text} {start : Place} (hstart : source.place? start.offset = some start)
    {event : Event} (h : event.From start) :
    ∀ pos ∈ event.positions, source.IsBoundary pos ∧ start.offset ≤ pos ∧ pos ≤ source.size := by
  intro pos hpos
  obtain ⟨there, hreaches, rfl⟩ := h pos hpos
  have hthere : source.IsBoundary there.offset := Text.isBoundary_of_place? (hreaches.place? hstart)
  exact ⟨hthere, hreaches.offset_le, hthere.le⟩

theorem Pattern.record_evaluate_from (p : Pattern) (start : Place) :
    ∀ event ∈ (p.evaluate Observer.record start []).2, event.From start := by
  have hkeeps : Observer.record.Keeps start fun events => ∀ event ∈ events, event.From start := by
    intro events event hevent hevents e (he : e ∈ events ++ [event])
    rcases List.mem_append.1 he with he | he
    · exact hevents e he
    · exact List.mem_singleton.1 he ▸ hevent
  have hnone : ∀ event ∈ ([] : List Event), event.From start := fun event hevent => absurd hevent List.not_mem_nil
  exact p.evaluate_keeps hkeeps hnone

/-- **Evaluating is safe**, for every pattern, well formed or not, on a text whose bytes a word can count, whoever
observes it.  Careful evaluation has the same result: a loop is done after one turn more than the text has bytes, no
position leaves the text, no count is too great for a word, and the text of the match can be cut out.  An offset that
is no boundary does not match.  From a boundary every position that is told, at every depth, is a boundary between the
offset and the end of the text.  A match starts at the offset, ends in the text, and its text is what lies between. -/
theorem Pattern.evaluateAt_safe (p : Pattern) {source : Text} (hsize : source.size < 4294967296) (offset : Nat)
    {σ : Type} (observe : Observer σ) (seen : σ) :
    (∀ turns, source.size < turns →
      p.evaluateCarefully observe source turns offset seen = some (p.evaluateAt observe source offset seen)) ∧
    (¬source.IsBoundary offset → (p.evaluateAt observe source offset seen).1 = none) ∧
    (source.IsBoundary offset → ∀ event ∈ (p.evaluateAt Observer.record source offset []).2,
      ∀ pos ∈ event.positions, source.IsBoundary pos ∧ offset ≤ pos ∧ pos ≤ source.size) ∧
    ∀ m, (p.evaluateAt observe source offset seen).1 = some m →
      m.start = offset ∧ offset ≤ m.stop ∧ m.stop ≤ source.size ∧ source.slice? offset m.stop = some m.text := by
  refine ⟨fun turns hturns => p.evaluateCarefully_eq observe hsize hturns offset seen, fun hnot => ?_,
    fun hboundary => ?_, fun m hm => ?_⟩
  · rw [fst_evaluateAt, Text.place?_eq_none_iff.2 hnot]
    rfl
  · obtain ⟨start, hstart⟩ := Text.isBoundary_iff.1 hboundary
    obtain ⟨rfl, -⟩ := Text.place?_eq_some_iff.1 hstart
    unfold evaluateAt
    rw [hstart]
    exact fun event hevent => (p.record_evaluate_from start event hevent).bounded hstart
  · rw [fst_evaluateAt] at hm
    obtain ⟨here, hhere, hmatch⟩ := Option.bind_eq_some_iff.1 hm
    obtain ⟨there, hthere, rfl⟩ := Option.map_eq_some_iff.1 hmatch
    obtain ⟨rfl, -⟩ := Text.place?_eq_some_iff.1 hhere
    obtain ⟨word, hword⟩ := p.advances hthere
    have hstop : Match.stop ⟨here.offset, here.textTo there⟩ = there.offset := by
      rw [Match.stop, hword.textTo, hword.offset_eq]
    have hboundary : source.IsBoundary there.offset := Text.isBoundary_of_place? (hword.place? hhere)
    rw [hstop, hword.textTo]
    exact ⟨rfl, hword.offset_le, hboundary.le, Text.slice?_of_passes hhere hword⟩

/-- Behind the two bytes of `é` the pattern `(a*)+` takes both letters of `éaa`, and inside `é` it does not match. -/
theorem Pattern.evaluateAt_safe_nested : ∃ p : Pattern, p = [⟨.group [⟨.literal ['a'], .zeroOrMore, ⟨1, 3⟩⟩],
      .oneOrMore, ⟨0, 5⟩⟩] ∧ Text.size ['é', 'a', 'a'] < 4294967296 ∧
    p.evaluateCarefully Observer.idle ['é', 'a', 'a'] 5 2 () = some (some ⟨2, ['a', 'a']⟩, ()) ∧
    (p.evaluateAt Observer.idle ['é', 'a', 'a'] 1 ()).1 = none ∧
    Text.slice? ['é', 'a', 'a'] 2 4 = some ['a', 'a'] := by
  have hsize : Text.size ['é', 'a', 'a'] < 4294967296 := by decide
  have hnone : ¬Text.IsBoundary ['é', 'a', 'a'] 1 := Text.place?_eq_none_iff.1 (by decide)
  refine ⟨_, rfl, hsize, ?_, ?_, ?_⟩
  · rw [(Pattern.evaluateAt_safe _ hsize 2 Observer.idle ()).1 5 (by decide)]
    decide +kernel
  · exact (Pattern.evaluateAt_safe _ hsize 1 Observer.idle ()).2.1 hnone
  · have hmatch : (Pattern.evaluateAt Observer.idle [⟨.group [⟨.literal ['a'], .zeroOrMore, ⟨1, 3⟩⟩], .oneOrMore,
        ⟨0, 5⟩⟩] ['é', 'a', 'a'] 2 ()).1 = some ⟨2, ['a', 'a']⟩ := by decide +kernel
    exact ((Pattern.evaluateAt_safe _ hsize 2 Observer.idle ()).2.2.2 _ hmatch).2.2.2

end PatternWalk
