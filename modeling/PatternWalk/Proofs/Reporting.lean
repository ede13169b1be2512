import PatternWalk.Proofs.Counting
import PatternWalk.Proofs.EventLogs
/-!
# Reporting — an evaluation reports a block, whoever observes it

What an evaluation reports does not depend on the observer: there is one list of events, and what an observer holds at
the end is what it makes of them, one after the other.  Between the attempt and the result that list is a block of the
pattern (`Pattern.evaluateAt_log`).  The greedy loop is followed on its way: as long as it gets on it makes turns, and
it has one end.
-/
namespace PatternWalk

/-- **Something reports a log** at a place: it ends where it ends unobserved, and every observer is told the events of
the log, in order, and nothing else. -/
def Reports (log : Place → List Event → Option Place → Prop)
    (run : (σ : Type) → Observer σ → Place → σ → Option Place × σ) (past? : Place → Option Place)
    (here : Place) : Prop :=
  ∃ events, log here events (past? here) ∧
    ∀ {σ : Type} (observe : Observer σ) (seen : σ), run σ observe here seen = (past? here, events.foldl observe seen)

section
variable {log : Place → List Event → Option Place → Prop}
  {run : (σ : Type) → Observer σ → Place → σ → Option Place × σ} {once : Place → Option Place} {room : Nat}

/-- **What the loop reports** from a place on which `count` repetitions have been made: turns, and how they end.  There
are no more of them than fit the room, an empty one at the end apart, unless more are asked for. -/
theorem exists_turns (hadv : Advances once) (report : Nat → Nat → Event) (q : Quantifier) (hword : room ≤ 4294967296)
    (hrun : ∀ here : Place, here.rest.length < room → Reports log run once here) (count : UInt32) (here : Place)
    (hroom : count.toNat + here.rest.length < room) (hbefore : ∀ k < count.toNat, q.Below k) :
    ∃ stops turns last made,
      Turns log report here stops turns (repeatQuietly once q count here).2 ∧
      LastTurn log report q (count.toNat + stops.length) (repeatQuietly once q count here).2 last made ∧
      (repeatQuietly once q count here).1.toNat = min made 4294967295 ∧ made ≤ max room 4294967295 ∧
      ∀ {σ : Type} (observe : Observer σ) (seen : σ),
        repeatGreedily (run σ observe) (fun start stop seen => observe seen (report start stop)) q count here seen =
          (repeatQuietly once q count here, (turns ++ last).foldl observe seen) := by
  have hlt := count.toNat_lt
  have hcount : count.toNat = min count.toNat 4294967295 := by omega
  have hmost : count.toNat ≤ max room 4294967295 := by omega
  by_cases hallowed : q.allowsAnother count = true
  · have hbelow : q.Below count.toNat := Quantifier.below_iff_allowsAnother.2 hallowed
    obtain ⟨inner, hinner, hevents⟩ := hrun here (by omega)
    cases honce : once here with
    | none =>
      have hquiet : repeatQuietly once q count here = (count, here) := by
        unfold repeatQuietly
        rw [if_pos hallowed, honce]
      rw [honce] at hinner hevents
      rw [hquiet]
      refine ⟨[], [], inner, _, .none, .fails hbelow hinner, hcount, hmost, fun observe seen => ?_⟩
      unfold repeatGreedily
      rw [if_pos hallowed, hevents]
      rfl
    | some next =>
      obtain ⟨word, hpasses⟩ := hadv honce
      rw [honce] at hinner hevents
      by_cases hlt : next.rest.length < here.rest.length
      · have hne : count ≠ 4294967295 := fun he => by
          have hgreatest : count.toNat = 4294967295 := congrArg UInt32.toNat he
          omega
        have hsucc : (count + 1).toNat = count.toNat + 1 := toNat_add_one hne
        have hbefore' : ∀ k < (count + 1).toNat, q.Below k := by
          intro k hk
          rcases Nat.lt_succ_iff_lt_or_eq.1 (hsucc ▸ hk) with hk | rfl
          · exact hbefore k hk
          · exact hbelow
        obtain ⟨stops, turns, last, made, hturns, hlast, hmade, hmost, hrest⟩ :=
          exists_turns hadv report q hword hrun (count + 1) next (by omega) hbefore'
        have hquiet : repeatQuietly once q count here = repeatQuietly once q (count + 1) next := by
          rw [repeatQuietly, if_pos hallowed, honce]
          exact if_pos hlt
        have hlength : count.toNat + (next :: stops).length = (count + 1).toNat + stops.length := by
          rw [hsucc, List.length_cons]
          omega
        rw [hquiet]
        refine ⟨next :: stops, inner ++ report here.offset next.offset :: turns, last, made,
          .more hinner (hpasses.offset_lt hlt) hturns, hlength ▸ hlast, hmade, hmost, fun observe seen => ?_⟩
        rw [repeatGreedily, if_pos hallowed, hevents]
        dsimp only
        rw [if_pos hlt, hrest]
        simp
      · -- the repetition is empty, and the last
        obtain ⟨-, rfl⟩ := hpasses.eq_of_not_lt hlt
        have hquiet : repeatQuietly once q count next = (max (Quantifier.countOn count) q.least, next) := by
          unfold repeatQuietly
          rw [if_pos hallowed, honce]
          exact if_neg hlt
        have hleast := q.least.toNat_lt
        rw [hquiet]
        refine ⟨[], [], _, _, .none, .stays hbelow hinner, Quantifier.toNat_countOn_max, by simp; omega,
          fun observe seen => ?_⟩
        rw [repeatGreedily, if_pos hallowed, hevents]
        dsimp only
        rw [if_neg hlt]
        simp
  · have hquiet : repeatQuietly once q count here = (count, here) := by
      unfold repeatQuietly
      exact if_neg hallowed
    have hreached : q.Reached count.toNat := Quantifier.reached_of_not_allowsAnother (by simpa using hallowed) hbefore
    rw [hquiet]
    refine ⟨[], [], [], _, .none, .full hreached, hcount, hmost, fun observe seen => ?_⟩
    unfold repeatGreedily
    exact if_neg hallowed
termination_by here.rest.length

end

section
variable {told : Nat → Nat} {room : Nat}

mutual
theorem Node.reports (hword : room ≤ 4294967296)
    (htold : ∀ made ≤ max room 4294967295, told made = min made 4294967295) :
    ∀ (n : Node) (depth : Nat) (here : Place), here.rest.length < room →
      Reports (n.Logs told depth) (fun _ observe => n.run observe depth) n.past? here
  | .literal _, _, _, _ | .charSet _, _, _, _ => ⟨[], ⟨rfl, rfl⟩, fun _ _ => rfl⟩
  | .group body, depth, here, hroom => Pattern.reports hword htold body (depth + 1) here hroom
theorem Term.reports (hword : room ≤ 4294967296)
    (htold : ∀ made ≤ max room 4294967295, told made = min made 4294967295) :
    ∀ (t : Term) (depth : Nat) (here : Place), here.rest.length < room →
      Reports (t.Logs told depth) (fun _ observe => t.run observe depth) t.past? here
  | ⟨n, q, span⟩, depth, here, hroom => by
    obtain ⟨stops, turns, last, made, hturns, hlast, hcount, hmost, hloop⟩ :=
      exists_turns n.advances (.repetition depth ⟨n, q, span⟩) q hword (Node.reports hword htold n depth) 0 here
        (by simpa using hroom) (fun k hk => absurd hk (Nat.not_lt_zero k))
    rw [UInt32.toNat_zero, Nat.zero_add] at hlast
    rw [← htold made hmost] at hcount
    by_cases henough : q.isSatisfiedBy (repeatQuietly n.past? q 0 here).1 = true
    · have hpast : Term.past? ⟨n, q, span⟩ here = some (repeatQuietly n.past? q 0 here).2 := if_pos henough
      have hleast := UInt32.le_iff_toNat_le.2 (Quantifier.isSatisfiedBy_iff.1 henough)
      rw [Reports, hpast]
      refine ⟨_, .satisfied hturns hlast hcount hleast, fun observe seen => ?_⟩
      simp [Term.run, hloop, henough]
    · have hpast : Term.past? ⟨n, q, span⟩ here = none := if_neg henough
      have hshort := UInt32.lt_iff_toNat_lt.2 (Nat.not_le.1 (mt Quantifier.isSatisfiedBy_iff.2 henough))
      rw [Reports, hpast]
      refine ⟨_, .failed hturns hlast hcount hshort, fun observe seen => ?_⟩
      simp [Term.run, hloop, henough]
theorem Pattern.reports (hword : room ≤ 4294967296)
    (htold : ∀ made ≤ max room 4294967295, told made = min made 4294967295) :
    ∀ (p : Pattern) (depth : Nat) (here : Place), here.rest.length < room →
      Reports (p.Logs told depth) (fun _ observe => Pattern.run observe p depth) (Pattern.past? p) here
  | [], _, _, _ => ⟨[], ⟨rfl, rfl⟩, fun _ _ => rfl⟩
  | t :: p, depth, here, hroom => by
    obtain ⟨first, hfirst, hterm⟩ := Term.reports hword htold t depth here hroom
    cases hnext : t.past? here with
    | none =>
      have hpast : Pattern.past? (t :: p) here = none := by rw [Pattern.past?, hnext]; rfl
      rw [hnext] at hfirst hterm
      dsimp only at hterm
      rw [Reports, hpast]
      refine ⟨first, .inr ⟨hfirst, rfl⟩, fun observe seen => ?_⟩
      rw [Pattern.run, hterm]
    | some next =>
      have hpast : Pattern.past? (t :: p) here = Pattern.past? p next := by rw [Pattern.past?, hnext]; rfl
      obtain ⟨word, hpasses⟩ := t.advances hnext
      have hlength := hpasses.length_eq
      obtain ⟨rest, hrest, hpattern⟩ := Pattern.reports hword htold p depth next (by omega)
      rw [hnext] at hfirst hterm
      dsimp only at hterm
      rw [Reports, hpast]
      refine ⟨first ++ rest, .inl ⟨first, next, rest, hfirst, hrest, rfl⟩, fun observe seen => ?_⟩
      rw [Pattern.run, hterm, List.foldl_append]
      exact hpattern observe _
end

end

/-- What a word tells of a number: it stays at the greatest one that it holds. -/
def toldInWord (n : Nat) : Nat := min n 4294967295

/-- **The trace of an evaluation is well nested and faithful**, on a text whose bytes a word can count.  There is one
list of events that every observer is told: the attempt, a block, and the result, with the end of the match that is
returned.  At an offset that is no boundary the block is empty and there is no match.  At a boundary it is the block of
the pattern at depth zero from there on, and ends where the match does.  The number of repetitions is told of a term as
far as a word holds it; on a text with fewer bytes than the greatest word it always does.  The block is well nested, so
that terms are resolved as often as they are entered. -/
theorem Pattern.evaluateAt_log (p : Pattern) {source : Text} (hsize : source.size < 4294967296) (offset : Nat) :
    ∃ block stop?,
      (∀ {σ : Type} (observe : Observer σ) (seen : σ),
        (p.evaluateAt observe source offset seen).1.map Match.stop = stop? ∧
        (p.evaluateAt observe source offset seen).2 =
          (Event.attempt offset :: block ++ [Event.result offset stop?]).foldl observe seen) ∧
      (¬source.IsBoundary offset → block = [] ∧ stop? = none) ∧
      (source.IsBoundary offset → ∃ here there?, source.place? offset = some here ∧
        p.Logs toldInWord 0 here block there? ∧ (source.size < 4294967295 → p.Logs id 0 here block there?) ∧
        there?.map (·.offset) = stop?) ∧
      block.foldlM Event.nest? [] = some [] ∧ block.countP Event.isEnter = block.countP Event.isResolution := by
  cases hhere : source.place? offset with
  | none =>
    refine ⟨[], none, fun observe seen => ?_, fun _ => ⟨rfl, rfl⟩,
      fun h => absurd h (Text.place?_eq_none_iff.1 hhere), rfl, rfl⟩
    unfold evaluateAt
    rw [hhere]
    exact ⟨rfl, rfl⟩
  | some here =>
    obtain ⟨rfl, -⟩ := Text.place?_eq_some_iff.1 hhere
    have hrest : here.rest.length ≤ source.size := Text.length_rest_le hhere
    obtain ⟨block, hblock, hevents⟩ :=
      p.reports (Nat.le_refl _) (fun _ _ => rfl) 0 here (Nat.lt_of_le_of_lt hrest hsize)
    have hnested := hblock.wellNested
    refine ⟨block, (p.past? here).map (·.offset), fun observe seen => ⟨?_, ?_⟩, fun hnot => ?_,
      fun _ => ⟨here, _, rfl, hblock, fun hsmall => ?_, rfl⟩, hnested [] rfl, hnested.balanced⟩
    · rw [fst_evaluateAt, hhere, Option.bind_some, Option.map_map]
      cases hthere : p.past? here with
      | none => rfl
      | some there =>
        obtain ⟨word, hword⟩ := p.advances hthere
        simp [Match.stop, hword.textTo, hword.offset_eq]
    · unfold evaluateAt evaluate
      rw [hhere]
      simp [hevents]
    · exact absurd (Text.isBoundary_of_place? hhere) hnot
    · -- on fewer bytes no number is too great, and the block is the same since it is what is told
      have htold : ∀ made ≤ max 4294967295 4294967295, id made = min made 4294967295 := fun made hmade => by
        change made = _
        omega
      obtain ⟨exact', hexact, hevents'⟩ := p.reports (by decide) htold 0 here (Nat.lt_of_le_of_lt hrest hsmall)
      have hsame : exact' = block := by
        have hrecorded := congrArg Prod.snd ((hevents' Observer.record []).symm.trans (hevents Observer.record []))
        simpa [Observer.foldl_record] using hrecorded
      exact hsame ▸ hexact

/-- In `abab` the pattern `(ab)*ab` enters five terms, three of them inside the group, and does not match. -/
theorem Pattern.evaluateAt_log_groups : ∃ (p : Pattern) (block : List Event),
    p = [⟨.group [⟨.literal ['a', 'b'], .once, ⟨1, 3⟩⟩], .zeroOrMore, ⟨0, 5⟩⟩,
      ⟨.literal ['a', 'b'], .once, ⟨5, 7⟩⟩] ∧
    Text.size ['a', 'b', 'a', 'b'] < 4294967296 ∧
    (p.evaluateAt Observer.record ['a', 'b', 'a', 'b'] 0 []).2 =
      Event.attempt 0 :: block ++ [Event.result 0 none] ∧
    (∃ here there?, Text.place? ['a', 'b', 'a', 'b'] 0 = some here ∧ p.Logs toldInWord 0 here block there? ∧
      p.Logs id 0 here block there? ∧ there?.map (·.offset) = none) ∧
    block.foldlM Event.nest? [] = some [] ∧ block.countP Event.isEnter = 5 ∧
    block.countP Event.isEnter = block.countP Event.isResolution := by
  have hsize : Text.size ['a', 'b', 'a', 'b'] < 4294967296 := by decide
  have hsmall : Text.size ['a', 'b', 'a', 'b'] < 4294967295 := by decide
  obtain ⟨block, stop?, hobserve, -, hblock, hnested, hbalanced⟩ := Pattern.evaluateAt_log
    [⟨.group [⟨.literal ['a', 'b'], .once, ⟨1, 3⟩⟩], .zeroOrMore, ⟨0, 5⟩⟩,
      ⟨.literal ['a', 'b'], .once, ⟨5, 7⟩⟩] hsize 0
  obtain ⟨hstop, hevents⟩ := hobserve Observer.record []
  rw [Observer.foldl_record, List.nil_append] at hevents
  have hnone : stop? = none := hstop.symm.trans (by decide +kernel)
  subst hnone
  have hboundary : Text.IsBoundary ['a', 'b', 'a', 'b'] 0 := ⟨[], _, rfl, rfl⟩
  obtain ⟨here, there?, hhere, htold, hexact, hthere⟩ := hblock hboundary
  refine ⟨_, block, rfl, hsize, hevents, ⟨here, there?, hhere, htold, hexact hsmall, hthere⟩, hnested, ?_, hbalanced⟩
  have hcount := congrArg (List.countP Event.isEnter) hevents
  have hfive : (Pattern.evaluateAt Observer.record
      [⟨.group [⟨.literal ['a', 'b'], .once, ⟨1, 3⟩⟩], .zeroOrMore, ⟨0, 5⟩⟩,
        ⟨.literal ['a', 'b'], .once, ⟨5, 7⟩⟩] ['a', 'b', 'a', 'b'] 0 []).2.countP Event.isEnter = 5 := by
    decide +kernel
  rw [hfive] at hcount
  simpa [Event.isEnter] using hcount.symm

/-- **The number of repetitions is not always told**: on 4294967295 letters the term `(a?)*` makes one repetition more,
the last of them empty, and the greatest word is told instead.  So what is told is no block with the numbers as they
are. -/
theorem Pattern.repetitions_not_told : ∃ (t : Term) (source : Text) (block : List Event),
    Pattern.read "(a?)*".toList = .ok [t] ∧ source = List.replicate 4294967295 'a' ∧ source.size < 4294967296 ∧
    (Pattern.evaluateAt Observer.record [t] source 0 []).2 =
      .attempt 0 :: block ++ [.result 0 (some 4294967295)] ∧
    .satisfied 0 t 4294967295 0 4294967295 ∈ block ∧ block.countP (Event.isRepetitionAt 0) = 4294967296 ∧
    t.quantifier.least = 0 ∧ ∀ here there?, ¬Pattern.Logs id [t] 0 here block there? := by
  obtain ⟨t, ht⟩ : ∃ t : Term, t = ⟨.group [⟨.literal ['a'], .zeroOrOne, ⟨1, 3⟩⟩], .zeroOrMore, ⟨0, 5⟩⟩ := ⟨_, rfl⟩
  obtain ⟨source, hsource⟩ : ∃ source : Text, source = List.replicate 4294967295 'a' := ⟨_, rfl⟩
  obtain ⟨block, hblock, hcounting⟩ := Term.exists_repeatCounting_optional ⟨1, 3⟩ ⟨0, 5⟩ [.attempt 0]
  rw [← ht, ← hsource] at hcounting
  have hread : Pattern.read "(a?)*".toList = .ok [t] := by
    subst ht
    decide +kernel
  have hsize : source.size = 4294967295 := by rw [hsource, Text.size_replicate_letter]
  have hleast : t.quantifier.least = 0 := by rw [ht]; rfl
  have hrun : t.run Observer.record 0 ⟨0, source⟩ [.attempt 0] =
      (some ⟨4294967295, []⟩, .attempt 0 :: block ++ [.satisfied 0 t 4294967295 0 4294967295]) := by
    have henough : t.quantifier.least.toNat ≤ (4294967295 : UInt32).toNat := by rw [hleast]; decide
    have hloop : t.repeatCounting .wrapping Observer.record 0 ⟨0, source⟩ [.attempt 0] =
        some ((4294967295, ⟨4294967295, []⟩), .attempt 0 :: block) := hcounting Counter.wrapping_follows
    rw [Term.run_of_wrapping hloop, if_pos henough]
    rfl
  have hevents : (Pattern.evaluateAt Observer.record [t] source 0 []).2 =
      .attempt 0 :: (block ++ [.satisfied 0 t 4294967295 0 4294967295]) ++ [.result 0 (some 4294967295)] := by
    unfold Pattern.evaluateAt Pattern.evaluate
    rw [Text.place?_zero]
    dsimp only [Observer.record, List.nil_append]
    rw [Pattern.run, hrun]
    rfl
  have hcount : (block ++ [Event.satisfied 0 t 4294967295 0 4294967295]).countP (Event.isRepetitionAt 0) =
      4294967296 := by
    rw [List.countP_append, hblock]
    rfl
  refine ⟨t, source, _, hread, hsource, by omega, hevents, List.mem_append_right _ List.mem_cons_self, hcount, hleast,
    fun here there? hlogs => ?_⟩
  -- the term would have to be told of 4294967296 repetitions, which no word is
  have hterm : ∃ there?, t.Logs id 0 here (block ++ [.satisfied 0 t 4294967295 0 4294967295]) there? := by
    rcases hlogs with ⟨first, next, rest, hfirst, ⟨rfl, -⟩, heq⟩ | ⟨hfailed, -⟩
    · exact ⟨_, by rwa [heq, List.append_nil]⟩
    · exact ⟨_, hfailed⟩
  obtain ⟨_, hterm⟩ := hterm
  obtain ⟨made, htold, hmade⟩ := hterm.exists_made
  rw [hblock, hleast] at hmade
  have hnumber : (4294967295 : UInt32).toNat = made := htold
  have hgreatest : (4294967295 : UInt32).toNat = 4294967295 := rfl
  have hzero : (0 : UInt32).toNat = 0 := rfl
  omega

end PatternWalk
