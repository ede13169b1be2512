import PatternWalk.Proofs.Denotation
import PatternWalk.Proofs.EventLogs
import PatternWalk.Proofs.Extent
/-!
# Counting — repetitions counted in a word, and counted without a bound

The greedy loop counts its repetitions in a word.  Here it is written once more with a count of any kind, which may have
no next one.  Where the quantifier has a bound, or a word can count the bytes of the text, words do not give out, and
come to what numbers without a bound come to (`exists_close`).  The count that a term is reported to be satisfied with
is one that its quantifier admits, if its bounds are in order; then also an empty repetition counts for no more than it
may (`Pattern.run_admitted`).
-/
namespace PatternWalk

instance (q : Quantifier) (k : Nat) : Decidable (q.Below k) :=
  decidable_of_iff (q.most?.all (k < ·.toNat) = true) <| by
    unfold Quantifier.Below
    cases q.most? <;> simp

/-! ## Ways to count -/

structure Counter (κ : Type) where
  /-- The count before the first repetition. -/
  zero : κ
  /-- The number that a count stands for. -/
  number : κ → Nat
  /-- The count after a repetition that gets on, if there is a next one. -/
  next? : κ → Option κ
  /-- The count after an empty repetition, of a term that asks for `least` repetitions. -/
  last : (least : UInt32) → κ → κ

namespace Counter

/-- Counting in a word: there is no count after the greatest one. -/
def word : Counter UInt32 where
  zero := 0
  number := UInt32.toNat
  next? := Quantifier.countUp?
  last least count := max (Quantifier.countOn count) least

def wrapping : Counter UInt32 := { word with next? := fun count => some (count + 1) }

/-- Counting without a bound. -/
def unbounded : Counter Nat where
  zero := 0
  number := id
  next? count := some (count + 1)
  last least count := max (count + 1) least.toNat

variable {κ : Type}

/-- The count that a term ends with, whose last repetition may be an empty one. -/
def close (counter : Counter κ) (q : Quantifier) (empty : Bool) (count : κ) : κ :=
  if empty then counter.last q.least count else count

/-- **A counter goes along with words**, as long as there is a next one. -/
structure Follows (counter : Counter κ) (count : UInt32 → κ) : Prop where
  zero_eq : counter.zero = count 0
  number_eq : ∀ n, counter.number (count n) = n.toNat
  next_eq : ∀ {n next}, Quantifier.countUp? n = some next → counter.next? (count n) = some (count next)

theorem eq_of_countUp? {n next : UInt32} (h : Quantifier.countUp? n = some next) :
    n + 1 = next ∧ n.toNat + 1 = next.toNat := by
  unfold Quantifier.countUp? at h
  split at h
  · cases h
  · rename_i hne
    cases h
    exact ⟨rfl, (toNat_add_one hne).symm⟩

theorem word_follows : word.Follows fun n => n := ⟨rfl, fun _ => rfl, id⟩

theorem wrapping_follows : wrapping.Follows fun n => n :=
  ⟨rfl, fun _ => rfl, fun h => congrArg some (eq_of_countUp? h).1⟩

theorem unbounded_follows : unbounded.Follows UInt32.toNat :=
  ⟨rfl, fun _ => rfl, fun h => congrArg some (eq_of_countUp? h).2⟩

end Counter

/-- **The greedy loop with a count of any kind.**  There is no result if a repetition gets on that cannot be counted. -/
def repeatCounting {κ σ : Type} (counter : Counter κ) (atom : Place → σ → Option Place × σ) (report : Nat → Nat → σ → σ)
    (q : Quantifier) (count : κ) (here : Place) (seen : σ) : Option ((κ × Place) × σ) :=
  if q.Below (counter.number count) then
    match atom here seen with
    | (none, seen) => some ((count, here), seen)
    | (some there, seen) =>
      let seen := report here.offset there.offset seen
      if there.rest.length < here.rest.length then
        match counter.next? count with
        | some next => repeatCounting counter atom report q next there seen
        | none => none
      else some ((counter.last q.least count, here), seen)
  else some ((count, here), seen)
termination_by here.rest.length

def Term.repeatCounting {κ σ : Type} (counter : Counter κ) (observe : Observer σ) (t : Term) (depth : Nat)
    (here : Place) (seen : σ) : Option ((κ × Place) × σ) :=
  PatternWalk.repeatCounting counter (t.node.run observe depth)
    (fun start stop seen => observe seen (.repetition depth t start stop)) t.quantifier counter.zero here
    (observe seen (.enter depth t here.offset))

section
variable {κ σ : Type} {counter : Counter κ} {atom : Place → σ → Option Place × σ} {report : Nat → Nat → σ → σ}
  {q : Quantifier} {count : κ} {here there : Place} {seen seen' : σ}

theorem repeatCounting_of_full (h : ¬q.Below (counter.number count)) :
    repeatCounting counter atom report q count here seen = some ((count, here), seen) := by
  rw [repeatCounting, if_neg h]

theorem repeatCounting_of_none (h : q.Below (counter.number count)) (hatom : atom here seen = (none, seen')) :
    repeatCounting counter atom report q count here seen = some ((count, here), seen') := by
  rw [repeatCounting, if_pos h, hatom]

theorem repeatCounting_of_stays (h : q.Below (counter.number count)) (hatom : atom here seen = (some there, seen'))
    (hlt : ¬there.rest.length < here.rest.length) : repeatCounting counter atom report q count here seen =
      some ((counter.last q.least count, here), report here.offset there.offset seen') := by
  rw [repeatCounting, if_pos h, hatom]
  exact if_neg hlt

theorem repeatCounting_of_lt {next : κ} (h : q.Below (counter.number count))
    (hatom : atom here seen = (some there, seen')) (hlt : there.rest.length < here.rest.length)
    (hnext : counter.next? count = some next) : repeatCounting counter atom report q count here seen =
      repeatCounting counter atom report q next there (report here.offset there.offset seen') := by
  rw [repeatCounting, if_pos h, hatom]
  dsimp only
  rw [if_pos hlt, hnext]

/-- **The loop itself** counts in words that start again. -/
theorem repeatCounting_wrapping (atom : Place → σ → Option Place × σ) (report : Nat → Nat → σ → σ) (q : Quantifier)
    (count : UInt32) (here : Place) (seen : σ) :
    repeatCounting .wrapping atom report q count here seen = some (repeatGreedily atom report q count here seen) := by
  rw [repeatGreedily]
  by_cases hbelow : q.Below (Counter.wrapping.number count)
  · rw [if_pos (Quantifier.below_iff_allowsAnother.1 hbelow)]
    cases hatom : atom here seen with
    | mk there? seen' =>
      cases there? with
      | none => rw [repeatCounting_of_none hbelow hatom]
      | some there =>
        dsimp only
        by_cases hlt : there.rest.length < here.rest.length
        · rw [repeatCounting_of_lt hbelow hatom hlt rfl, repeatCounting_wrapping atom report q (count + 1), if_pos hlt]
        · rw [repeatCounting_of_stays hbelow hatom hlt, if_neg hlt]
          rfl
  · rw [repeatCounting_of_full hbelow, if_neg (mt Quantifier.below_iff_allowsAnother.2 hbelow)]
termination_by here.rest.length

end

/-! ## Words do not give out -/

section
variable {σ : Type} {atom : Place → σ → Option Place × σ} {once : Place → Option Place} {q : Quantifier}

/-- **What the loop comes to with every counter that goes along with words**: the same number of repetitions, no more of
them than can get on and than are allowed, and perhaps an empty one behind them. -/
theorem exists_close (honce : ∀ here seen, (atom here seen).1 = once here) (hadv : Advances once)
    (report : Nat → Nat → σ → σ) (count : UInt32) (here : Place) (seen : σ)
    (hroom : q.most? ≠ none ∨ count.toNat + here.rest.length < 4294967296) :
    ∃ (made : UInt32) (empty : Bool) (there : Place) (seen' : σ),
      made.toNat ≤ count.toNat + here.rest.length ∧
      (∀ most ∈ q.most?, count.toNat ≤ most.toNat → made.toNat ≤ most.toNat) ∧ (empty = true → q.Below made.toNat) ∧
      ∀ {κ : Type} {counter : Counter κ} {countOf : UInt32 → κ}, counter.Follows countOf →
        repeatCounting counter atom report q (countOf count) here seen =
          some ((counter.close q empty (countOf made), there), seen') := by
  by_cases hbelow : q.Below count.toNat
  · have hthere := honce here seen
    cases hatom : atom here seen with
    | mk there? seen' =>
      rw [hatom] at hthere
      cases there? with
      | none =>
        exact ⟨count, false, here, seen', Nat.le_add_right _ _, fun _ _ hle => hle, nofun, fun hfollows =>
          repeatCounting_of_none (hfollows.number_eq count ▸ hbelow) hatom⟩
      | some there =>
        obtain ⟨word, hword⟩ := hadv hthere.symm
        by_cases hlt : there.rest.length < here.rest.length
        · -- the next count fits a word: the bound does, or there are no more repetitions than characters ahead
          have hallowed : q.allowsAnother count = true := Quantifier.below_iff_allowsAnother.1 hbelow
          obtain ⟨hup, hcount⟩ := Quantifier.countUp?_eq hallowed (hroom.imp_right fun hroom => by omega)
          obtain ⟨made, empty, stop, seen'', hmade, hwithin, hempty, hcounting⟩ :=
            exists_close honce hadv report (count + 1) there (report here.offset there.offset seen')
              (hroom.imp_right fun hroom => by omega)
          refine ⟨made, empty, stop, seen'', by omega, fun most hm _ => ?_, hempty, fun hfollows => ?_⟩
          · have hlower := hbelow most hm
            exact hwithin most hm (by omega)
          · rw [repeatCounting_of_lt (hfollows.number_eq count ▸ hbelow) hatom hlt (hfollows.next_eq hup)]
            exact hcounting hfollows
        · exact ⟨count, true, here, report here.offset there.offset seen', Nat.le_add_right _ _, fun _ _ hle => hle,
            fun _ => hbelow, fun hfollows => repeatCounting_of_stays (hfollows.number_eq count ▸ hbelow) hatom hlt⟩
  · exact ⟨count, false, here, seen, Nat.le_add_right _ _, fun _ _ hle => hle, nofun, fun hfollows =>
      repeatCounting_of_full (hfollows.number_eq count ▸ hbelow)⟩
termination_by here.rest.length

end

namespace Term

variable {σ : Type} {observe : Observer σ} {depth : Nat} {here : Place} {seen : σ}

theorem exists_close (observe : Observer σ) (t : Term) (depth : Nat) (here : Place) (seen : σ)
    (hroom : t.quantifier.most? ≠ none ∨ here.rest.length < 4294967296) :
    ∃ (made : UInt32) (empty : Bool) (there : Place) (seen' : σ),
      made.toNat ≤ here.rest.length ∧ (empty = true → t.quantifier.Below made.toNat) ∧
      ∀ {κ : Type} {counter : Counter κ} {countOf : UInt32 → κ}, counter.Follows countOf →
        t.repeatCounting counter observe depth here seen =
          some ((counter.close t.quantifier empty (countOf made), there), seen') := by
  have hzero : (0 : UInt32).toNat = 0 := rfl
  obtain ⟨made, empty, there, seen', hmade, -, hempty, hcounting⟩ :=
    PatternWalk.exists_close (t.node.fst_run observe depth) t.node.advances
      (fun start stop seen => observe seen (.repetition depth t start stop)) 0 here
      (observe seen (.enter depth t here.offset)) (hroom.imp_right fun hroom => by omega)
  refine ⟨made, empty, there, seen', by omega, hempty, fun hfollows => ?_⟩
  rw [Term.repeatCounting, hfollows.zero_eq]
  exact hcounting hfollows

theorem run_of_wrapping : ∀ {t : Term} {count : UInt32} {there : Place} {seen' : σ},
    t.repeatCounting .wrapping observe depth here seen = some ((count, there), seen') →
      t.run observe depth here seen =
        if t.quantifier.least.toNat ≤ count.toNat then
          (some there, observe seen' (.satisfied depth t count here.offset there.offset))
        else (none, observe seen' (.failed depth t count there.offset))
  | ⟨n, q, span⟩, count, there, seen', h => by
    have hloop : repeatGreedily (n.run observe depth)
        (fun start stop seen => observe seen (.repetition depth ⟨n, q, span⟩ start stop)) q 0 here
        (observe seen (.enter depth ⟨n, q, span⟩ here.offset)) = ((count, there), seen') :=
      Option.some.inj ((repeatCounting_wrapping ..).symm.trans h)
    unfold Term.run
    rw [hloop]
    simp only [Quantifier.isSatisfiedBy_iff]

end Term

theorem Quantifier.toNat_countOn_max {q : Quantifier} {count : UInt32} :
    (max (countOn count) q.least).toNat = min (max (count.toNat + 1) q.least.toNat) 4294967295 := by
  have hleast := q.least.toNat_lt
  rw [UInt32.toNat_max]
  unfold countOn
  split
  · rename_i h
    have hgreatest : count.toNat = 4294967295 := congrArg UInt32.toNat h
    omega
  · rename_i h
    have hlt := (count + 1).toNat_lt
    rw [toNat_add_one h] at hlt ⊢
    omega

namespace Counter

variable {q : Quantifier} {made : UInt32}

theorem toNat_close_word (q : Quantifier) (empty : Bool) (made : UInt32) :
    (word.close q empty made).toNat = min (unbounded.close q empty made.toNat) 4294967295 := by
  have hmade := made.toNat_lt
  cases empty with
  | false =>
    change made.toNat = min made.toNat 4294967295
    omega
  | true => exact Quantifier.toNat_countOn_max

/-- **Only an empty repetition behind as many as a word counts is one too many for it.** -/
theorem eq_of_close_ne {empty : Bool} (h : unbounded.close q empty made.toNat ≠ (word.close q empty made).toNat) :
    empty = true ∧ made.toNat = 4294967295 ∧ unbounded.close q empty made.toNat = 4294967296 := by
  have hmade := made.toNat_lt
  have hleast := q.least.toNat_lt
  rw [toNat_close_word] at h
  cases empty with
  | false =>
    change made.toNat ≠ min made.toNat 4294967295 at h
    omega
  | true =>
    change max (made.toNat + 1) q.least.toNat ≠ min (max (made.toNat + 1) q.least.toNat) 4294967295 at h
    refine ⟨rfl, ?_⟩
    change made.toNat = 4294967295 ∧ max (made.toNat + 1) q.least.toNat = 4294967296
    omega

end Counter

/-! ## Where a word gives out -/

theorem Text.size_replicate_letter : ∀ n : Nat, Text.size (List.replicate n 'a') = n
  | 0 => rfl
  | n + 1 => by
    rw [List.replicate_succ, size, size_replicate_letter n, Nat.add_comm]
    rfl

section
variable {σ : Type}

theorem Node.run_optional_cons (observe : Observer σ) (span : Span) (depth offset : Nat) (rest : Text) (seen : σ) :
    (Node.group [⟨.literal ['a'], .zeroOrOne, span⟩]).run observe depth ⟨offset, 'a' :: rest⟩ seen =
      (some ⟨offset + 1, rest⟩,
        [.enter (depth + 1) ⟨.literal ['a'], .zeroOrOne, span⟩ offset,
          .repetition (depth + 1) ⟨.literal ['a'], .zeroOrOne, span⟩ offset (offset + 1),
          .satisfied (depth + 1) ⟨.literal ['a'], .zeroOrOne, span⟩ 1 offset (offset + 1)].foldl observe seen) := by
  have hpast : Place.pastWord? ⟨offset, 'a' :: rest⟩ ['a'] = some ⟨offset + 1, rest⟩ := rfl
  have hlt : rest.length < ('a' :: rest).length := Nat.lt_succ_self _
  have hfirst : Quantifier.zeroOrOne.allowsAnother 0 = true := rfl
  have hsecond : ¬Quantifier.zeroOrOne.allowsAnother (0 + 1) = true := by decide
  rw [Node.run, Pattern.run, Term.run, repeatGreedily, if_pos hfirst, Node.run, hpast]
  dsimp only
  rw [if_pos hlt, repeatGreedily, if_neg hsecond]
  rfl

theorem Node.run_optional_nil (observe : Observer σ) (span : Span) (depth offset : Nat) (seen : σ) :
    (Node.group [⟨.literal ['a'], .zeroOrOne, span⟩]).run observe depth ⟨offset, []⟩ seen =
      (some ⟨offset, []⟩,
        [.enter (depth + 1) ⟨.literal ['a'], .zeroOrOne, span⟩ offset,
          .satisfied (depth + 1) ⟨.literal ['a'], .zeroOrOne, span⟩ 0 offset offset].foldl observe seen) := by
  have hpast : Place.pastWord? ⟨offset, []⟩ ['a'] = none := rfl
  have hfirst : Quantifier.zeroOrOne.allowsAnother 0 = true := rfl
  rw [Node.run, Pattern.run, Term.run, repeatGreedily, if_pos hfirst, Node.run, hpast]
  rfl

theorem exists_repeatCounting_letters (atom : Place → σ → Option Place × σ) (report : Nat → Nat → σ → σ)
    (holds : Nat → σ → Prop)
    (hmore : ∀ offset rest k seen, holds k seen → ∃ seen', atom ⟨offset, 'a' :: rest⟩ seen =
      (some ⟨offset + 1, rest⟩, seen') ∧ holds (k + 1) (report offset (offset + 1) seen'))
    (hlast : ∀ offset k seen, holds k seen → ∃ seen', atom ⟨offset, []⟩ seen =
      (some ⟨offset, []⟩, seen') ∧ holds (k + 1) (report offset offset seen')) :
    ∀ (n : Nat) (count : UInt32) (offset : Nat) (seen : σ), count.toNat + n = 4294967295 → holds count.toNat seen →
      ∃ seen', holds 4294967296 seen' ∧
        ∀ {κ : Type} {counter : Counter κ} {countOf : UInt32 → κ}, counter.Follows countOf →
          repeatCounting counter atom report .zeroOrMore (countOf count) ⟨offset, List.replicate n 'a'⟩ seen =
            some ((counter.last 0 (countOf 4294967295), ⟨offset + n, []⟩), seen')
  | 0, count, offset, seen, hcount, hseen => by
    have hgreatest : count = 4294967295 := UInt32.toNat_inj.1 hcount
    subst hgreatest
    obtain ⟨seen', hatom, hreport⟩ := hlast offset _ seen hseen
    exact ⟨_, hreport, fun hfollows => repeatCounting_of_stays (fun _ hm => by cases hm) hatom (Nat.lt_irrefl _)⟩
  | n + 1, count, offset, seen, hcount, hseen => by
    obtain ⟨seen', hatom, hreport⟩ := hmore offset (List.replicate n 'a') count.toNat seen hseen
    have hup : Quantifier.countUp? count = some (count + 1) := if_neg fun h => by
      have hgreatest : count.toNat = 4294967295 := congrArg UInt32.toNat h
      omega
    obtain ⟨-, hnext⟩ := Counter.eq_of_countUp? hup
    rw [hnext] at hreport
    obtain ⟨seen'', hholds, hcounting⟩ := exists_repeatCounting_letters atom report holds hmore hlast n (count + 1)
      (offset + 1) (report offset (offset + 1) seen') (by omega) hreport
    refine ⟨seen'', hholds, fun hfollows => ?_⟩
    rw [List.replicate_succ, repeatCounting_of_lt (fun _ hm => by cases hm) hatom (Nat.lt_succ_self _)
      (hfollows.next_eq hup), hcounting hfollows, Nat.add_right_comm, Nat.add_assoc]

end

theorem Term.exists_repeatCounting_optional (inner outer : Span) (first : List Event) : ∃ block : List Event,
    block.countP (Event.isRepetitionAt 0) = 4294967296 ∧
    ∀ {κ : Type} {counter : Counter κ} {countOf : UInt32 → κ}, counter.Follows countOf →
      Term.repeatCounting counter Observer.record
          ⟨.group [⟨.literal ['a'], .zeroOrOne, inner⟩], .zeroOrMore, outer⟩ 0
          ⟨0, List.replicate 4294967295 'a'⟩ first =
        some ((counter.last 0 (countOf 4294967295), ⟨4294967295, []⟩), first ++ block) := by
  obtain ⟨seen, ⟨block, hblock, hcount⟩, hcounting⟩ := exists_repeatCounting_letters
    ((Node.group [⟨.literal ['a'], .zeroOrOne, inner⟩]).run Observer.record 0)
    (fun start stop seen => Observer.record seen
      (.repetition 0 ⟨.group [⟨.literal ['a'], .zeroOrOne, inner⟩], .zeroOrMore, outer⟩ start stop))
    (fun k seen => ∃ block, seen = first ++ block ∧ block.countP (Event.isRepetitionAt 0) = k)
    (fun offset rest k seen hseen => by
      obtain ⟨block, rfl, rfl⟩ := hseen
      refine ⟨_, Node.run_optional_cons _ inner 0 offset rest _, ?_⟩
      rw [Observer.foldl_record, Observer.record, List.append_assoc, List.append_assoc]
      exact ⟨_, rfl, by simp [Event.isRepetitionAt]⟩)
    (fun offset k seen hseen => by
      obtain ⟨block, rfl, rfl⟩ := hseen
      refine ⟨_, Node.run_optional_nil _ inner 0 offset _, ?_⟩
      rw [Observer.foldl_record, Observer.record, List.append_assoc, List.append_assoc]
      exact ⟨_, rfl, by simp [Event.isRepetitionAt]⟩)
    4294967295 0 0 _ (Nat.zero_add _) ⟨[.enter 0 _ 0], rfl, rfl⟩
  refine ⟨block, hcount, fun hfollows => ?_⟩
  rw [Term.repeatCounting, hfollows.zero_eq, ← hblock]
  exact hcounting hfollows

/-! ## The count that is reported -/

theorem toNat_fst_repeatGreedily_le {σ : Type} {atom : Place → σ → Option Place × σ} {once : Place → Option Place}
    (honce : ∀ here seen, (atom here seen).1 = once here) (hadv : Advances once) (report : Nat → Nat → σ → σ)
    {q : Quantifier} (hq : q.InOrder) (here : Place) (seen : σ) :
    ∀ most ∈ q.most?, (repeatGreedily atom report q 0 here seen).1.1.toNat ≤ most.toNat := by
  intro most hm
  have hbound : q.most? ≠ none := fun hnone => by cases hnone.symm.trans hm
  obtain ⟨made, empty, there, seen', -, hwithin, hempty, hcounting⟩ :=
    exists_close honce hadv report 0 here seen (.inl hbound)
  have hgreedily := Option.some.inj ((repeatCounting_wrapping ..).symm.trans (hcounting Counter.wrapping_follows))
  rw [hgreedily]
  cases hempty' : empty with
  | false => exact hwithin most hm (Nat.zero_le _)
  | true =>
    -- the count is raised to the least number, which is no more than the most
    have hbelow := hempty hempty' most hm
    have hleast := hq.least_le most hm
    change (max (Quantifier.countOn made) q.least).toNat ≤ most.toNat
    rw [Quantifier.toNat_countOn_max]
    omega

/-- An event that says that a term met its quantifier says so with a count that the quantifier admits. -/
def Event.Admitted : Event → Prop
  | satisfied _ t count _ _ => t.quantifier.Admits count.toNat
  | _ => True

section
variable {σ : Type} {observe : Observer σ} {holds : σ → Prop}

mutual
theorem Node.run_admitted (hkeeps : ∀ seen (event : Event), event.Admitted → holds seen → holds (observe seen event)) :
    ∀ {n : Node}, n.Every (·.quantifier.InOrder) → ∀ (depth : Nat) (here : Place) (seen : σ), holds seen →
      holds (n.run observe depth here seen).2
  | .literal _, _, _, _, _, hseen | .charSet _, _, _, _, _, hseen => hseen
  | .group _, hbody, depth, here, seen, hseen => Pattern.run_admitted hkeeps hbody (depth + 1) here seen hseen
theorem Term.run_admitted (hkeeps : ∀ seen (event : Event), event.Admitted → holds seen → holds (observe seen event)) :
    ∀ {t : Term}, t.Every (·.quantifier.InOrder) → ∀ (depth : Nat) (here : Place) (seen : σ), holds seen →
      holds (t.run observe depth here seen).2
  | ⟨n, q, span⟩, ht, depth, here, seen, hseen => by
    have hnode : ∀ {there : Place} {seen : σ}, here.Reaches there → holds seen →
        holds (n.run observe depth there seen).2 := fun _ hseen => Node.run_admitted hkeeps ht.2 depth _ _ hseen
    have hafter := (repeatGreedily_keeps (n.fst_run observe depth) n.advances
      (fun start stop seen => observe seen (.repetition depth ⟨n, q, span⟩ start stop)) q hnode
      (fun _ _ hseen => hkeeps _ (.repetition ..) trivial hseen) 0 here _ (.refl here)
      (hkeeps seen (.enter depth ⟨n, q, span⟩ here.offset) trivial hseen)).2
    have hwithin := toNat_fst_repeatGreedily_le (n.fst_run observe depth) n.advances
      (fun start stop seen => observe seen (.repetition depth ⟨n, q, span⟩ start stop)) ht.1 here
      (observe seen (.enter depth ⟨n, q, span⟩ here.offset))
    unfold Term.run
    generalize repeatGreedily (n.run observe depth) _ q 0 here _ = result at hafter hwithin ⊢
    obtain ⟨⟨count, stop⟩, seen'⟩ := result
    by_cases hcount : q.isSatisfiedBy count = true
    · simp only [if_pos hcount]
      exact hkeeps _ _ ⟨Quantifier.isSatisfiedBy_iff.1 hcount, hwithin⟩ hafter
    · simp only [if_neg hcount]
      exact hkeeps _ (.failed ..) trivial hafter
/-- **What a run keeps**, if each event keeps it whose count is one that its quantifier admits. -/
theorem Pattern.run_admitted
    (hkeeps : ∀ seen (event : Event), event.Admitted → holds seen → holds (observe seen event)) :
    ∀ {p : Pattern}, p.Every (·.quantifier.InOrder) → ∀ (depth : Nat) (here : Place) (seen : σ), holds seen →
      holds (Pattern.run observe p depth here seen).2
  | [], _, _, _, _, hseen => hseen
  | t :: p, hp, depth, here, seen, hseen => by
    have hafter := Term.run_admitted hkeeps hp.1 depth here seen hseen
    unfold Pattern.run
    generalize t.run observe depth here seen = result at hafter ⊢
    obtain ⟨there?, seen'⟩ := result
    cases there? with
    | none => exact hafter
    | some there => exact Pattern.run_admitted hkeeps hp.2 depth there seen' hafter
end

end

theorem Pattern.admitted_of_mem_record {p : Pattern} (hp : p.Every (·.quantifier.InOrder)) (source : Text)
    (offset : Nat) : ∀ event ∈ (p.evaluateAt Observer.record source offset []).2, event.Admitted := by
  have hkeeps : ∀ (events : List Event) (event : Event), event.Admitted → (∀ e ∈ events, e.Admitted) →
      ∀ e ∈ Observer.record events event, e.Admitted := by
    intro events event hevent hevents e (he : e ∈ events ++ [event])
    rcases List.mem_append.1 he with he | he
    · exact hevents e he
    · exact List.mem_singleton.1 he ▸ hevent
  have hattempt := hkeeps [] (.attempt offset) trivial fun _ he => absurd he List.not_mem_nil
  unfold evaluateAt evaluate
  cases hhere : source.place? offset with
  | none => exact hkeeps _ (.result offset none) trivial hattempt
  | some here =>
    obtain ⟨rfl, -⟩ := Text.place?_eq_some_iff.1 hhere
    exact hkeeps _ (.result ..) trivial (Pattern.run_admitted hkeeps hp 0 here _ hattempt)

/-- **Counting repetitions in a word is exact, but for one count.**  Take the loop of a term, with whatever node and
quantifier, at a place of a text.  The text may be of any size if the quantifier has a bound, and else is one whose
bytes a word can count.  The word never gives out.  Counting its repetitions without a bound, the loop comes to the same
end, the same success and the same count, unless there is one more than a word holds: behind a repetition for each byte
of a text of as many bytes as a word can count, an empty one is made, and then the word tells one less.

Whatever is read from a pattern text, and wherever it is evaluated, the count that a term is reported to be satisfied
with is not below the least number of its quantifier, and not above the most. -/
theorem Term.counts_exactly :
    (∀ {σ : Type} (observe : Observer σ) (t : Term) (depth : Nat) (source : Text) (here : Place) (seen : σ),
      source.place? here.offset = some here → t.quantifier.most? ≠ none ∨ source.size < 4294967296 →
      ∃ (count : UInt32) (total : Nat) (there : Place) (seen' : σ),
        t.repeatCounting .word observe depth here seen = some ((count, there), seen') ∧
        t.repeatCounting .unbounded observe depth here seen = some ((total, there), seen') ∧
        t.run observe depth here seen =
          (if t.quantifier.least.toNat ≤ count.toNat then
            (some there, observe seen' (.satisfied depth t count here.offset there.offset))
          else (none, observe seen' (.failed depth t count there.offset))) ∧
        (t.quantifier.least.toNat ≤ total ↔ t.quantifier.least.toNat ≤ count.toNat) ∧
        (total ≠ count.toNat → total = 4294967296 ∧ count.toNat = 4294967295 ∧ t.quantifier.most? = none ∧
          source.size = 4294967295 ∧ here.offset = 0)) ∧
    ∀ (text : Text) (limits : Limits) (p : Pattern), Pattern.read text limits = .ok p →
      ∀ (source : Text) (offset depth : Nat) (t : Term) (count : UInt32) (start stop : Nat),
        .satisfied depth t count start stop ∈ (p.evaluateAt Observer.record source offset []).2 →
          t.quantifier.least ≤ count ∧ ∀ most ∈ t.quantifier.most?, count ≤ most := by
  constructor
  · intro σ observe t depth source here seen hhere hroom
    have hsize : here.offset + here.rest.length ≤ source.size := Text.offset_add_length_rest_le hhere
    obtain ⟨made, empty, there, seen', hmade, hempty, hcounting⟩ :=
      t.exists_close observe depth here seen (hroom.imp_right fun hroom => by omega)
    have hword := Counter.toNat_close_word t.quantifier empty made
    have hrun := Term.run_of_wrapping (hcounting Counter.wrapping_follows)
    refine ⟨_, _, there, seen', hcounting Counter.word_follows, hcounting Counter.unbounded_follows, hrun, ?_,
      fun hne => ?_⟩
    · have hleast := t.quantifier.least.toNat_lt
      omega
    · obtain ⟨hlast, hgreatest, htotal⟩ := Counter.eq_of_close_ne hne
      have hunbounded : t.quantifier.most? = none := by
        by_contra hbound
        obtain ⟨most, hm⟩ := Option.ne_none_iff_exists'.1 hbound
        have hbelow := hempty hlast most hm
        have := most.toNat_lt
        omega
      have hcount : source.size < 4294967296 := hroom.resolve_left fun hbound => hbound hunbounded
      exact ⟨htotal, by omega, hunbounded, by omega, by omega⟩
  · intro text limits p hread source offset depth t count start stop hmem
    have hp : p.Every (·.quantifier.InOrder) := (Pattern.canonical_of_read hread).every.imp fun _ ht => ht.inOrder
    obtain ⟨hleast, hmost⟩ := Pattern.admitted_of_mem_record hp source offset _ hmem
    exact ⟨UInt32.le_iff_toNat_le.2 hleast, fun most hm => UInt32.le_iff_toNat_le.2 (hmost most hm)⟩

/-- At the start of `ab` the term `(a?){3,4294967295}` takes the letter.  The empty repetition after it raises the count
to three, which is what the term is reported to be satisfied with. -/
theorem Term.counts_exactly_raised : ∃ (t : Term) (p : Pattern), p = [t] ∧
    Pattern.read "(a?){3,4294967295}".toList = .ok p ∧ t.quantifier.most? ≠ none ∧
    Text.place? ['a', 'b'] 0 = some ⟨0, ['a', 'b']⟩ ∧
    t.repeatCounting .word Observer.idle 0 ⟨0, ['a', 'b']⟩ () = some ((3, ⟨1, ['b']⟩), ()) ∧
    t.repeatCounting .unbounded Observer.idle 0 ⟨0, ['a', 'b']⟩ () = some ((3, ⟨1, ['b']⟩), ()) ∧
    (t.run Observer.idle 0 ⟨0, ['a', 'b']⟩ ()).1 = some ⟨1, ['b']⟩ ∧
    .satisfied 0 t 3 0 1 ∈ (p.evaluateAt Observer.record ['a', 'b'] 0 []).2 ∧
    t.quantifier.least ≤ 3 ∧ ∀ most ∈ t.quantifier.most?, 3 ≤ most := by
  obtain ⟨t, ht⟩ : ∃ t : Term, t = ⟨.group [⟨.literal ['a'], .zeroOrOne, ⟨1, 3⟩⟩], .between 3 4294967295, ⟨0, 18⟩⟩ :=
    ⟨_, rfl⟩
  have hread : Pattern.read "(a?){3,4294967295}".toList = .ok [t] := by
    subst ht
    decide +kernel
  have hbound : t.quantifier.most? ≠ none := by
    subst ht
    decide
  have hplace : Text.place? ['a', 'b'] 0 = some ⟨0, ['a', 'b']⟩ := rfl
  have hword : t.repeatCounting .word Observer.idle 0 ⟨0, ['a', 'b']⟩ () = some ((3, ⟨1, ['b']⟩), ()) := by
    subst ht
    decide +kernel
  have hmem : .satisfied 0 t 3 0 1 ∈ (Pattern.evaluateAt Observer.record [t] ['a', 'b'] 0 []).2 := by
    subst ht
    decide +kernel
  obtain ⟨hloop, hreport⟩ := Term.counts_exactly
  obtain ⟨count, total, there, seen', hcount, hunbounded, hrun, -, hsame⟩ :=
    hloop Observer.idle t 0 ['a', 'b'] ⟨0, ['a', 'b']⟩ () hplace (.inl hbound)
  obtain ⟨⟨rfl, rfl⟩, -⟩ : (3 = count ∧ ⟨1, ['b']⟩ = there) ∧ () = seen' := by
    simpa using hword.symm.trans hcount
  obtain rfl : total = 3 := by
    by_contra hne
    exact hbound (hsame hne).2.2.1
  have hleast : t.quantifier.least.toNat ≤ (3 : UInt32).toNat := by
    subst ht
    decide
  rw [if_pos hleast] at hrun
  exact ⟨t, [t], rfl, hread, hbound, hplace, hword, hunbounded, congrArg Prod.fst hrun, hmem,
    hreport _ {} _ hread _ _ _ _ _ _ _ hmem⟩

/-- **A word tells one repetition less**: on 4294967295 letters the term `(a?)*` takes each, and then none.  Counted
without a bound these are 4294967296 repetitions; the count that is reported is the greatest word. -/
theorem Term.word_tells_one_less : ∃ (t : Term) (source : Text) (there : Place) (seen : List Event),
    Pattern.read "(a?)*".toList = .ok [t] ∧ source = List.replicate 4294967295 'a' ∧ source.size < 4294967296 ∧
    source.place? 0 = some ⟨0, source⟩ ∧
    t.repeatCounting .word Observer.record 0 ⟨0, source⟩ [] = some ((4294967295, there), seen) ∧
    t.repeatCounting .unbounded Observer.record 0 ⟨0, source⟩ [] = some ((4294967296, there), seen) ∧
    t.run Observer.record 0 ⟨0, source⟩ [] = (some there, seen ++ [.satisfied 0 t 4294967295 0 there.offset]) ∧
    (4294967295 : UInt32).toNat ≠ 4294967296 := by
  obtain ⟨block, -, hcounting⟩ := Term.exists_repeatCounting_optional ⟨1, 3⟩ ⟨0, 5⟩ []
  have hsize := Text.size_replicate_letter 4294967295
  exact ⟨_, _, _, _, by decide +kernel, rfl, by omega, Text.place?_zero _, hcounting Counter.word_follows,
    hcounting Counter.unbounded_follows, Term.run_of_wrapping (hcounting Counter.wrapping_follows), by decide⟩

end PatternWalk
