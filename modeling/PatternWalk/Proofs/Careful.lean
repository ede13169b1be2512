import PatternWalk.Proofs.Chains
/-!
# Careful — evaluation that gives up rather than go wrong

Evaluation once more, as a machine makes it: by byte offsets in the whole text, with a loop that only a number of turns
bounds.  There is no result if a loop is not done after so many turns, if a position would leave the text, if a count
does not fit a word, or if the text of the match cannot be cut out.  On a text whose bytes a word can count nothing of
this happens, whatever the pattern: with one turn more than the text has bytes, careful evaluation has a result, which
is that of evaluation (`evaluateCarefully_eq`).
-/
namespace PatternWalk

def Quantifier.countUp? (count : UInt32) : Option UInt32 := if count = 4294967295 then none else some (count + 1)

def Text.ahead? (source : Text) (pos size : Nat) : Option Nat :=
  if pos + size ≤ source.size then some (pos + size) else none

section
variable {σ : Type}

/-- **The greedy loop of a machine**, from a position on which `count` repetitions have been made.  It ends where a
repetition ends where it began, and gives up if it is not done after `turns` turns. -/
def repeatCarefully (atom : Nat → σ → Option (Option Nat × σ)) (report : Nat → Nat → σ → σ) (q : Quantifier) :
    (turns : Nat) → (count : UInt32) → (pos : Nat) → σ → Option ((UInt32 × Nat) × σ)
  | 0, _, _, _ => none
  | turns + 1, count, pos, seen => do
    if q.allowsAnother count then
      match ← atom pos seen with
      | (none, seen) => return ((count, pos), seen)
      | (some stop, seen) =>
        let seen := report pos stop seen
        if stop = pos then return ((max (Quantifier.countOn count) q.least, pos), seen)
        else repeatCarefully atom report q turns (← Quantifier.countUp? count) stop seen
    else return ((count, pos), seen)

variable (observe : Observer σ) (source : Text) (turns : Nat)

mutual
def Node.runCarefully : Node → (depth pos : Nat) → σ → Option (Option Nat × σ)
  | .literal text, _, pos, seen =>
    match source.dropBytes? pos with
    | some rest =>
      if (Text.after? text rest).isSome then do return (← source.ahead? pos text.size, seen) else some (none, seen)
    | none => some (none, seen)
  | .charSet set, _, pos, seen =>
    match source.dropBytes? pos with
    | some (c :: _) =>
      if set.accepts c then do return (← source.ahead? pos c.utf8Size, seen) else some (none, seen)
    | some [] | none => some (none, seen)
  | .group body, depth, pos, seen => Pattern.runCarefully body (depth + 1) pos seen
def Term.runCarefully : Term → (depth pos : Nat) → σ → Option (Option Nat × σ)
  | ⟨node, q, span⟩, depth, pos, seen => do
    let ((count, stop), seen) ←
      repeatCarefully (node.runCarefully depth)
        (fun start stop seen => observe seen (.repetition depth ⟨node, q, span⟩ start stop)) q turns 0 pos
        (observe seen (.enter depth ⟨node, q, span⟩ pos))
    if q.isSatisfiedBy count then
      return (some stop, observe seen (.satisfied depth ⟨node, q, span⟩ count pos stop))
    else return (none, observe seen (.failed depth ⟨node, q, span⟩ count stop))
def Pattern.runCarefully : Pattern → (depth pos : Nat) → σ → Option (Option Nat × σ)
  | [], _, pos, seen => some (pos, seen)
  | t :: p, depth, pos, seen => do
    match ← t.runCarefully depth pos seen with
    | (some stop, seen) => Pattern.runCarefully p depth stop seen
    | (none, seen) => return (none, seen)
end

/-- **Evaluates a pattern at a byte offset of a source, carefully**: the text of the match is cut out of the source. -/
def Pattern.evaluateCarefully (p : Pattern) (offset : Nat) (seen : σ) : Option (Option Match × σ) := do
  let seen := observe seen (.attempt offset)
  let (stop?, seen) ←
    if (source.place? offset).isSome then p.runCarefully observe source turns 0 offset seen else some (none, seen)
  let seen := observe seen (.result offset stop?)
  match stop? with
  | some stop => return (some ⟨offset, ← source.slice? offset stop⟩, seen)
  | none => return (none, seen)

end

/-! ## Nothing goes wrong -/

section
variable {source : Text} {here there : Place} {word : Text}

theorem Text.ahead?_of_passes (hhere : source.place? here.offset = some here) (h : here.Passes word there) :
    source.ahead? here.offset word.size = some there.offset := by
  have hle : there.offset ≤ source.size := (Text.isBoundary_of_place? (h.place? hhere)).le
  unfold Text.ahead?
  rw [← h.offset_eq, if_pos hle]

theorem toNat_add_one {count : UInt32} (h : count ≠ 4294967295) : (count + 1).toNat = count.toNat + 1 := by
  have hlt := count.toNat_lt
  have hne : count.toNat ≠ 4294967295 := fun he => h (UInt32.toNat_inj.1 he)
  rw [UInt32.toNat_add]
  exact Nat.mod_eq_of_lt (by simp; omega)

/-- **The next count fits a word** where another repetition is allowed, if there is a bound, since the bound does. -/
theorem Quantifier.countUp?_eq {q : Quantifier} {count : UInt32} (hallowed : q.allowsAnother count = true)
    (hroom : q.most? ≠ none ∨ count.toNat + 1 < 4294967296) :
    Quantifier.countUp? count = some (count + 1) ∧ (count + 1).toNat = count.toNat + 1 := by
  have hlt : count.toNat < 4294967295 := by
    rcases hroom with hq | hlt
    · obtain ⟨most, hm⟩ := Option.ne_none_iff_exists'.1 hq
      have hbelow := Quantifier.below_iff_allowsAnother.2 hallowed most hm
      have := most.toNat_lt
      omega
    · omega
  have hne : count ≠ 4294967295 := by
    rintro rfl
    exact Nat.lt_irrefl _ hlt
  exact ⟨if_neg hne, toNat_add_one hne⟩

def Agrees {σ : Type} (source : Text) (careful : Nat → σ → Option (Option Nat × σ))
    (run : Place → σ → Option Place × σ) : Prop :=
  ∀ {here : Place}, source.place? here.offset = some here → ∀ seen : σ,
    careful here.offset seen = some ((run here seen).1.map (·.offset), (run here seen).2)

variable {σ : Type}

/-- **The loop ends, and no count is too great for a word**: every repetition but the last gets on, so there is at most
one turn more than characters ahead. -/
theorem repeatCarefully_eq {careful : Nat → σ → Option (Option Nat × σ)} {run : Place → σ → Option Place × σ}
    {once : Place → Option Place} (honce : ∀ here seen, (run here seen).1 = once here) (hadv : Advances once)
    (hagrees : Agrees source careful run) (report : Nat → Nat → σ → σ) (q : Quantifier) :
    ∀ (turns : Nat) (count : UInt32) (here : Place) (seen : σ), here.rest.length < turns →
      source.place? here.offset = some here → (q.most? ≠ none ∨ count.toNat + here.rest.length < 4294967296) →
      repeatCarefully careful report q turns count here.offset seen =
        some (((repeatGreedily run report q count here seen).1.1,
          (repeatGreedily run report q count here seen).1.2.offset), (repeatGreedily run report q count here seen).2)
  | turns + 1, count, here, seen, hturns, hhere, hroom => by
    unfold repeatCarefully repeatGreedily
    by_cases hallowed : q.allowsAnother count = true
    · rw [if_pos hallowed, if_pos hallowed, hagrees hhere]
      have hrun := honce here seen
      generalize run here seen = result at hrun ⊢
      obtain ⟨there?, seen'⟩ := result
      cases there? with
      | none => rfl
      | some there =>
        obtain ⟨word, hword⟩ := hadv hrun.symm
        by_cases hlt : there.rest.length < here.rest.length
        · have hne : there.offset ≠ here.offset := Nat.ne_of_gt (hword.offset_lt hlt)
          obtain ⟨hup, hcount⟩ := Quantifier.countUp?_eq hallowed (hroom.imp_right fun hroom => by omega)
          have hrest := repeatCarefully_eq honce hadv hagrees report q turns (count + 1) there
            (report here.offset there.offset seen') (by omega) (hword.place? hhere)
            (hroom.imp_right fun hroom => by omega)
          simpa [hne, hup, hlt] using hrest
        · -- a repetition that does not get on ends where it began
          obtain ⟨-, rfl⟩ := hword.eq_of_not_lt hlt
          simp
    · rw [if_neg hallowed, if_neg hallowed]
      rfl

end

section
variable {σ : Type} (observe : Observer σ) {source : Text} {turns : Nat}

mutual
theorem Node.runCarefully_eq (hsize : source.size < 4294967296) (hturns : source.size < turns) :
    ∀ (n : Node) (depth : Nat), Agrees source (n.runCarefully observe source turns depth) (n.run observe depth)
  | .literal text, depth, here, hhere, seen => by
    unfold Node.runCarefully Node.run
    rw [Text.dropBytes?_of_place? hhere]
    cases hrest : Text.after? text here.rest with
    | none => simp [Place.pastWord?, hrest]
    | some rest =>
      have hpast : here.pastWord? text = some ⟨here.offset + text.size, rest⟩ := by simp [Place.pastWord?, hrest]
      have hahead := Text.ahead?_of_passes hhere (Place.pastWord?_eq_some_iff.1 hpast)
      simp [hahead, hpast, hrest]
  | .charSet set, depth, here, hhere, seen => by
    unfold Node.runCarefully Node.run
    rw [Text.dropBytes?_of_place? hhere]
    cases hrest : here.rest with
    | nil => simp [Place.pastChar?, hrest]
    | cons c rest =>
      by_cases hc : set.accepts c = true
      · have hpast : here.Passes [c] ⟨here.offset + c.utf8Size, rest⟩ := ⟨hrest, by simp⟩
        have hahead := Text.ahead?_of_passes hhere hpast
        simp_all [Place.pastChar?]
      · simp [Place.pastChar?, hrest, hc]
  | .group body, depth, _, hhere, seen => Pattern.runCarefully_eq hsize hturns body (depth + 1) hhere seen
theorem Term.runCarefully_eq (hsize : source.size < 4294967296) (hturns : source.size < turns) :
    ∀ (t : Term) (depth : Nat), Agrees source (t.runCarefully observe source turns depth) (t.run observe depth)
  | ⟨n, q, span⟩, depth, here, hhere, seen => by
    unfold Term.runCarefully Term.run
    have hlength : here.rest.length ≤ source.size := Text.length_rest_le hhere
    have hroom : (0 : UInt32).toNat + here.rest.length < 4294967296 := by
      simpa using Nat.lt_of_le_of_lt hlength hsize
    rw [repeatCarefully_eq (n.fst_run observe depth) n.advances (Node.runCarefully_eq hsize hturns n depth) _ q turns 0
      here _ (Nat.lt_of_le_of_lt hlength hturns) hhere (.inr hroom)]
    generalize repeatGreedily (n.run observe depth) _ q 0 here _ = result
    obtain ⟨⟨count, there⟩, seen'⟩ := result
    by_cases hcount : q.isSatisfiedBy count = true <;> simp [hcount]
theorem Pattern.runCarefully_eq (hsize : source.size < 4294967296) (hturns : source.size < turns) :
    ∀ (p : Pattern) (depth : Nat), Agrees source (Pattern.runCarefully observe source turns p depth)
      (Pattern.run observe p depth)
  | [], _, _, _, _ => rfl
  | t :: p, depth, here, hhere, seen => by
    unfold Pattern.runCarefully Pattern.run
    rw [Term.runCarefully_eq hsize hturns t depth hhere]
    have hrun := t.fst_run observe depth here seen
    generalize t.run observe depth here seen = result at hrun ⊢
    obtain ⟨there?, seen'⟩ := result
    cases there? with
    | none => rfl
    | some there =>
      obtain ⟨word, hword⟩ := t.advances hrun.symm
      exact Pattern.runCarefully_eq hsize hturns p depth (hword.place? hhere) seen'
end

/-- **Careful evaluation has a result**, and it is that of evaluation. -/
theorem Pattern.evaluateCarefully_eq (hsize : source.size < 4294967296) (hturns : source.size < turns) (p : Pattern)
    (offset : Nat) (seen : σ) :
    p.evaluateCarefully observe source turns offset seen = some (p.evaluateAt observe source offset seen) := by
  unfold evaluateCarefully evaluateAt evaluate
  cases hhere : source.place? offset with
  | none => rfl
  | some here =>
    obtain ⟨rfl, -⟩ := Text.place?_eq_some_iff.1 hhere
    dsimp only
    have hrun := p.fst_run observe 0 here (observe seen (.attempt here.offset))
    have hcareful := Pattern.runCarefully_eq observe hsize hturns p 0 hhere (observe seen (.attempt here.offset))
    generalize Pattern.run observe p 0 here (observe seen (.attempt here.offset)) = result at hrun hcareful ⊢
    obtain ⟨there?, seen'⟩ := result
    cases there? with
    | none => simp [hcareful]
    | some there =>
      obtain ⟨word, hword⟩ := p.advances hrun.symm
      simp [hcareful, Text.slice?_of_passes hhere hword, hword.textTo]

end

end PatternWalk
