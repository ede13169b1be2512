import Mathlib.Data.List.Sort
import PatternWalk.Proofs.Delimiting
import PatternWalk.Proofs.Failing
import PatternWalk.Proofs.Seeking
import PatternWalk.Proofs.TraceLines
/-!
# SessionLogs — the log of a session is the logs of its evaluations

Behind each call stand single evaluations: of the delimiter, up to the one that fails or matches the empty text, and
then of the pattern; or of the anchor, at one boundary after the other.  Which they are is said here by matches alone,
with the cursor that each call leaves (`Attempt.OfSession`).  What a walker has seen after a session is what its
observer makes of them, in order (`Walker.session_tells`); for the observer that collects lines, the lines it had, and
behind them the lines of each evaluation.
-/
namespace PatternWalk

/-- **One evaluation**: a pattern, and the offset at which it is tried. -/
structure Attempt where
  pattern : Pattern
  offset : Nat
deriving DecidableEq

namespace Walker.Call

def isSearch : Walker.Call → Bool
  | .walkUntil _ => true
  | _ => false

end Walker.Call

namespace Attempt

/-! ## Which evaluations a session makes -/

section
variable (source : Text)

/-- **Where a delimiter is tried**, from the cursor on: behind each match that takes some text, up to the first attempt
that fails or matches the empty text.  There the delimiters end. -/
inductive OfDelimiter (d : Pattern) : (cursor : Nat) → List Nat → (start : Nat) → Prop
  | last {cursor} (h : ∀ m, d.matchAt source cursor = some m → m.isEmpty = true) : OfDelimiter d cursor [cursor] cursor
  | more {cursor m offsets start} (hmatch : d.matchAt source cursor = some m) (hne : m.isEmpty = false)
      (hrest : OfDelimiter d m.stop offsets start) : OfDelimiter d cursor (cursor :: offsets) start

/-- **The evaluations of a step**: of the delimiter, if there is one, and then of the pattern where delimiters end. -/
inductive OfStep (p : Pattern) (cursor : Nat) : (delimiter? : Option Pattern) → List Attempt → (start : Nat) → Prop
  | plain : OfStep p cursor none [⟨p, cursor⟩] cursor
  | delimited {d offsets start} (h : OfDelimiter source d cursor offsets start) :
    OfStep p cursor (some d) (offsets.map (⟨d, ·⟩) ++ [⟨p, start⟩]) start

inductive OfSteps (delimiter? : Option Pattern) :
    (cursor : Nat) → List Pattern → List Attempt → (stop : Nat) → Prop
  | nil {cursor} : OfSteps delimiter? cursor [] [] cursor
  | matched {cursor p patterns first start m rest stop} (hstep : OfStep source p cursor delimiter? first start)
      (hmatch : p.matchAt source start = some m) (hrest : OfSteps delimiter? m.stop patterns rest stop) :
    OfSteps delimiter? cursor (p :: patterns) (first ++ rest) stop
  | failed {cursor p patterns first start} (hstep : OfStep source p cursor delimiter? first start)
      (hmatch : p.matchAt source start = none) : OfSteps delimiter? cursor (p :: patterns) first cursor

/-- **Where an anchor is tried**: at every boundary from the cursor through the first at which it matches, or through
the end of the source. -/
structure OfSearch (anchor : Pattern) (cursor : Nat) (offsets : List Nat) (last : Nat) : Prop where
  boundaries : source.BoundariesWithin cursor last offsets
  mem_last : last ∈ offsets
  fails : ∀ offset ∈ offsets, offset ≠ last → anchor.matchAt source offset = none
  ends : anchor.matchAt source last = none → last = source.size

/-- **The evaluations of a call**, and the cursor after it.  A call with a pattern that cannot be read makes none. -/
inductive OfCall (delimiter? : Option Pattern) (limits : Limits) (cursor : Nat) (call : Walker.Call) :
    List Attempt → (stop : Nat) → Prop
  | refused {error} (hread : call.patterns limits = .error error) : OfCall delimiter? limits cursor call [] cursor
  | steps {patterns attempts stop} (hkind : call.isSearch = false) (hread : call.patterns limits = .ok patterns)
      (h : OfSteps source delimiter? cursor patterns attempts stop) : OfCall delimiter? limits cursor call attempts stop
  | search {anchor offsets last} (hkind : call.isSearch = true) (hread : call.patterns limits = .ok [anchor])
      (h : OfSearch source anchor cursor offsets last) :
    OfCall delimiter? limits cursor call (offsets.map (⟨anchor, ·⟩))
      ((anchor.matchAt source last).elim cursor Match.stop)

inductive OfSession (delimiter? : Option Pattern) (limits : Limits) :
    (cursor : Nat) → List Walker.Call → List Attempt → (stop : Nat) → Prop
  | nil {cursor} : OfSession delimiter? limits cursor [] [] cursor
  | cons {cursor call calls first next rest stop} (hcall : OfCall source delimiter? limits cursor call first next)
      (hrest : OfSession delimiter? limits next calls rest stop) :
    OfSession delimiter? limits cursor (call :: calls) (first ++ rest) stop

end

/-! ## There is one list of them -/

section
variable {source : Text} {delimiter? : Option Pattern} {limits : Limits} {cursor : Nat}

theorem OfDelimiter.unique {d : Pattern} {offsets offsets' : List Nat} {start start' : Nat}
    (h : OfDelimiter source d cursor offsets start) (h' : OfDelimiter source d cursor offsets' start') :
    offsets' = offsets ∧ start' = start := by
  induction h generalizing offsets' with
  | last hlast =>
    cases h' with
    | last => exact ⟨rfl, rfl⟩
    | more hmatch hne => exact absurd (hlast _ hmatch) (by simp [hne])
  | more hmatch hne _ ih =>
    cases h' with
    | last hlast => exact absurd (hlast _ hmatch) (by simp [hne])
    | more hmatch' _ hrest' =>
      obtain rfl := Option.some.inj (hmatch.symm.trans hmatch')
      obtain ⟨rfl, rfl⟩ := ih hrest'
      exact ⟨rfl, rfl⟩

theorem OfStep.unique {p : Pattern} {attempts attempts' : List Attempt} {start start' : Nat}
    (h : OfStep source p cursor delimiter? attempts start) (h' : OfStep source p cursor delimiter? attempts' start') :
    attempts' = attempts ∧ start' = start := by
  cases h with
  | plain =>
    cases h'
    exact ⟨rfl, rfl⟩
  | delimited h =>
    cases h' with
    | delimited h' =>
      obtain ⟨rfl, rfl⟩ := h.unique h'
      exact ⟨rfl, rfl⟩

theorem OfSteps.unique {patterns : List Pattern} {attempts attempts' : List Attempt} {stop stop' : Nat}
    (h : OfSteps source delimiter? cursor patterns attempts stop)
    (h' : OfSteps source delimiter? cursor patterns attempts' stop') : attempts' = attempts ∧ stop' = stop := by
  induction h generalizing attempts' with
  | nil =>
    cases h'
    exact ⟨rfl, rfl⟩
  | matched hstep hmatch _ ih =>
    cases h' with
    | matched hstep' hmatch' hrest' =>
      obtain ⟨rfl, rfl⟩ := hstep.unique hstep'
      obtain rfl := Option.some.inj (hmatch.symm.trans hmatch')
      obtain ⟨rfl, rfl⟩ := ih hrest'
      exact ⟨rfl, rfl⟩
    | failed hstep' hmatch' =>
      obtain ⟨-, rfl⟩ := hstep.unique hstep'
      cases hmatch.symm.trans hmatch'
  | failed hstep hmatch =>
    cases h' with
    | matched hstep' hmatch' =>
      obtain ⟨-, rfl⟩ := hstep.unique hstep'
      cases hmatch.symm.trans hmatch'
    | failed hstep' =>
      obtain ⟨rfl, rfl⟩ := hstep.unique hstep'
      exact ⟨rfl, rfl⟩

theorem OfSearch.last_le {anchor : Pattern} {offsets offsets' : List Nat} {last last' : Nat}
    (h : OfSearch source anchor cursor offsets last) (h' : OfSearch source anchor cursor offsets' last') :
    last ≤ last' := by
  obtain ⟨hboundary', hle', -⟩ := h'.boundaries.mem_iff.1 h'.mem_last
  by_contra hlt
  have hmem : last' ∈ offsets := h.boundaries.mem_iff.2 ⟨hboundary', hle', by omega⟩
  have hend := h'.ends (h.fails last' hmem (by omega))
  have hle := (h.boundaries.mem_iff.1 h.mem_last).1.le
  omega

theorem OfSearch.unique {anchor : Pattern} {offsets offsets' : List Nat} {last last' : Nat}
    (h : OfSearch source anchor cursor offsets last) (h' : OfSearch source anchor cursor offsets' last') :
    offsets' = offsets ∧ last' = last := by
  obtain rfl : last = last' := Nat.le_antisymm (h.last_le h') (h'.last_le h)
  refine ⟨h'.boundaries.ordered.eq_of_mem_iff h.boundaries.ordered fun offset => ?_, rfl⟩
  rw [h'.boundaries.mem_iff, h.boundaries.mem_iff]

theorem OfCall.unique {call : Walker.Call} {attempts attempts' : List Attempt} {stop stop' : Nat}
    (h : OfCall source delimiter? limits cursor call attempts stop)
    (h' : OfCall source delimiter? limits cursor call attempts' stop') : attempts' = attempts ∧ stop' = stop := by
  cases h with
  | refused hread =>
    cases h' with
    | refused => exact ⟨rfl, rfl⟩
    | steps _ hread' | search _ hread' => cases hread.symm.trans hread'
  | steps hkind hread h =>
    cases h' with
    | refused hread' => cases hread.symm.trans hread'
    | steps _ hread' h' =>
      cases hread.symm.trans hread'
      exact h.unique h'
    | search hkind' => cases hkind.symm.trans hkind'
  | search hkind hread h =>
    cases h' with
    | refused hread' => cases hread.symm.trans hread'
    | steps hkind' => cases hkind.symm.trans hkind'
    | search _ hread' h' =>
      cases hread.symm.trans hread'
      obtain ⟨rfl, rfl⟩ := h.unique h'
      exact ⟨rfl, rfl⟩

/-- **Which evaluations a session makes is determined**, and so is where it leads. -/
theorem OfSession.unique {calls : List Walker.Call} {attempts attempts' : List Attempt} {stop stop' : Nat}
    (h : OfSession source delimiter? limits cursor calls attempts stop)
    (h' : OfSession source delimiter? limits cursor calls attempts' stop') : attempts' = attempts ∧ stop' = stop := by
  induction h generalizing attempts' with
  | nil =>
    cases h'
    exact ⟨rfl, rfl⟩
  | cons hcall _ ih =>
    cases h' with
    | cons hcall' hrest' =>
      obtain ⟨rfl, rfl⟩ := hcall.unique hcall'
      obtain ⟨rfl, rfl⟩ := ih hrest'
      exact ⟨rfl, rfl⟩

end

def tell {σ : Type} (observe : Observer σ) (source : Text) (seen : σ) (a : Attempt) : σ :=
  (a.pattern.evaluateAt observe source a.offset seen).2

def log (style : TraceStyle) (a : Attempt) : List String := style.log a.pattern a.offset

theorem foldl_tell_collect (style : TraceStyle) : ∀ (attempts : List Attempt) (lines : List String),
    attempts.foldl (tell style.collect style.source) lines = lines ++ attempts.flatMap (log style)
  | [], lines => by simp
  | a :: attempts, lines => by
    rw [List.foldl_cons, tell, style.snd_evaluateAt_collect, foldl_tell_collect style attempts, List.flatMap_cons,
      List.append_assoc, log]

end Attempt

/-! ## A walker makes them -/

namespace Walker

open Attempt (OfDelimiter OfStep OfSteps OfSearch OfCall OfSession)

variable {σ : Type} {source : Text} {w : Walker σ}

theorem tell_of_place? (observe : Observer σ) (p : Pattern) {here : Place}
    (hhere : source.place? here.offset = some here) (seen : σ) :
    Attempt.tell observe source seen ⟨p, here.offset⟩ = (p.evaluate observe here seen).2 := by
  rw [Attempt.tell, p.evaluateAt_of_place? observe hhere]

/-- **Skipping tries the delimiter** where it is to be tried, and tells of nothing else. -/
theorem exists_ofDelimiter (observe : Observer σ) (d : Pattern) {here : Place}
    (hhere : source.place? here.offset = some here) (seen : σ) :
    ∃ offsets, OfDelimiter source d here.offset offsets (skipFrom observe d here seen).1.offset ∧
      (skipFrom observe d here seen).2 =
        (offsets.map (⟨d, ·⟩ : Nat → Attempt)).foldl (Attempt.tell observe source) seen := by
  have htell := tell_of_place? observe d hhere seen
  have hpast := d.fst_evaluate observe here seen
  have hmatch := d.matchAt_of_place? hhere
  unfold skipFrom
  generalize d.evaluate observe here seen = result at htell hpast ⊢
  obtain ⟨there?, seen'⟩ := result
  dsimp only at htell hpast
  subst htell hpast
  cases hthere : d.past? here with
  | none =>
    rw [hthere, Option.map_none] at hmatch
    refine ⟨[here.offset], .last fun m hm => ?_, rfl⟩
    cases hmatch.symm.trans hm
  | some there =>
    rw [hthere, Option.map_some] at hmatch
    obtain ⟨word, hword⟩ := d.advances hthere
    rw [hword.textTo] at hmatch
    by_cases hlt : there.rest.length < here.rest.length
    · simp only [if_pos hlt]
      obtain ⟨offsets, hoffsets, htold⟩ := exists_ofDelimiter observe d (hword.place? hhere)
        (Attempt.tell observe source seen ⟨d, here.offset⟩)
      have hstop : Match.stop ⟨here.offset, word⟩ = there.offset := hword.offset_eq.symm
      have hne : Match.isEmpty ⟨here.offset, word⟩ = false := by simpa [Match.isEmpty] using hword.ne_nil hlt
      exact ⟨here.offset :: offsets, .more hmatch hne (hstop ▸ hoffsets), htold⟩
    · simp only [if_neg hlt]
      obtain ⟨rfl, rfl⟩ := hword.eq_of_not_lt hlt
      refine ⟨[there.offset], .last fun m hm => ?_, rfl⟩
      obtain rfl := Option.some.inj (hmatch.symm.trans hm)
      rfl
termination_by here.rest.length

theorem seen_step (w : Walker σ) (p : Pattern) :
    (w.step p).2.seen = (p.evaluate w.observe w.skipDelimiters.1 w.skipDelimiters.2).2 := by
  unfold step
  generalize w.skipDelimiters = skipped
  obtain ⟨start, seen⟩ := skipped
  dsimp only
  generalize p.evaluate w.observe start seen = result
  obtain ⟨there?, seen'⟩ := result
  cases there? <;> rfl

theorem step_tells (hhere : source.place? w.cursor = some w.here) (p : Pattern) :
    ∃ attempts start, OfStep source p w.cursor w.delimiter? attempts start ∧
      p.matchAt source start = (w.step p).1 ∧
      (w.step p).2.seen = attempts.foldl (Attempt.tell w.observe source) w.seen := by
  obtain ⟨attempts, hattempts, hseen⟩ : ∃ attempts : List Attempt,
      OfStep source p w.cursor w.delimiter? (attempts ++ [⟨p, w.skipDelimiters.1.offset⟩]) w.skipDelimiters.1.offset ∧
      w.skipDelimiters.2 = attempts.foldl (Attempt.tell w.observe source) w.seen := by
    unfold skipDelimiters
    cases w.delimiter? with
    | none => exact ⟨[], .plain, rfl⟩
    | some d =>
      obtain ⟨offsets, hoffsets, hseen⟩ := exists_ofDelimiter w.observe d hhere w.seen
      exact ⟨_, .delimited hoffsets, hseen⟩
  have hstart := w.starts_skipDelimiters.reaches.place? hhere
  refine ⟨_, _, hattempts, ?_, ?_⟩
  · rw [fst_step, p.matchAt_of_place? hstart]
  · rw [seen_step, hseen, List.foldl_append, List.foldl_cons, List.foldl_nil, tell_of_place? w.observe p hstart]

theorem steps_tells : ∀ (patterns : List Pattern) {w : Walker σ} (index : Nat),
    source.place? w.cursor = some w.here →
      ∃ attempts, OfSteps source w.delimiter? w.cursor patterns attempts (w.steps patterns index).2.cursor ∧
        (w.steps patterns index).2.seen = attempts.foldl (Attempt.tell w.observe source) w.seen
  | [], _, _, _ => ⟨[], .nil, rfl⟩
  | p :: patterns, w, index, hhere => by
    obtain ⟨first, start, hfirst, hmatch, hseen⟩ := step_tells hhere p
    have honward := w.step_onward p
    cases hstep : w.step p with
    | mk m? next =>
      rw [hstep] at hmatch hseen honward
      dsimp only at hmatch hseen honward
      cases m? with
      | none =>
        obtain ⟨seen, hnext⟩ := step_of_none (congrArg Prod.fst hstep)
        rw [hstep] at hnext
        dsimp only at hnext
        subst hnext
        rw [steps_cons_none hstep]
        exact ⟨first, .failed hfirst hmatch, hseen⟩
      | some m =>
        obtain ⟨rest, hrest, htold⟩ := steps_tells patterns (index + 1) (honward.reaches.place? hhere)
        rw [cursor_of_step hstep, honward.delimiter?_eq] at hrest
        rw [honward.observe_eq, hseen, ← List.foldl_append] at htold
        rw [steps_cons_some hstep]
        exact ⟨first ++ rest, .matched hfirst hmatch hrest, htold⟩

theorem seek_tells (hhere : source.place? w.cursor = some w.here) (anchor : Pattern) :
    ∃ offsets last, OfSearch source anchor w.cursor offsets last ∧
      (w.seek anchor).2.cursor = (anchor.matchAt source last).elim w.cursor Match.stop ∧
      (w.seek anchor).2.seen =
        (offsets.map (⟨anchor, ·⟩ : Nat → Attempt)).foldl (Attempt.tell w.observe source) w.seen := by
  obtain ⟨hsights, hstays, tried, hboundaries, hseen⟩ := w.seek_sights_or_stays hhere anchor
  have htold : (w.seek anchor).2.seen =
      (tried.map (⟨anchor, ·⟩ : Nat → Attempt)).foldl (Attempt.tell w.observe source) w.seen := by
    rw [hseen, List.foldl_map]
    rfl
  cases hseek : (w.seek anchor).1 with
  | none =>
    obtain ⟨hcursor, hnone⟩ := hstays hseek
    rw [hseek] at hboundaries
    have hle := (Text.isBoundary_of_place? hhere).le
    refine ⟨tried, source.size, ⟨hboundaries, ?_, fun offset hoffset _ => ?_, fun _ => rfl⟩, ?_, htold⟩
    · exact hboundaries.mem_iff.2 ⟨⟨source, [], by simp, rfl⟩, hle, Nat.le_refl _⟩
    · exact hnone offset (hboundaries.mem_iff.1 hoffset).2.1
    · rw [hnone source.size hle, cursor, hcursor]
      rfl
  | some u =>
    have hu := hsights u hseek
    rw [hseek] at hboundaries
    refine ⟨tried, u.anchorStart, ⟨hboundaries, ?_, fun offset hoffset hne => ?_, fun hnone => ?_⟩, ?_, htold⟩
    · exact hboundaries.mem_iff.2 ⟨hu.boundary, hu.ahead, Nat.le_refl _⟩
    · obtain ⟨-, hle, hstop⟩ := hboundaries.mem_iff.1 hoffset
      exact hu.leftmost offset hle (Nat.lt_of_le_of_ne hstop hne)
    · cases hu.anchor_eq.symm.trans hnone
    · rw [hu.anchor_eq, hu.cursor_eq]
      rfl

theorem snd_steps_singleton (w : Walker σ) (p : Pattern) : (w.steps [p] 0).2 = (w.step p).2 := by
  cases hstep : w.step p with
  | mk m? next =>
    cases m? with
    | none => rw [steps_cons_none hstep]
    | some m => rw [steps_cons_some hstep, steps]

/-- What a call told: its evaluations, and nothing else; they lead where the walker is after the call. -/
def Tells (source : Text) (w : Walker σ) (call : Call) (result : Answer × Walker σ) : Prop :=
  ∃ attempts, OfCall source w.delimiter? w.limits w.cursor call attempts result.2.cursor ∧
    result.2.seen = attempts.foldl (Attempt.tell w.observe source) w.seen

theorem tells_refused {call : Call} {error : GrammarError} (hread : call.patterns w.limits = .error error)
    (answer : Answer) : w.Tells source call (answer, w) := ⟨[], .refused hread, rfl⟩

theorem tells_steps (hhere : source.place? w.cursor = some w.here) {call : Call} {patterns : List Pattern}
    (hkind : call.isSearch = false) (hread : call.patterns w.limits = .ok patterns) (answer : Answer) :
    w.Tells source call (answer, (w.steps patterns 0).2) := by
  obtain ⟨attempts, hattempts, hseen⟩ := steps_tells patterns 0 hhere
  exact ⟨attempts, .steps hkind hread hattempts, hseen⟩

theorem tells_step (hhere : source.place? w.cursor = some w.here) {call : Call} {p : Pattern}
    (hkind : call.isSearch = false) (hread : call.patterns w.limits = .ok [p]) (answer : Answer) :
    w.Tells source call (answer, (w.step p).2) := by
  rw [← snd_steps_singleton]
  exact tells_steps hhere hkind hread answer

theorem tells_seek (hhere : source.place? w.cursor = some w.here) {call : Call} {anchor : Pattern}
    (hkind : call.isSearch = true) (hread : call.patterns w.limits = .ok [anchor]) (answer : Answer) :
    w.Tells source call (answer, (w.seek anchor).2) := by
  obtain ⟨offsets, last, hsearch, hcursor, hseen⟩ := seek_tells hhere anchor
  refine ⟨_, ?_, hseen⟩
  rw [hcursor]
  exact .search hkind hread hsearch

/-- **A call makes its evaluations**, and leaves the walker where these end. -/
theorem perform_tells (hhere : source.place? w.cursor = some w.here) (call : Call) :
    w.Tells source call (w.perform call) := by
  have hperforms := w.performs call
  generalize w.perform call = result at hperforms ⊢
  cases hperforms with
  | refused hread => exact tells_refused hread _
  | walk hread | walkMatch hread => exact tells_step hhere rfl (by rw [Call.patterns, hread]; rfl) _
  | walkUntil hread => exact tells_seek hhere rfl (by rw [Call.patterns, hread]; rfl) _
  | @walkMany sources patterns hread =>
    have hpatterns : Call.patterns w.limits (.walkMany sources) = .ok patterns := hread
    exact tells_steps hhere rfl hpatterns _

/-- **What is seen in a session** is what the observer makes of the session's evaluations, one after the other. -/
theorem session_tells : ∀ (calls : List Call) {w : Walker σ}, source.place? w.cursor = some w.here →
    ∃ attempts, OfSession source w.delimiter? w.limits w.cursor calls attempts (w.after calls).cursor ∧
      (w.after calls).seen = attempts.foldl (Attempt.tell w.observe source) w.seen
  | [], _, _ => ⟨[], .nil, rfl⟩
  | call :: calls, w, hhere => by
    obtain ⟨first, hfirst, hseen⟩ := perform_tells hhere call
    have honward := w.perform_onward call
    obtain ⟨rest, hrest, htold⟩ := session_tells calls (honward.reaches.place? hhere)
    rw [honward.delimiter?_eq, honward.limits_eq] at hrest
    rw [honward.observe_eq, hseen, ← List.foldl_append] at htold
    exact ⟨first ++ rest, .cons hfirst hrest, htold⟩

/-- **The log of a session is the logs of its evaluations.**  A walker that stands anywhere in its source and collects
lines, at any level of detail and in any colours, has after any calls the lines it had before, unchanged, and behind
them those that each evaluation of the session gives when it is collected afresh, in order.  The evaluations are those
that the matches of the delimiter and of the patterns ask for, and there is one list of them. -/
theorem session_log {style : TraceStyle} {w : Walker (List String)} (hobserve : w.observe = style.collect)
    (hhere : style.source.place? w.cursor = some w.here) (calls : List Call) :
    ∃ attempts, OfSession style.source w.delimiter? w.limits w.cursor calls attempts (w.after calls).cursor ∧
      (∀ attempts' stop, OfSession style.source w.delimiter? w.limits w.cursor calls attempts' stop →
        attempts' = attempts) ∧
      (w.after calls).seen = w.seen ++ attempts.flatMap (Attempt.log style) := by
  obtain ⟨attempts, hsession, hseen⟩ := session_tells calls hhere
  refine ⟨attempts, hsession, fun attempts' stop h => (hsession.unique h).1, ?_⟩
  rw [hseen, hobserve, Attempt.foldl_tell_collect]

/-- Over `a é!b`, with the delimiter ` `, two steps, a refused walk and a search make seven evaluations. -/
theorem session_log_words : ∃ (style : TraceStyle) (w : Walker (List String)) (calls : List Call) (d a e b : Pattern),
    style = ⟨['a', ' ', 'é', '!', 'b'], .verbose, .colored⟩ ∧
    create style.source (some [' ']) {} style.collect ["before"] = .ok w ∧ w.observe = style.collect ∧
    style.source.place? w.cursor = some w.here ∧
    calls = [.walkMany [.text ['a'], .text ['é']], .walk (.text ['(']), .walkUntil (.text ['b'])] ∧
    PatternSource.resolveAll {} [.text [' '], .text ['a'], .text ['é'], .text ['b']] = .ok [d, a, e, b] ∧
    (w.after calls).cursor = 6 ∧
    (w.after calls).seen = ["before"] ++
      [⟨d, 0⟩, ⟨a, 0⟩, ⟨d, 1⟩, ⟨d, 2⟩, ⟨e, 2⟩, ⟨b, 4⟩, ⟨b, 5⟩].flatMap (Attempt.log style) := by
  obtain ⟨d, hd⟩ : ∃ d : Pattern, d = [⟨.literal [' '], .once, ⟨0, 1⟩⟩] := ⟨_, rfl⟩
  obtain ⟨a, ha⟩ : ∃ a : Pattern, a = [⟨.literal ['a'], .once, ⟨0, 1⟩⟩] := ⟨_, rfl⟩
  obtain ⟨e, he⟩ : ∃ e : Pattern, e = [⟨.literal ['é'], .once, ⟨0, 2⟩⟩] := ⟨_, rfl⟩
  obtain ⟨b, hb⟩ : ∃ b : Pattern, b = [⟨.literal ['b'], .once, ⟨0, 1⟩⟩] := ⟨_, rfl⟩
  obtain ⟨style, hstyle⟩ : ∃ style : TraceStyle, style = ⟨['a', ' ', 'é', '!', 'b'], .verbose, .colored⟩ := ⟨_, rfl⟩
  obtain ⟨w, hw⟩ : ∃ w : Walker (List String),
      w = { here := .start style.source, delimiter? := some d, observe := style.collect, seen := ["before"] } :=
    ⟨_, rfl⟩
  obtain ⟨calls, hcalls⟩ : ∃ calls : List Call,
      calls = [.walkMany [.text ['a'], .text ['é']], .walk (.text ['(']), .walkUntil (.text ['b'])] := ⟨_, rfl⟩
  have hcreate : create style.source (some [' ']) {} style.collect ["before"] = .ok w := by
    rw [hw, hd]
    rfl
  have hobserve : w.observe = style.collect := by rw [hw]
  have hhere : style.source.place? w.cursor = some w.here := by
    subst hw hstyle
    rfl
  -- the places of the delimiter before each step, and those of the search
  have hdelimiter : OfDelimiter style.source d 0 [0] 0 ∧ OfDelimiter style.source d 1 [1, 2] 2 := by
    have hnone : d.matchAt style.source 0 = none ∧ d.matchAt style.source 1 = some ⟨1, [' ']⟩ ∧
        d.matchAt style.source 2 = none := by
      subst hstyle hd
      decide +kernel
    obtain ⟨hzero, hone, htwo⟩ := hnone
    refine ⟨.last fun m hm => ?_, .more hone rfl (.last fun m hm => ?_)⟩
    · cases hzero.symm.trans hm
    · cases htwo.symm.trans hm
  have hsearch : OfSearch style.source b 4 [4, 5] 5 := by
    have hmatch : b.matchAt style.source 4 = none ∧ b.matchAt style.source 5 = some ⟨5, ['b']⟩ := by
      subst hstyle hb
      decide +kernel
    obtain ⟨hfour, hfive⟩ := hmatch
    have hfrom : style.source.place? (Place.offset ⟨4, ['!', 'b']⟩) = some ⟨4, ['!', 'b']⟩ := by rw [hstyle]; rfl
    have hplaces : placesFrom 4 ['!', 'b'] = [⟨4, ['!', 'b']⟩] ++ ⟨5, ['b']⟩ :: [⟨6, []⟩] := rfl
    refine ⟨boundariesWithin_of_eq_append hfrom hplaces, by decide, fun offset hoffset hne => ?_, fun hnone => ?_⟩
    · obtain rfl : offset = 4 := by simp at hoffset; omega
      exact hfour
    · cases hfive.symm.trans hnone
  have hmade : OfSession style.source w.delimiter? w.limits w.cursor calls
      [⟨d, 0⟩, ⟨a, 0⟩, ⟨d, 1⟩, ⟨d, 2⟩, ⟨e, 2⟩, ⟨b, 4⟩, ⟨b, 5⟩] 6 := by
    obtain ⟨hzero, hone⟩ := hdelimiter
    have hmatch : a.matchAt style.source 0 = some ⟨0, ['a']⟩ ∧ e.matchAt style.source 2 = some ⟨2, ['é']⟩ ∧
        b.matchAt style.source 5 = some ⟨5, ['b']⟩ := by
      subst hstyle ha he hb
      decide +kernel
    obtain ⟨hfirst, hsecond, hanchor⟩ := hmatch
    have hsteps : OfSteps style.source (some d) 0 [a, e] [⟨d, 0⟩, ⟨a, 0⟩, ⟨d, 1⟩, ⟨d, 2⟩, ⟨e, 2⟩] 4 :=
      .matched (.delimited hzero) hfirst (.matched (.delimited hone) hsecond .nil)
    have hmany : Call.patterns {} (.walkMany [.text ['a'], .text ['é']]) = .ok [a, e] := by rw [ha, he]; rfl
    have hrefused : Call.patterns {} (.walk (.text ['('])) = .error ⟨.unclosedGroup, ⟨0, 1⟩, ['(']⟩ := rfl
    have huntil : Call.patterns {} (.walkUntil (.text ['b'])) = .ok [b] := by rw [hb]; rfl
    have hsought : OfCall style.source (some d) {} 4 (.walkUntil (.text ['b'])) [⟨b, 4⟩, ⟨b, 5⟩] 6 := by
      have h : OfCall style.source (some d) {} 4 (.walkUntil (.text ['b'])) [⟨b, 4⟩, ⟨b, 5⟩]
        ((b.matchAt style.source 5).elim 4 Match.stop) := .search rfl huntil hsearch
      rwa [hanchor] at h
    subst hw hcalls
    exact .cons (.steps rfl hmany hsteps) (.cons (.refused hrefused) (.cons hsought .nil))
  obtain ⟨attempts, hattempts, hunique, hseen⟩ := session_log hobserve hhere calls
  have hstop := (hmade.unique hattempts).2
  rw [← hunique _ _ hmade, show w.seen = ["before"] by rw [hw]] at hseen
  have hread : PatternSource.resolveAll {} [.text [' '], .text ['a'], .text ['é'], .text ['b']] = .ok [d, a, e, b] := by
    rw [hd, ha, he, hb]
    rfl
  exact ⟨style, w, calls, d, a, e, b, hstyle, hcreate, hobserve, hhere, hcalls, hread, hstop, hseen⟩

end Walker

end PatternWalk
