import PatternWalk.Proofs.Sessions
/-!
# Tiling — a session accounts for all the text behind it

What the successful steps of a session took lies one after the other in the text, from its start to where the walker
stands: of a walk the skipped words of the delimiter and the text it gave, of a search the text it skipped and the
anchor.  So no text is lost, given twice or given out of order.
-/
namespace PatternWalk

inductive Gain where
  /-- The text of a match. -/
  | walked (text : Text)
  /-- The text before an anchor, and the anchor. -/
  | sought (skipped anchor : Text)
deriving DecidableEq

namespace Gain

def text : Gain → Text
  | walked text => text
  | sought skipped anchor => skipped ++ anchor

end Gain

def Walker.Answer.gains : Walker.Answer → List Gain
  | .text text? => (text?.map .walked).toList
  | .found match? => (match?.map fun m => .walked m.text).toList
  | .sighted sighting? => (sighting?.map fun s => .sought s.skipped s.anchor).toList
  | .progress p => p.texts.map .walked
  | .refused _ => []

/-- **Words of the delimiter, skipped from an offset on**: each is what the delimiter matches where the one before it
ended, and none is empty.  Without a delimiter there are none. -/
inductive Skipped (source : Text) (delimiter? : Option Pattern) : Nat → List Text → Prop
  | nil {offset} : Skipped source delimiter? offset []
  | word {offset delimiter word words} (hdelimiter : delimiter ∈ delimiter?)
      (hmatch : delimiter.matchAt source offset = some ⟨offset, word⟩) (hne : word ≠ [])
      (hrest : Skipped source delimiter? (offset + word.size) words) : Skipped source delimiter? offset (word :: words)

/-- **A text is made of gains**, from an offset of a source on: before each text that was walked stand skipped words of
the delimiter, and nothing stands between all these. -/
inductive Tiles (source : Text) (delimiter? : Option Pattern) : Nat → List Gain → Text → Prop
  | nil {offset} : Tiles source delimiter? offset [] []
  | walked {offset words text gains rest} (hskipped : Skipped source delimiter? offset words)
      (hrest : Tiles source delimiter? (offset + Text.size (words.flatten ++ text)) gains rest) :
    Tiles source delimiter? offset (.walked text :: gains) (words.flatten ++ text ++ rest)
  | sought {offset skipped anchor gains rest}
      (hrest : Tiles source delimiter? (offset + Text.size (skipped ++ anchor)) gains rest) :
    Tiles source delimiter? offset (.sought skipped anchor :: gains) (skipped ++ anchor ++ rest)

section
variable {source : Text} {delimiter? : Option Pattern} {offset : Nat} {gains gains' : List Gain} {text text' : Text}

theorem Tiles.append (h : Tiles source delimiter? offset gains text)
    (h' : Tiles source delimiter? (offset + text.size) gains' text') :
    Tiles source delimiter? offset (gains ++ gains') (text ++ text') := by
  induction h with
  | nil => simpa using h'
  | walked hskipped _ ih =>
    rw [List.cons_append, List.append_assoc]
    refine .walked hskipped (ih ?_)
    rwa [Text.size_append, ← Nat.add_assoc] at h'
  | sought _ ih =>
    rw [List.cons_append, List.append_assoc]
    refine .sought (ih ?_)
    rwa [Text.size_append, ← Nat.add_assoc] at h'

theorem Skipped.eq_nil {words : List Text} (h : Skipped source none offset words) : words = [] := by
  cases h with
  | nil => rfl
  | word hdelimiter => cases hdelimiter

theorem Tiles.eq_flatMap (h : Tiles source none offset gains text) : text = gains.flatMap Gain.text := by
  induction h with
  | nil => rfl
  | walked hskipped _ ih =>
    obtain rfl := hskipped.eq_nil
    rw [ih]
    rfl
  | sought _ ih =>
    rw [ih]
    rfl

end

/-- The places a delimiter is skipped over lie behind words that it matches. -/
theorem Chain.exists_skipped {source : Text} {delimiter : Pattern} {here there : Place} {stops : List Place}
    (hhere : source.place? here.offset = some here) (h : Chain delimiter.past? here stops there) :
    ∃ words, Skipped source (some delimiter) here.offset words ∧ here.Passes words.flatten there := by
  induction h with
  | rest => exact ⟨[], .nil, .refl _⟩
  | @step here next there stops hnext forward _ ih =>
    obtain ⟨word, hword⟩ := delimiter.advances hnext
    obtain ⟨words, hskipped, hpass⟩ := ih (hword.place? hhere)
    have hmatch : delimiter.matchAt source here.offset = some ⟨here.offset, word⟩ := by
      rw [delimiter.matchAt_of_place? hhere, hnext, Option.map_some, hword.textTo]
    have hne : word ≠ [] := by
      rintro rfl
      -- the chain goes forward
      have := hword.offset_eq
      simp at this
      omega
    rw [hword.offset_eq] at hskipped
    exact ⟨word :: words, .word rfl hmatch hne hskipped, hword.trans hpass⟩

namespace Walker

variable {σ : Type} {source : Text} {w w' w'' : Walker σ} {gains gains' : List Gain}

def Gains (source : Text) (w : Walker σ) (gains : List Gain) (w' : Walker σ) : Prop :=
  ∃ text, Tiles source w.delimiter? w.cursor gains text ∧ w.here.Passes text w'.here

theorem Gains.nil (h : w'.here = w.here) : w.Gains source [] w' := ⟨[], .nil, h ▸ .refl w.here⟩

theorem Gains.append (h : w.Gains source gains w') (hdelimiter : w'.delimiter? = w.delimiter?)
    (h' : w'.Gains source gains' w'') : w.Gains source (gains ++ gains') w'' := by
  obtain ⟨text, htiles, hpass⟩ := h
  obtain ⟨text', htiles', hpass'⟩ := h'
  have hcursor : w'.cursor = w.cursor + text.size := hpass.offset_eq
  rw [hdelimiter, hcursor] at htiles'
  exact ⟨text ++ text', htiles.append htiles', hpass.trans hpass'⟩

theorem step_gains (hhere : source.place? w.cursor = some w.here) (p : Pattern) :
    w.Gains source ((w.step p).1.map fun m => .walked m.text).toList (w.step p).2 := by
  have h := w.steps_step p
  generalize w.step p = result at h ⊢
  cases h with
  | failed => exact .nil rfl
  | @matched start there seen hstart hpast =>
    obtain ⟨words, hskipped, hpass⟩ : ∃ words, Skipped source w.delimiter? w.cursor words ∧
        w.here.Passes words.flatten start := by
      unfold Starts at hstart
      split at hstart
      · exact ⟨[], .nil, hstart ▸ .refl w.here⟩
      · rename_i hdelimiter
        obtain ⟨stops, hchain, -⟩ := hstart
        rw [hdelimiter]
        exact hchain.exists_skipped hhere
    obtain ⟨word, hword⟩ := p.advances hpast
    refine ⟨words.flatten ++ word ++ [], ?_, ?_⟩
    · -- one gain, and no text behind it
      dsimp only [Option.toList, Option.map]
      rw [hword.textTo]
      exact .walked hskipped .nil
    · rw [List.append_nil]
      exact hpass.trans hword

theorem steps_gains : ∀ (patterns : List Pattern) {w : Walker σ} (index : Nat),
    source.place? w.cursor = some w.here →
      w.Gains source ((w.steps patterns index).1.texts.map .walked) (w.steps patterns index).2
  | [], w, _, _ => .nil rfl
  | p :: patterns, w, index, hhere => by
    have hgains := step_gains hhere p
    have honward := w.step_onward p
    unfold steps
    generalize w.step p = result at hgains honward ⊢
    obtain ⟨m?, w'⟩ := result
    cases m? with
    | none => exact hgains
    | some m =>
      exact hgains.append honward.delimiter?_eq
        (steps_gains patterns (index + 1) (honward.reaches.place? hhere))

theorem seek_gains (w : Walker σ) (anchor : Pattern) :
    w.Gains source ((w.seek anchor).1.map fun s => .sought s.skipped s.anchor).toList (w.seek anchor).2 := by
  have h := w.seeks_seek anchor
  generalize w.seek anchor = result at h ⊢
  cases h with
  | failed => exact .nil rfl
  | found hstart hpast =>
    obtain ⟨skipped, hskipped⟩ := hstart
    obtain ⟨word, hword⟩ := anchor.advances hpast
    refine ⟨skipped ++ word ++ [], ?_, ?_⟩
    · dsimp only [Option.toList, Option.map]
      rw [hskipped.textTo, hword.textTo]
      exact .sought .nil
    · rw [List.append_nil]
      exact hskipped.trans hword

theorem perform_gains (hhere : source.place? w.cursor = some w.here) (call : Call) :
    w.Gains source (w.perform call).1.gains (w.perform call).2 := by
  have h := w.performs call
  generalize w.perform call = result at h ⊢
  cases h with
  | refused => exact .nil rfl
  | @walk _ p _ =>
    have hgains := step_gains hhere p
    rwa [Answer.gains, Option.map_map]
  | walkMatch => exact step_gains hhere _
  | walkUntil => exact w.seek_gains _
  | walkMany => exact steps_gains _ 0 hhere

theorem after_gains : ∀ (calls : List Call) {w : Walker σ}, source.place? w.cursor = some w.here →
    w.Gains source ((w.answers calls).flatMap Answer.gains) (w.after calls)
  | [], _, _ => .nil rfl
  | call :: calls, w, hhere => by
    have honward := w.perform_onward call
    rw [answers_cons, List.flatMap_cons, after_cons]
    exact (perform_gains hhere call).append honward.delimiter?_eq (after_gains calls (honward.reaches.place? hhere))

/-- **A walker may move** to where another stands: that is not back, and not past the end of the source. -/
def MayMove (source : Text) (w w' : Walker σ) : Prop := w.cursor ≤ w'.cursor ∧ w'.cursor ≤ source.size

theorem Onward.mayMove (h : w.Onward w') (hhere : source.place? w.cursor = some w.here) : w.MayMove source w' :=
  ⟨h.cursor_le, (Text.isBoundary_of_place? (h.reaches.place? hhere)).le⟩

/-- **A session tiles its source**, from the start to where the walker stands after any calls.  It stands on a boundary
of the source.  Every call leads onward from there; so does every step of a list, from where the steps before it led,
and every search, so a walker is never moved back or past the end.  The text behind the walker is made of what the
successful steps gave, in order, and of the skipped words of the delimiter before each match; without a delimiter it is
what they gave. -/
theorem session_tiles {first : Walker σ} (hfirst : first.here = .start source) (calls : List Call)
    (hw : w = first.after calls) :
    (source.IsBoundary w.cursor ∧ w.cursor ≤ source.size) ∧
    (∀ call, w.MayMove source (w.perform call).2) ∧
    (∀ patterns p, (w.steps patterns 0).2.MayMove source ((w.steps patterns 0).2.step p).2) ∧
    (∀ anchor, w.MayMove source (w.seek anchor).2) ∧
    (∃ text, Tiles source first.delimiter? 0 ((first.answers calls).flatMap Answer.gains) text ∧
      source.slice? 0 w.cursor = some text) ∧
    (first.delimiter? = none → source.slice? 0 w.cursor =
      some (((first.answers calls).flatMap Answer.gains).flatMap Gain.text)) := by
  subst hw
  have hstart : source.place? first.cursor = some first.here := by
    rw [cursor, hfirst]
    exact Text.place?_eq_some_iff.2 ⟨rfl, [], .refl _⟩
  have hzero : first.cursor = 0 := by rw [cursor, hfirst]; rfl
  have hhere : source.place? (first.after calls).cursor = some (first.after calls).here :=
    (after_onward calls first).reaches.place? hstart
  obtain ⟨text, htiles, hpass⟩ := after_gains calls hstart
  have hslice : source.slice? first.cursor (first.after calls).cursor = some text := Text.slice?_of_passes hstart hpass
  rw [hzero] at htiles hslice
  have hboundary : source.IsBoundary (first.after calls).cursor := Text.isBoundary_of_place? hhere
  refine ⟨⟨hboundary, hboundary.le⟩, fun call => ?_, fun patterns p => ?_, fun anchor => ?_, ⟨text, htiles, hslice⟩,
    fun hnone => ?_⟩
  · exact (perform_onward _ call).mayMove hhere
  · exact (step_onward _ p).mayMove ((steps_onward patterns _ 0).reaches.place? hhere)
  · exact (seek_onward _ anchor).mayMove hhere
  · rw [hnone] at htiles
    rw [hslice, htiles.eq_flatMap]

/-- Over `a  é!`, with the delimiter ` `, two steps, a refused walk and a search take `a`, two blanks and `é`, and
`!`. -/
theorem session_tiles_words : ∃ (first : Walker Unit) (calls : List Call),
    create ['a', ' ', ' ', 'é', '!'] (some [' ']) {} Observer.idle () = .ok first ∧
    first.here = .start ['a', ' ', ' ', 'é', '!'] ∧
    calls = [.walkMany [.text ['a'], .text ['é']], .walk (.text ['(']), .walkUntil (.text ['!'])] ∧
    ∃ text, Tiles ['a', ' ', ' ', 'é', '!'] first.delimiter? 0 [.walked ['a'], .walked ['é'], .sought [] ['!']] text ∧
      Text.slice? ['a', ' ', ' ', 'é', '!'] 0 6 = some text := by
  obtain ⟨first, calls, hcreate, hcalls, hgains, hcursor⟩ : ∃ (first : Walker Unit) (calls : List Call),
      create ['a', ' ', ' ', 'é', '!'] (some [' ']) {} Observer.idle () = .ok first ∧
      calls = [.walkMany [.text ['a'], .text ['é']], .walk (.text ['(']), .walkUntil (.text ['!'])] ∧
      (first.answers calls).flatMap Answer.gains = [.walked ['a'], .walked ['é'], .sought [] ['!']] ∧
      (first.after calls).cursor = 6 :=
    ⟨⟨.start _, some [⟨.literal [' '], .once, ⟨0, 1⟩⟩], {}, Observer.idle, ()⟩, _, rfl, rfl, by decide +kernel,
      by decide +kernel⟩
  obtain ⟨-, -, -, -, ⟨text, htiles, hslice⟩, -⟩ := session_tiles (here_of_create hcreate) calls rfl
  rw [hgains] at htiles
  rw [hcursor] at hslice
  exact ⟨first, calls, hcreate, here_of_create hcreate, hcalls, text, htiles, hslice⟩

end Walker

end PatternWalk
