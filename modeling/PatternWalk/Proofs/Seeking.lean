import PatternWalk.Proofs.Sessions
/-!
# Seeking — a search finds the leftmost anchor

A search tries its anchor at one place after the other and stops at the first where it matches.  The places it may try
are the boundaries of the text from where the walker stands on, each of them once and in order, up to the end of the
text (`mem_placesFrom`, `pairwise_placesFrom`).  Nothing else is evaluated, so no delimiter is skipped.
-/
namespace PatternWalk

/-! ## The places ahead -/

def placesFrom : (offset : Nat) → Text → List Place
  | offset, [] => [⟨offset, []⟩]
  | offset, c :: rest => ⟨offset, c :: rest⟩ :: placesFrom (offset + c.utf8Size) rest

theorem mem_placesFrom : ∀ {offset : Nat} {rest : Text} {there : Place},
    there ∈ placesFrom offset rest ↔ (⟨offset, rest⟩ : Place).Reaches there
  | offset, [], there => by
    rw [placesFrom, List.mem_singleton]
    constructor
    · rintro rfl
      exact .refl _
    · rintro ⟨word, hword⟩
      have hlt : ¬ there.rest.length < ([] : Text).length := Nat.not_lt_zero _
      exact (hword.eq_of_not_lt hlt).2
  | offset, c :: rest, there => by
    have hnext : (⟨offset, c :: rest⟩ : Place).Passes [c] ⟨offset + c.utf8Size, rest⟩ := ⟨rfl, by simp⟩
    rw [placesFrom, List.mem_cons, mem_placesFrom]
    constructor
    · rintro (rfl | hreaches)
      · exact .refl _
      · exact .trans ⟨[c], hnext⟩ hreaches
    · rintro ⟨word, hrest, hoffset⟩
      cases word with
      | nil =>
        obtain ⟨offset', rest'⟩ := there
        left
        simp_all
      | cons d word =>
        obtain ⟨rfl, hword⟩ := List.cons.inj hrest
        right
        refine ⟨word, hword, ?_⟩
        rw [hoffset, Text.size_cons, Nat.add_assoc]

theorem pairwise_placesFrom : ∀ (offset : Nat) (rest : Text),
    (placesFrom offset rest).Pairwise fun here there => here.offset < there.offset
  | _, [] => List.pairwise_singleton _ _
  | offset, c :: rest => by
    refine List.pairwise_cons.2 ⟨fun there hthere => ?_, pairwise_placesFrom _ rest⟩
    have hle := (mem_placesFrom.1 hthere).offset_le
    have hpos := c.utf8Size_pos
    dsimp only at hle ⊢
    omega

section
variable {source : Text} {here there : Place}

theorem Place.reaches_iff (hhere : source.place? here.offset = some here) :
    here.Reaches there ↔ source.place? there.offset = some there ∧ here.offset ≤ there.offset := by
  constructor
  · intro h
    exact ⟨h.place? hhere, h.offset_le⟩
  · rintro ⟨hthere, hle⟩
    obtain ⟨-, front, hfront, hsize⟩ := Text.place?_eq_some_iff.1 hhere
    obtain ⟨-, front', hfront', hsize'⟩ := Text.place?_eq_some_iff.1 hthere
    have hsource : front ++ here.rest = front' ++ there.rest := hfront.symm.trans hfront'
    rw [hsize, hsize'] at hle
    obtain ⟨word, rfl, hrest⟩ := Text.exists_append_of_size_le hsource (by simpa using hle)
    refine ⟨word, hrest, ?_⟩
    rw [hsize, hsize', Text.size_append, Nat.add_assoc]

/-- **The boundaries of a text from one offset up to another**, each of them once and in order. -/
structure Text.BoundariesWithin (source : Text) (start stop : Nat) (offsets : List Nat) : Prop where
  ordered : offsets.Pairwise (· < ·)
  mem_iff : ∀ {offset}, offset ∈ offsets ↔ source.IsBoundary offset ∧ start ≤ offset ∧ offset ≤ stop

theorem Text.exists_mem_placesFrom {offset : Nat} (hhere : source.place? here.offset = some here)
    (hboundary : source.IsBoundary offset) (hle : here.offset ≤ offset) :
    ∃ there ∈ placesFrom here.offset here.rest, there.offset = offset := by
  obtain ⟨there, hthere⟩ := Text.isBoundary_iff.1 hboundary
  obtain ⟨rfl, -⟩ := Text.place?_eq_some_iff.1 hthere
  exact ⟨there, mem_placesFrom.2 ((Place.reaches_iff hhere).2 ⟨hthere, hle⟩), rfl⟩

theorem place?_of_mem_placesFrom (hhere : source.place? here.offset = some here)
    (hthere : there ∈ placesFrom here.offset here.rest) : source.place? there.offset = some there :=
  (mem_placesFrom.1 hthere).place? hhere

theorem boundariesWithin_size (hhere : source.place? here.offset = some here) :
    source.BoundariesWithin here.offset source.size ((placesFrom here.offset here.rest).map (·.offset)) := by
  refine ⟨List.pairwise_map.2 (pairwise_placesFrom _ _), fun {offset} => ?_⟩
  rw [List.mem_map]
  constructor
  · rintro ⟨there, hthere, rfl⟩
    have hboundary := Text.isBoundary_of_place? (place?_of_mem_placesFrom hhere hthere)
    exact ⟨hboundary, (mem_placesFrom.1 hthere).offset_le, hboundary.le⟩
  · rintro ⟨hboundary, hle, -⟩
    exact Text.exists_mem_placesFrom hhere hboundary hle

theorem boundariesWithin_of_eq_append (hhere : source.place? here.offset = some here) {front behind : List Place}
    (hplaces : placesFrom here.offset here.rest = front ++ there :: behind) :
    source.BoundariesWithin here.offset there.offset ((front ++ [there]).map (·.offset)) := by
  have hordered := pairwise_placesFrom here.offset here.rest
  have hall := boundariesWithin_size hhere
  rw [hplaces, List.append_cons, List.pairwise_append] at hordered
  rw [hplaces, List.append_cons, List.map_append] at hall
  obtain ⟨hfront, -, hbehind⟩ := hordered
  refine ⟨List.pairwise_map.2 hfront, fun {offset} => ?_⟩
  constructor
  · intro hmem
    obtain ⟨hboundary, hle, -⟩ := hall.mem_iff.1 (List.mem_append_left _ hmem)
    refine ⟨hboundary, hle, ?_⟩
    obtain ⟨x, hx, rfl⟩ := List.mem_map.1 hmem
    rcases List.mem_append.1 hx with hx | hx
    · exact Nat.le_of_lt ((List.pairwise_append.1 hfront).2.2 x hx there List.mem_cons_self)
    · exact Nat.le_of_eq (congrArg Place.offset (List.mem_singleton.1 hx))
  · rintro ⟨hboundary, hle, hstop⟩
    rcases List.mem_append.1 (hall.mem_iff.2 ⟨hboundary, hle, hboundary.le⟩) with hmem | hmem
    · exact hmem
    · -- the places behind are further on
      obtain ⟨x, hx, rfl⟩ := List.mem_map.1 hmem
      have := hbehind there (by simp) x hx
      omega

end

/-! ## What a search tries -/

section
variable {σ : Type} (observe : Observer σ) (anchor : Pattern)

def tellOf (seen : σ) (here : Place) : σ := (anchor.evaluate observe here seen).2

/-- **What a search does with the places ahead**: it tries them in order, up to the first that matches or all. -/
inductive SeeksAmong (places : List Place) (seen : σ) : Option (Place × Place) × σ → Prop
  | found {front start behind there} (hplaces : places = front ++ start :: behind)
      (hfront : ∀ here ∈ front, anchor.past? here = none) (hpast : anchor.past? start = some there) :
    SeeksAmong places seen (some (start, there), (front ++ [start]).foldl (tellOf observe anchor) seen)
  | failed (hnone : ∀ here ∈ places, anchor.past? here = none) :
    SeeksAmong places seen (none, places.foldl (tellOf observe anchor) seen)

variable {observe anchor} {places : List Place} {here : Place} {seen : σ}

theorem SeeksAmong.head {there : Place} (hpast : anchor.past? here = some there) :
    SeeksAmong observe anchor (here :: places) seen (some (here, there), tellOf observe anchor seen here) := by
  have hfront : ∀ x ∈ ([] : List Place), anchor.past? x = none := List.forall_mem_nil _
  exact .found (List.nil_append _).symm hfront hpast

theorem SeeksAmong.cons {result : Option (Place × Place) × σ} (hnone : anchor.past? here = none)
    (h : SeeksAmong observe anchor places (tellOf observe anchor seen here) result) :
    SeeksAmong observe anchor (here :: places) seen result := by
  cases h with
  | @found front start behind there hplaces hfront hpast =>
    have hcons : here :: places = (here :: front) ++ start :: behind := by rw [hplaces, List.cons_append]
    exact .found hcons (List.forall_mem_cons.2 ⟨hnone, hfront⟩) hpast
  | failed hall =>
    have hcons : ∀ x ∈ here :: places, anchor.past? x = none := List.forall_mem_cons.2 ⟨hnone, hall⟩
    rw [← List.foldl_cons]
    exact .failed hcons

variable (observe anchor)

/-- **A search goes through the places ahead.** -/
theorem seeksAmong_seekFrom : ∀ (offset : Nat) (rest : Text) (seen : σ),
    SeeksAmong observe anchor (placesFrom offset rest) seen (Walker.seekFrom observe anchor offset rest seen)
  | offset, [], seen => by
    have hpast := anchor.fst_evaluate observe ⟨offset, []⟩ seen
    have htell : tellOf observe anchor seen ⟨offset, []⟩ = (anchor.evaluate observe ⟨offset, []⟩ seen).2 := rfl
    unfold Walker.seekFrom placesFrom
    generalize anchor.evaluate observe ⟨offset, []⟩ seen = result at hpast htell ⊢
    obtain ⟨there?, seen'⟩ := result
    dsimp only at htell
    subst htell
    cases there? with
    | none => exact .cons hpast.symm (.failed (by simp))
    | some there => exact .head hpast.symm
  | offset, c :: rest, seen => by
    have hpast := anchor.fst_evaluate observe ⟨offset, c :: rest⟩ seen
    have htell : tellOf observe anchor seen ⟨offset, c :: rest⟩ =
        (anchor.evaluate observe ⟨offset, c :: rest⟩ seen).2 := rfl
    unfold Walker.seekFrom placesFrom
    generalize anchor.evaluate observe ⟨offset, c :: rest⟩ seen = result at hpast htell ⊢
    obtain ⟨there?, seen'⟩ := result
    dsimp only at htell
    subst htell
    cases there? with
    | none => exact .cons hpast.symm (seeksAmong_seekFrom (offset + c.utf8Size) rest _)
    | some there => exact .head hpast.symm

theorem foldl_evaluateAt {source : Text} : ∀ (places : List Place) (seen : σ),
    (∀ here ∈ places, source.place? here.offset = some here) →
    (places.map (·.offset)).foldl (fun seen offset => (anchor.evaluateAt observe source offset seen).2) seen =
      places.foldl (tellOf observe anchor) seen
  | [], _, _ => rfl
  | here :: places, seen, h => by
    obtain ⟨hhere, hplaces⟩ := List.forall_mem_cons.1 h
    rw [List.map_cons, List.foldl_cons, List.foldl_cons, anchor.evaluateAt_of_place? observe hhere]
    exact foldl_evaluateAt places _ hplaces

theorem Pattern.matchAt_eq_none {source : Text} {offset : Nat}
    (h : ∀ here : Place, here.offset = offset → source.place? offset = some here → anchor.past? here = none) :
    anchor.matchAt source offset = none := by
  cases hplace : source.place? offset with
  | none => rw [matchAt, fst_evaluateAt, hplace, Option.bind_none]
  | some here =>
    obtain ⟨rfl, -⟩ := Text.place?_eq_some_iff.1 hplace
    rw [anchor.matchAt_of_place? hplace, h here rfl hplace, Option.map_none]

end

namespace Walker

variable {σ : Type} {source : Text} {w : Walker σ}

/-- **What a search found**: the anchor at the first place ahead where it matches, the text before it, and the walker
behind it. -/
structure Sights (source : Text) (w : Walker σ) (anchor : Pattern) (u : Sighting) (after : Walker σ) : Prop where
  boundary : source.IsBoundary u.anchorStart
  ahead : w.cursor ≤ u.anchorStart
  anchor_eq : anchor.matchAt source u.anchorStart = some ⟨u.anchorStart, u.anchor⟩
  leftmost : ∀ offset, w.cursor ≤ offset → offset < u.anchorStart → anchor.matchAt source offset = none
  skipped_eq : source.slice? w.cursor u.anchorStart = some u.skipped
  cursor_eq : after.cursor = u.stop

/-- **What a search tells**: the evaluations of the anchor at the boundaries from where the walker stands up to the
anchor, or up to the end of the text if there is none; and nothing else. -/
def TellsTries (source : Text) (w : Walker σ) (anchor : Pattern) (sighting? : Option Sighting) (after : Walker σ) :
    Prop :=
  ∃ tried, source.BoundariesWithin w.cursor (sighting?.elim source.size (·.anchorStart)) tried ∧
    after.seen = tried.foldl (fun seen offset => (anchor.evaluateAt w.observe source offset seen).2) w.seen

theorem matchAt_eq_none_of_lt (hhere : source.place? w.cursor = some w.here) {anchor : Pattern}
    {front behind : List Place} {start : Place} (hplaces : placesFrom w.cursor w.remaining = front ++ start :: behind)
    (hfront : ∀ here ∈ front, anchor.past? here = none) {offset : Nat} (hle : w.cursor ≤ offset)
    (hlt : offset < start.offset) : anchor.matchAt source offset = none := by
  refine Pattern.matchAt_eq_none anchor ?_
  rintro here rfl hplace
  have hmem : here ∈ placesFrom w.cursor w.remaining := mem_placesFrom.2 ((Place.reaches_iff hhere).2 ⟨hplace, hle⟩)
  have hordered := pairwise_placesFrom w.cursor w.remaining
  rw [hplaces] at hmem hordered
  obtain ⟨-, hbehind, -⟩ := List.pairwise_append.1 hordered
  rcases List.mem_append.1 hmem with hmem | hmem
  · exact hfront here hmem
  · rcases List.mem_cons.1 hmem with rfl | hmem
    · exact absurd hlt (Nat.lt_irrefl _)
    · exact absurd hlt (Nat.not_lt_of_gt (List.rel_of_pairwise_cons hbehind hmem))

/-- **A search finds the first anchor ahead**, or there is none and the walker stays. -/
theorem seek_sights_or_stays (hhere : source.place? w.cursor = some w.here) (anchor : Pattern) :
    (∀ u, (w.seek anchor).1 = some u → w.Sights source anchor u (w.seek anchor).2) ∧
    ((w.seek anchor).1 = none → (w.seek anchor).2.here = w.here ∧
      ∀ offset, w.cursor ≤ offset → anchor.matchAt source offset = none) ∧
    w.TellsTries source anchor (w.seek anchor).1 (w.seek anchor).2 := by
  have h := seeksAmong_seekFrom w.observe anchor w.here.offset w.here.rest w.seen
  unfold seek
  generalize seekFrom w.observe anchor w.here.offset w.here.rest w.seen = result at h ⊢
  cases h with
  | failed hnone =>
    dsimp only
    refine ⟨fun _ hu => (nomatch hu), fun _ => ⟨rfl, fun offset hle => ?_⟩, ?_⟩
    · refine Pattern.matchAt_eq_none anchor ?_
      rintro here rfl hplace
      exact hnone here (mem_placesFrom.2 ((Place.reaches_iff hhere).2 ⟨hplace, hle⟩))
    · refine ⟨_, boundariesWithin_size hhere, ?_⟩
      rw [foldl_evaluateAt]
      exact fun here hmem => place?_of_mem_placesFrom hhere hmem
  | @found front start behind there hplaces hfront hpast =>
    have hmem : ∀ x ∈ front ++ [start], x ∈ placesFrom w.here.offset w.here.rest := by
      intro x hx
      rw [hplaces, List.append_cons]
      exact List.mem_append_left _ hx
    have hreaches : w.here.Reaches start := mem_placesFrom.1 (hmem start (by simp))
    have hstart := hreaches.place? hhere
    have hthere : start.Reaches there := anchor.advances hpast
    dsimp only
    refine ⟨fun u hu => ?_, fun hnone => (nomatch hnone), ?_⟩
    · obtain rfl := Option.some.inj hu
      obtain ⟨word, hword⟩ := hreaches
      have hmatch : anchor.matchAt source start.offset = some ⟨start.offset, start.textTo there⟩ := by
        rw [anchor.matchAt_of_place? hstart, hpast, Option.map_some]
      refine ⟨Text.isBoundary_of_place? hstart, hword.offset_le, hmatch,
        fun offset => matchAt_eq_none_of_lt hhere hplaces hfront, ?_, hthere.stop_textTo.symm⟩
      rw [hword.textTo]
      exact Text.slice?_of_passes hhere hword
    · refine ⟨_, boundariesWithin_of_eq_append hhere hplaces, ?_⟩
      rw [foldl_evaluateAt]
      exact fun here hx => place?_of_mem_placesFrom hhere (hmem here hx)

/-- **A search finds the leftmost anchor.**  In every state a session gets into, and for every anchor that can be read
or is a pattern already, the search goes through; it finds something exactly when the anchor matches at some boundary
from where the walker stands on, the end of the text included.  Then the anchor it gives is the match at the first such
boundary, the skipped text is all the text before it, and the walker moves behind it; else the walker stays.  The
anchor is tried at each boundary up to there once, in order, and nothing else is evaluated. -/
theorem walkUntil_leftmost {σ : Type} {source : Text} {first w : Walker σ} (hfirst : first.here = .start source)
    {calls : List Call} (hw : w = first.after calls) {anchorSource : PatternSource} {anchor : Pattern}
    (hanchor : anchorSource.resolve w.limits = .ok anchor) :
    ∃ sighting? after, w.walkUntil anchorSource = (.ok sighting?, after) ∧
      ((∃ u, sighting? = some u) ↔
        ∃ offset m, source.IsBoundary offset ∧ w.cursor ≤ offset ∧ anchor.matchAt source offset = some m) ∧
      (∀ u, sighting? = some u → w.Sights source anchor u after) ∧ (sighting? = none → after.cursor = w.cursor) ∧
      w.TellsTries source anchor sighting? after := by
  have hhere : source.place? w.cursor = some w.here := hw ▸ place?_after hfirst calls
  obtain ⟨hsights, hfails, htells⟩ := w.seek_sights_or_stays hhere anchor
  refine ⟨(w.seek anchor).1, (w.seek anchor).2, walkUntil_of_ok hanchor, ⟨?_, ?_⟩, hsights, ?_, htells⟩
  · rintro ⟨u, hu⟩
    have h := hsights u hu
    exact ⟨u.anchorStart, _, h.boundary, h.ahead, h.anchor_eq⟩
  · rintro ⟨offset, m, -, hle, hmatch⟩
    cases hseek : (w.seek anchor).1 with
    | some u => exact ⟨u, rfl⟩
    | none =>
      rw [(hfails hseek).2 offset hle] at hmatch
      cases hmatch
  · intro hnone
    rw [cursor, (hfails hnone).1, cursor]

/-- Behind `a` in `aé b`, the anchor `b` is tried at 1, 3 and 4 and found behind `é `, though ` ` is the delimiter. -/
theorem walkUntil_leftmost_behind : ∃ (first w : Walker (List Event)) (anchor : Pattern) (u : Sighting)
    (after : Walker (List Event)),
    create ['a', 'é', ' ', 'b'] (some [' ']) {} (fun seen event => seen ++ [event]) [] = .ok first ∧
    first.here = .start ['a', 'é', ' ', 'b'] ∧ w = first.after [.walk (.text ['a'])] ∧
    PatternSource.resolve w.limits (.text ['b']) = .ok anchor ∧ w.walkUntil (.text ['b']) = (.ok (some u), after) ∧
    u = ⟨['é', ' '], ['b'], 4⟩ ∧ w.Sights ['a', 'é', ' ', 'b'] anchor u after ∧
    w.TellsTries ['a', 'é', ' ', 'b'] anchor (some u) after ∧
    Text.BoundariesWithin ['a', 'é', ' ', 'b'] w.cursor u.anchorStart [1, 3, 4] := by
  obtain ⟨first, hcreate⟩ : ∃ first : Walker (List Event),
      create ['a', 'é', ' ', 'b'] (some [' ']) {} (fun seen event => seen ++ [event]) [] = .ok first := ⟨_, rfl⟩
  obtain ⟨w, hw⟩ : ∃ w, w = first.after [.walk (.text ['a'])] := ⟨_, rfl⟩
  obtain ⟨anchor, hresolve⟩ : ∃ anchor, PatternSource.resolve w.limits (.text ['b']) = .ok anchor ∧
      (w.seek anchor).1 = some ⟨['é', ' '], ['b'], 4⟩ ∧ w.here = ⟨1, ['é', ' ', 'b']⟩ := by
    obtain rfl := Except.ok.inj hcreate
    subst hw
    exact ⟨_, rfl, by decide +kernel, by decide +kernel⟩
  obtain ⟨hanchor, hseek, hat⟩ := hresolve
  have hfirst := here_of_create hcreate
  obtain ⟨sighting?, after, hwalk, -, hsights, -, htells⟩ := walkUntil_leftmost hfirst hw hanchor
  have hsighting := congrArg Prod.fst ((walkUntil_of_ok hanchor).symm.trans hwalk)
  obtain rfl : sighting? = _ := (Except.ok.inj hsighting).symm.trans hseek
  have hhere : Text.place? ['a', 'é', ' ', 'b'] w.here.offset = some w.here := by rw [hat]; rfl
  have hplaces : placesFrom w.here.offset w.here.rest =
      [⟨1, ['é', ' ', 'b']⟩, ⟨3, [' ', 'b']⟩] ++ ⟨4, ['b']⟩ :: [⟨5, []⟩] := by rw [hat]; rfl
  exact ⟨first, w, anchor, _, _, hcreate, hfirst, hw, hanchor, hwalk, rfl, hsights _ rfl, htells,
    boundariesWithin_of_eq_append hhere hplaces⟩

end Walker

end PatternWalk
