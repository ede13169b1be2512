import PatternWalk.Proofs.ErasedSpans
import PatternWalk.Proofs.Readings
/-!
# Spelling — the printed form of a pattern reads back

A pattern is not printed term by term: an unquantified literal is printed as its characters, which are read as one term
each, and a quantified literal of several characters is printed as a group.  `Pattern.spread` holds the terms that are
read from the printed form, before literals are joined.  Every well formed pattern has a derivation of its printed form
that means those terms, and joining their literals gives a canonical pattern back.
-/
namespace PatternWalk

/-! ## The terms that are read from a printed pattern -/

def Text.letters (text : Text) (q : Quantifier) : Pattern := text.map fun c => ⟨.literal [c], q, .none⟩

mutual
def Node.spread (q : Quantifier) : Node → Pattern
  | .literal text =>
    if (Node.literal text).needsGroup q then [⟨.group (Pattern.coalesce (text.letters .once)), q, .none⟩]
    else text.letters q
  | .charSet set => [⟨.charSet set, q, .none⟩]
  | .group body => [⟨.group (Pattern.coalesce (Pattern.spread body)), q, .none⟩]
def Term.spread : Term → Pattern
  | ⟨node, q, _⟩ => node.spread q
/-- **The terms that are read from the printed form of a pattern**, without spans. -/
def Pattern.spread : Pattern → Pattern
  | [] => []
  | t :: p => t.spread ++ Pattern.spread p
end

theorem Term.spread_ne_nil {t : Term} (h : t.WellFormed) : t.spread ≠ [] := by
  obtain ⟨node, q, span⟩ := t
  have hproper := h.proper
  cases node with
  | literal text =>
    rw [Term.spread, Node.spread]
    split
    · simp
    · simpa [Text.letters, Node.Proper] using hproper
  | charSet set => simp [Term.spread, Node.spread]
  | group body => simp [Term.spread, Node.spread]

theorem Pattern.spread_ne_nil {p : Pattern} (h : p.Every Term.WellFormed) (hp : p ≠ []) : p.spread ≠ [] := by
  cases p with
  | nil => exact absurd rfl hp
  | cons t p => simp [Pattern.spread, Term.spread_ne_nil h.1.self]

/-! ## Joining the terms of a printed pattern -/

theorem Quantifier.isExplicit_eq_false_iff {q : Quantifier} : q.isExplicit = false ↔ q = .once := by
  cases q <;> simp [isExplicit]

namespace Pattern

theorem coalesce_letters {q : Pattern} : ∀ {text : Text}, text ≠ [] → (∀ u ∈ (coalesce q).head?, u.isPlain = false) →
    coalesce (text.letters .once ++ q) = ⟨.literal text, .once, .none⟩ :: coalesce q
  | [], h, _ => absurd rfl h
  | [c], _, hq => prepend_of_not_adjoins fun u hu => by simp [Term.adjoins, hq u hu]
  | c :: d :: text, _, hq => by
    have hrest : coalesce (Text.letters (d :: text) .once ++ q) = ⟨.literal (d :: text), .once, .none⟩ :: coalesce q :=
      coalesce_letters (List.cons_ne_nil d text) hq
    rw [Text.letters] at hrest ⊢
    rw [List.map_cons, List.cons_append, coalesce, hrest]
    rfl

mutual
theorem coalesce_spread_term {q : Pattern} : ∀ {t : Term}, t.Every Term.Canonical →
    (∀ u ∈ (coalesce q).head?, t.adjoins u = false) → coalesce (t.spread ++ q) = t.eraseSpans :: coalesce q
  | ⟨.literal text, q', span⟩, ht, hq => by
    cases hexplicit : q'.isExplicit with
    | true =>
      -- a quantified literal is one character, and printed without parentheses
      obtain ⟨c, rfl⟩ := List.length_eq_one_iff.1 (ht.self.settled hexplicit)
      exact prepend_of_not_adjoins fun u hu =>
        (Term.adjoins_eraseSpans ⟨.literal [c], q', span⟩ u).trans (hq u hu)
    | false =>
      obtain rfl : q' = .once := Quantifier.isExplicit_eq_false_iff.1 hexplicit
      have hgroup : (Node.literal text).needsGroup .once = false := by
        unfold Node.needsGroup
        split <;> rfl
      rw [Term.spread, Node.spread, hgroup]
      refine coalesce_letters ht.self.proper fun u hu => ?_
      simpa [Term.adjoins, Term.isPlain] using hq u hu
  | ⟨.charSet set, q, span⟩, _, _ => prepend_of_not_adjoins fun _ _ => rfl
  | ⟨.group body, q, span⟩, ht, _ => by
    have hbody := coalesce_spread ht.self.settled ht.2
    rw [Term.spread, Node.spread, hbody]
    exact prepend_of_not_adjoins fun _ _ => rfl
/-- **Joining the terms that are read from a canonical pattern gives the pattern back**, up to spans. -/
theorem coalesce_spread : ∀ {p : Pattern}, Separated p → p.Every Term.Canonical → coalesce (spread p) = eraseSpans p
  | [], _, _ => rfl
  | t :: p, hs, hp => by
    have hrest : coalesce (spread p) = eraseSpans p := coalesce_spread hs.tail hp.2
    rw [spread, coalesce_spread_term hp.1 ?_, hrest, eraseSpans]
    rw [hrest]
    cases p with
    | nil => simp [eraseSpans]
    | cons u p =>
      have htu : t.adjoins u = false := (List.isChain_cons_cons.1 hs).1
      simpa [eraseSpans, Term.adjoins, Term.isPlain_eraseSpans] using htu
end

end Pattern

/-! ## Derivations of printed patterns -/

namespace Grammar

def Letter.ofChar (c : Char) : Letter :=
  if h : Text.needsEscape c = true then .escaped c h else .plain c (by simpa using h)

@[simp] theorem Letter.char_ofChar (c : Char) : (ofChar c).char = c := by
  unfold ofChar
  split <;> rfl

@[simp] theorem Letter.text_ofChar (c : Char) : (ofChar c).text = Text.escapeChar c := by
  rw [text_eq, char_ofChar]

def Bound.ofWord (w : UInt32) : Bound where
  digits := Text.decimal w.toNat
  nonempty := Nat.toDigits_ne_nil
  decimal := fun _ hc => Nat.isDigit_of_mem_toDigits (by decide) (by decide) hc
  fits := by
    have := w.toNat_lt
    rw [Text.decimal, Nat.ofDigitChars_toDigits (by decide) (by decide)]
    omega

@[simp] theorem Bound.value_ofWord (w : UInt32) : (ofWord w).value = w.toNat :=
  Nat.ofDigitChars_toDigits (by decide) (by decide)

theorem Suffix.exists_of_inOrder : ∀ {q : Quantifier}, q.InOrder → ∃ s? : Option Suffix, textOf s? = q.print ∧
    quantifierOf s? = q
  | .once, _ => ⟨none, rfl, rfl⟩
  | .zeroOrMore, _ => ⟨some .star, rfl, rfl⟩
  | .zeroOrOne, _ => ⟨some .question, rfl, rfl⟩
  | .oneOrMore, _ => ⟨some .plus, rfl, rfl⟩
  | .between low high, h => by
    have hle : (Bound.ofWord low).value ≤ (Bound.ofWord high).value := by
      rw [Bound.value_ofWord, Bound.value_ofWord]
      exact UInt32.le_iff_toNat_le.1 h
    refine ⟨some (.braces (.ofWord low) (.ofWord high) hle), rfl, ?_⟩
    simp [quantifierOf, quantifier]

theorem Item.exists_members : ∀ members : List Char, ∃ items : List Item,
    items.flatMap text = Text.escapeAll members ∧ items.filterMap member? = members ∧ items.filterMap range? = []
  | [] => ⟨[], rfl, rfl, rfl⟩
  | c :: members => by
    obtain ⟨items, ht, hm, hr⟩ := exists_members members
    exact ⟨.member (.ofChar c) :: items, by simp [text, ht, Text.escapeAll], by simp [member?, hm],
      (List.filterMap_cons_none rfl).trans hr⟩

theorem Item.exists_ranges : ∀ ranges : List CharRange, (∀ r ∈ ranges, r.low ≤ r.high) → ∃ items : List Item,
    items.flatMap text = CharRange.printAll ranges ∧ items.filterMap member? = [] ∧ items.filterMap range? = ranges
  | [], _ => ⟨[], rfl, rfl, rfl⟩
  | r :: ranges, h => by
    obtain ⟨items, ht, hm, hr⟩ := exists_ranges ranges fun r' hr' => h r' (List.mem_cons_of_mem _ hr')
    have hordered : (Letter.ofChar r.low).char ≤ (Letter.ofChar r.high).char := by simpa using h r List.mem_cons_self
    exact ⟨.range (.ofChar r.low) (.ofChar r.high) hordered :: items,
      by simp [text, ht, CharRange.printAll, CharRange.print], (List.filterMap_cons_none rfl).trans hm,
      by simp [range?, hr]⟩

theorem eraseDups_of_nodup {α : Type} [BEq α] [LawfulBEq α] : ∀ {l : List α}, l.Nodup → l.eraseDups = l
  | [], _ => rfl
  | a :: l, h => by
    obtain ⟨ha, hl⟩ := List.nodup_cons.1 h
    have hfilter : l.filter (fun b => !b == a) = l := List.filter_eq_self.2 fun b hb => by
      simpa using fun hba : b = a => ha (hba ▸ hb)
    rw [List.eraseDups_cons, hfilter, eraseDups_of_nodup hl]

theorem Item.exists_of_proper {set : CharSet} (h : (Node.charSet set).Proper) : ∃ first items,
    (first :: items).flatMap text = Text.escapeAll set.members ++ CharRange.printAll set.ranges ∧
      charSet (first :: items) = set := by
  obtain ⟨front, hft, hfm, hfr⟩ := exists_members set.members
  obtain ⟨back, hbt, hbm, hbr⟩ := exists_ranges set.ranges h.2
  have hset : charSet (front ++ back) = set := by
    obtain ⟨members, ranges, distinct⟩ := set
    simp_all [charSet, eraseDups_of_nodup distinct]
  cases hitems : front ++ back with
  | nil =>
    have hempty := h.1
    rw [← hset, hitems] at hempty
    cases hempty
  | cons first items =>
    refine ⟨first, items, ?_, hitems ▸ hset⟩
    rw [← hitems, List.flatMap_append, hft, hbt]

/-- **A derivation spells a text** and means the terms, up to spans. -/
structure Derivation.Spells (d : Derivation) (text : Text) (p : Pattern) : Prop where
  text_eq : Derivation.text d = text
  terms_eq : ∀ start, Pattern.eraseSpans (Derivation.terms d start) = p

namespace Derivation.Spells

theorem nil : Spells [] [] [] := ⟨rfl, fun _ => rfl⟩

theorem append {d e : Derivation} {s t : Text} {p q : Pattern} (hd : d.Spells s p) (he : e.Spells t q) :
    Spells (d ++ e) (s ++ t) (p ++ q) := by
  refine ⟨by rw [text_append, hd.text_eq, he.text_eq], fun start => ?_⟩
  rw [terms_append, Pattern.eraseSpans_append, hd.terms_eq, he.terms_eq]

theorem depth_eq {d : Derivation} {s : Text} {p : Pattern} (h : d.Spells s p) : d.depth = p.depth := by
  rw [← h.terms_eq 0, Pattern.depth_eraseSpans, depth_terms]

theorem eraseSpans_pattern {d : Derivation} {s : Text} {p : Pattern} (h : d.Spells s p) :
    d.pattern.eraseSpans = Pattern.coalesce p := by
  rw [pattern, ← Pattern.coalesce_eq_joinRuns, Pattern.eraseSpans_coalesce, h.terms_eq]

theorem phrase {a : Atom} {q : Quantifier} {s : Text} {n : Node} (htext : a.text = s)
    (hnode : ∀ start, (a.node start).eraseSpans = n) (hq : q.InOrder) :
    ∃ d, Spells d (s ++ q.print) [⟨n, q, .none⟩] := by
  obtain ⟨s?, hs, hsq⟩ := Suffix.exists_of_inOrder hq
  refine ⟨[⟨a, s?⟩], by simp [text, Phrase.text, htext, hs], fun start => ?_⟩
  simp [terms, Phrase.term, Pattern.eraseSpans, Term.eraseSpans, hnode, hsq]

theorem letter (c : Char) {q : Quantifier} (hq : q.InOrder) :
    ∃ d, Spells d (Text.escapeChar c ++ q.print) [⟨.literal [c], q, .none⟩] :=
  phrase (a := .letter (.ofChar c)) (by simp [Atom.text]) (fun _ => by simp [Atom.node, Node.eraseSpans]) hq

theorem letters : ∀ text : Text, ∃ d, Spells d (Text.escapeAll text) (text.letters .once)
  | [] => ⟨[], nil⟩
  | c :: text => by
    obtain ⟨d, hd⟩ := letter c (q := .once) trivial
    obtain ⟨e, he⟩ := letters text
    rw [Quantifier.print, List.append_nil] at hd
    exact ⟨d ++ e, hd.append he⟩

theorem group {d : Derivation} {s : Text} {p : Pattern} {q : Quantifier} (hd : d.Spells s p) (hp : p ≠ [])
    (hq : q.InOrder) : ∃ e, Spells e ('(' :: s ++ [')'] ++ q.print) [⟨.group (Pattern.coalesce p), q, .none⟩] := by
  cases d with
  | nil => exact absurd (hd.terms_eq 0).symm hp
  | cons first body =>
    refine phrase (a := .group first body) ?_ (fun start => ?_) hq
    · rw [Atom.text, ← hd.text_eq, text]
    · rw [Atom.node, ← Pattern.coalesce_eq_joinRuns, Node.eraseSpans, Pattern.eraseSpans_coalesce,
        ← hd.terms_eq (start + 1), terms]

end Derivation.Spells

mutual
theorem Derivation.exists_spells_term : ∀ {t : Term}, t.Every Term.WellFormed →
    ∃ d : Derivation, d.Spells t.print t.spread
  | ⟨.literal text, q, span⟩, h => by
    have hproper : text ≠ [] := h.self.proper
    obtain ⟨d, hd⟩ := Spells.letters text
    rw [Term.print, Term.spread, Node.spread]
    split
    · exact hd.group (by simpa [Text.letters] using hproper) h.self.inOrder
    · rename_i hgroup
      -- without parentheses there is one character, or no quantifier
      match text, q, hgroup, hd with
      | [], _, _, _ => exact absurd rfl hproper
      | [c], q, _, _ =>
        rw [Node.print, Text.escapeAll, Text.escapeAll, List.append_nil]
        exact Spells.letter c h.self.inOrder
      | _ :: _ :: _, .once, _, hd =>
        rw [Quantifier.print, List.append_nil]
        exact ⟨d, hd⟩
  | ⟨.charSet set, q, span⟩, h => by
    obtain ⟨first, items, htext, hset⟩ := Item.exists_of_proper h.self.proper
    refine Spells.phrase (a := .set first items) ?_ (fun start => ?_) h.self.inOrder
    · rw [Atom.text, htext]
      rfl
    · rw [Atom.node, hset, Node.eraseSpans]
  | ⟨.group body, q, span⟩, h => by
    obtain ⟨d, hd⟩ := Derivation.exists_spells h.2
    exact hd.group (Pattern.spread_ne_nil h.2 h.self.proper) h.self.inOrder
/-- **Every well formed pattern has a derivation of its printed form.** -/
theorem Derivation.exists_spells : ∀ {p : Pattern}, p.Every Term.WellFormed →
    ∃ d : Derivation, d.Spells p.print p.spread
  | [], _ => ⟨[], Spells.nil⟩
  | _ :: _, h => by
    obtain ⟨d, hd⟩ := Derivation.exists_spells_term h.1
    obtain ⟨e, he⟩ := Derivation.exists_spells h.2
    exact ⟨d ++ e, hd.append he⟩
end

theorem exists_read_print {p : Pattern} {limits : Limits} (h : p.Every Term.WellFormed)
    (hn : p.spread.depth ≤ limits.nesting) :
    ∃ q, Pattern.read p.print limits = .ok q ∧ q.eraseSpans = Pattern.coalesce p.spread := by
  obtain ⟨d, hd⟩ := Derivation.exists_spells h
  refine ⟨d.pattern, read_eq_ok_iff.2 ⟨d, hd.text_eq, ?_, rfl⟩, hd.eraseSpans_pattern⟩
  rw [hd.depth_eq]
  exact hn

theorem exists_read_print_of_canonical {p : Pattern} {limits : Limits} (h : p.Canonical)
    (hn : p.depth ≤ limits.nesting) : ∃ q, Pattern.read p.print limits = .ok q ∧ q.eraseSpans = p.eraseSpans := by
  have hjoin := Pattern.coalesce_spread h.separated h.every
  have hdepth : p.spread.depth = p.depth := by
    rw [← Pattern.depth_coalesce, hjoin, Pattern.depth_eraseSpans]
  rw [← hjoin]
  exact exists_read_print (h.every.imp fun _ ht => ht.toWellFormed) (hdepth ▸ hn)

end Grammar

open Grammar in
/-- **Printing and reading are inverse.**  A canonical pattern is read from its printed form, up to spans, within every
limit that admits its nesting.  So a pattern that was read is read again from its printed form under the same limits,
with the same outline, and the printed form does not change any more. -/
theorem Pattern.read_print :
    (∀ (p : Pattern) (limits : Limits), p.Canonical → p.depth ≤ limits.nesting →
      ∃ q, Pattern.read p.print limits = .ok q ∧ q.eraseSpans = p.eraseSpans) ∧
    ∀ (text : Text) (limits : Limits) (p : Pattern), Pattern.read text limits = .ok p →
      ∃ q, Pattern.read p.print limits = .ok q ∧ q.eraseSpans = p.eraseSpans ∧ q.outline false = p.outline false ∧
        q.print = p.print := by
  refine ⟨fun p limits h hn => exists_read_print_of_canonical h hn, fun text limits p h => ?_⟩
  obtain ⟨d, -, hn, rfl⟩ := read_eq_ok_iff.1 h
  have hdepth : d.pattern.depth ≤ limits.nesting := d.depth_pattern ▸ hn
  obtain ⟨q, hq, hspans⟩ := exists_read_print_of_canonical d.canonical_pattern hdepth
  exact ⟨q, hq, hspans, outline_eq_of_eraseSpans_eq hspans, print_eq_of_eraseSpans_eq hspans⟩

/-- A repeated group around a literal that needs a backslash is read from its printed form; and so is what is read from
a text with a literal in two parts and a leading zero. -/
theorem Pattern.read_print_group :
    (∃ q, Pattern.read (Pattern.print [⟨.group [⟨.literal ['a', '-'], .once, ⟨1, 4⟩⟩], .between 2 3, ⟨0, 10⟩⟩]) ⟨1⟩ =
        .ok q ∧
      q.eraseSpans = eraseSpans [⟨.group [⟨.literal ['a', '-'], .once, ⟨1, 4⟩⟩], .between 2 3, ⟨0, 10⟩⟩]) ∧
    ∃ p q, Pattern.read "ab[b-da]{02,3}".toList ⟨0⟩ = .ok p ∧ Pattern.read p.print ⟨0⟩ = .ok q ∧
      q.eraseSpans = p.eraseSpans ∧ q.outline false = p.outline false ∧ q.print = p.print := by
  refine ⟨read_print.1 _ _ (by decide) (by decide), ?_⟩
  obtain ⟨p, hp⟩ : ∃ p, Pattern.read "ab[b-da]{02,3}".toList ⟨0⟩ = .ok p := ⟨_, rfl⟩
  obtain ⟨q, hq⟩ := read_print.2 _ _ p hp
  exact ⟨p, q, hp, hq⟩

end PatternWalk
