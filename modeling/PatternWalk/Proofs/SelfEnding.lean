import PatternWalk.Pattern.Outline
import PatternWalk.Proofs.Digits
/-!
# SelfEnding — writings that show where they end

Two writings may be followed by anything: where both begin one text, the things written and the rests are the same.
Numbers end before what is no digit, quoted texts at their quotation mark, sets at their bracket and quantifiers before
a line feed or a span.
-/
namespace PatternWalk

namespace Text

/-- **What is written shows by itself where it ends.** -/
def EndsItself {α : Type} (write : α → Text) : Prop :=
  ∀ ⦃a b : α⦄ ⦃s t : Text⦄, write a ++ s = write b ++ t → a = b ∧ s = t

theorem eq_of_append_cons {stop : Char} : ∀ {xs ys s t : Text}, stop ∉ xs → stop ∉ ys →
    xs ++ stop :: s = ys ++ stop :: t → xs = ys ∧ s = t
  | [], [], _, _, _, _, h => ⟨rfl, (List.cons.inj h).2⟩
  | [], y :: ys, _, _, _, hy, h => absurd ((List.cons.inj h).1 ▸ List.mem_cons_self) hy
  | x :: xs, [], _, _, hx, _, h => absurd ((List.cons.inj h).1 ▸ List.mem_cons_self) hx
  | x :: xs, y :: ys, s, t, hx, hy, h => by
    obtain ⟨rfl, hrest⟩ := List.cons.inj h
    obtain ⟨rfl, rfl⟩ := eq_of_append_cons (List.not_mem_of_not_mem_cons hx) (List.not_mem_of_not_mem_cons hy) hrest
    exact ⟨rfl, rfl⟩

/-- **A list ends at the first `stop`** that is where an element could begin, if none begins with it. -/
theorem EndsItself.list {α : Type} {write : α → Text} (hw : EndsItself write) {stop : Char}
    (hstop : ∀ a s, (write a ++ s).head? ≠ some stop) :
    ∀ {as bs : List α} {s t : Text}, as.flatMap write ++ stop :: s = bs.flatMap write ++ stop :: t → as = bs ∧ s = t
  | [], [], _, _, h => ⟨rfl, (List.cons.inj h).2⟩
  | [], b :: bs, _, _, h => by
    rw [List.flatMap_cons, List.append_assoc] at h
    exact absurd (congrArg List.head? h).symm (hstop b _)
  | a :: as, [], _, _, h => by
    rw [List.flatMap_cons, List.append_assoc] at h
    exact absurd (congrArg List.head? h) (hstop a _)
  | a :: as, b :: bs, s, t, h => by
    rw [List.flatMap_cons, List.flatMap_cons, List.append_assoc, List.append_assoc] at h
    obtain ⟨rfl, hrest⟩ := hw h
    obtain ⟨rfl, rfl⟩ := EndsItself.list hw hstop hrest
    exact ⟨rfl, rfl⟩

/-! ## Numbers -/

theorem eq_of_digits_append {b : Nat} (hb : 1 < b) (h16 : b ≤ 16) {stop : Char}
    (hstop : ∀ d : Fin 16, stop ≠ d.val.digitChar) {m n : Nat} {s t : Text}
    (h : Nat.toDigits b m ++ stop :: s = Nat.toDigits b n ++ stop :: t) : m = n ∧ s = t := by
  obtain ⟨hdigits, rfl⟩ := eq_of_append_cons (Digits.notMem_toDigits hb h16 hstop m)
    (Digits.notMem_toDigits hb h16 hstop n) h
  exact ⟨Digits.toDigits_inj hb h16 hdigits, rfl⟩

/-! ## Quoted texts -/

def shortEscapes : List (Char × Char) :=
  [('t', '\t'), ('r', '\r'), ('n', '\n'), ('0', '\x00'), ('"', '"'), ('\\', '\\')]

theorem quoteChar_cases (hidden : Char → Bool) (c : Char) :
    (∃ k, (k, c) ∈ shortEscapes ∧ quoteChar hidden c = ['\\', k]) ∨ quoteChar hidden c = codePoint c ∨
      (c ≠ '\\' ∧ c ≠ '"' ∧ quoteChar hidden c = [c]) := by
  by_cases hc : c ∈ shortEscapes.map Prod.snd
  · simp only [shortEscapes, List.map_cons, List.map_nil, List.mem_cons, List.not_mem_nil, or_false] at hc
    rcases hc with rfl | rfl | rfl | rfl | rfl | rfl <;> exact .inl ⟨_, by decide, rfl⟩
  · simp only [shortEscapes, List.map_cons, List.map_nil, List.mem_cons, List.not_mem_nil, or_false, not_or] at hc
    obtain ⟨ht, hr, hn, h0, hquote, hslash⟩ := hc
    by_cases hh : hidden c
    · exact .inr (.inl (by simp [quoteChar, ht, hr, hn, h0, hquote, hslash, hh]))
    · exact .inr (.inr ⟨hslash, hquote, by simp [quoteChar, ht, hr, hn, h0, hquote, hslash, hh]⟩)

theorem codePoint_endsItself : EndsItself codePoint := by
  intro c d s t h
  simp only [codePoint, List.cons_append, List.append_assoc, List.cons.injEq, true_and, List.nil_append] at h
  obtain ⟨hcode, rfl⟩ := eq_of_digits_append (by decide) (by decide) (by decide) h
  exact ⟨Char.toNat_inj.1 hcode, rfl⟩

theorem quoteChar_endsItself (hidden : Char → Bool) : EndsItself (quoteChar hidden) := by
  intro c d s t h
  -- the second character tells the ways that begin with a backslash apart, `u` being no short escape
  have hshort : ∀ {k x y}, (k, x) ∈ shortEscapes → (k, y) ∈ shortEscapes → x = y := by
    have hall : ∀ p ∈ shortEscapes, ∀ q ∈ shortEscapes, p.1 = q.1 → p.2 = q.2 := by decide
    exact fun {k x y} hx hy => hall (k, x) hx (k, y) hy rfl
  have hu : ∀ x, ('u', x) ∉ shortEscapes := by simp [shortEscapes]
  obtain ⟨k, hk, hc⟩ | hc | ⟨hslash, -, hc⟩ := quoteChar_cases hidden c <;>
    obtain ⟨k', hk', hd⟩ | hd | ⟨hslash', -, hd⟩ := quoteChar_cases hidden d <;>
    rw [hc, hd] at h
  · obtain ⟨rfl, rfl⟩ : k = k' ∧ s = t := by simpa using h
    exact ⟨hshort hk hk', rfl⟩
  · obtain ⟨rfl, -⟩ : k = 'u' ∧ _ := by simpa [codePoint] using h
    exact absurd hk (hu c)
  · exact absurd (List.cons.inj h).1.symm hslash'
  · obtain ⟨rfl, -⟩ : 'u' = k' ∧ _ := by simpa [codePoint] using h
    exact absurd hk' (hu d)
  · exact codePoint_endsItself h
  · exact absurd (List.cons.inj h).1.symm hslash'
  · exact absurd (List.cons.inj h).1 hslash
  · exact absurd (List.cons.inj h).1 hslash
  · exact List.cons.inj h

theorem head?_quoteChar_ne (hidden : Char → Bool) (c : Char) (s : Text) :
    (quoteChar hidden c ++ s).head? ≠ some '"' := by
  obtain ⟨k, -, hc⟩ | hc | ⟨-, hquote, hc⟩ := quoteChar_cases hidden c <;> rw [hc]
  · simp
  · simp [codePoint]
  · simpa using hquote

theorem quoteAll_eq_flatMap (hidden : Char → Bool) : ∀ s : Text, quoteAll hidden s = s.flatMap (quoteChar hidden)
  | [] => rfl
  | c :: s => by rw [quoteAll, quoteAll_eq_flatMap hidden s, List.flatMap_cons]

/-- **A quoted text ends at the quotation mark** that is no character's, whatever is hidden. -/
theorem quoteHiding_endsItself (hidden : Char → Bool) : EndsItself (quoteHiding hidden) := by
  intro x y s t h
  rw [quoteHiding, quoteHiding, List.cons_append, List.cons_append, List.append_assoc, List.append_assoc,
    quoteAll_eq_flatMap, quoteAll_eq_flatMap] at h
  exact (quoteChar_endsItself hidden).list (head?_quoteChar_ne hidden) (List.cons.inj h).2

/-! ## Sets -/

theorem escapeChar_endsItself : EndsItself escapeChar := by
  intro c d s t h
  have hslash : needsEscape '\\' = true := by decide
  unfold escapeChar at h
  split at h <;> split at h
  · simpa [escape] using h
  · rename_i hd
    exact absurd ((List.cons.inj h).1 ▸ hslash) hd
  · rename_i hc hd
    exact absurd ((List.cons.inj h).1.symm ▸ hslash) hc
  · exact List.cons.inj h

theorem head?_escapeChar_ne {d : Char} (hd : isSpecial d = true) (c : Char) (s : Text) :
    (escapeChar c ++ s).head? ≠ some d := by
  unfold escapeChar
  split
  · intro h
    obtain rfl : '\\' = d := Option.some.inj h
    exact absurd hd (by decide)
  · rename_i hc
    intro h
    obtain rfl : c = d := Option.some.inj h
    exact hc (by rw [needsEscape, hd, Bool.or_true])

end Text

theorem CharRange.print_endsItself : Text.EndsItself CharRange.print := by
  intro r w s t h
  rw [print, print, List.append_assoc, List.append_assoc] at h
  obtain ⟨hlow, h⟩ := Text.escapeChar_endsItself h
  obtain ⟨hhigh, rfl⟩ := Text.escapeChar_endsItself (List.cons.inj h).2
  cases r
  cases w
  cases hlow
  cases hhigh
  exact ⟨rfl, rfl⟩

theorem CharRange.head?_print_ne {d : Char} (hd : Text.isSpecial d = true) (r : CharRange) (s : Text) :
    (r.print ++ s).head? ≠ some d := by
  rw [print, List.append_assoc]
  exact Text.head?_escapeChar_ne hd r.low _

theorem CharRange.printAll_eq_flatMap : ∀ ranges : List CharRange, printAll ranges = ranges.flatMap print
  | [] => rfl
  | r :: ranges => by rw [printAll, printAll_eq_flatMap ranges, List.flatMap_cons]

namespace CharSet

theorem head?_members_ne_dash (members : List Char) (ranges : List CharRange) (s : Text) :
    (Text.escapeAll members ++ (ranges.flatMap CharRange.print ++ ']' :: s)).head? ≠ some '-' := by
  cases members with
  | cons c members =>
    rw [Text.escapeAll, List.append_assoc]
    exact Text.head?_escapeChar_ne (by decide) c _
  | nil =>
    cases ranges with
    | nil => simp [Text.escapeAll]
    | cons r ranges =>
      rw [List.flatMap_cons, List.append_assoc]
      exact r.head?_print_ne (by decide) _

theorem members_ne_ranges (c : Char) (members : List Char) (ranges others : List CharRange) (s t : Text) :
    Text.escapeAll (c :: members) ++ (ranges.flatMap CharRange.print ++ ']' :: s) ≠
      others.flatMap CharRange.print ++ ']' :: t := by
  intro h
  rw [Text.escapeAll, List.append_assoc] at h
  cases others with
  | nil => exact Text.head?_escapeChar_ne (by decide) c _ (congrArg List.head? h)
  | cons w others =>
    rw [List.flatMap_cons, CharRange.print, List.append_assoc, List.append_assoc] at h
    -- the member would be the lower end of the range, but no dash follows it
    obtain ⟨-, hrest⟩ := Text.escapeChar_endsItself h
    exact head?_members_ne_dash members ranges s (congrArg List.head? hrest)

/-- **Members and ranges end at the first bracket that is part of neither.** -/
theorem eq_of_members_append : ∀ {members others : List Char} {ranges others' : List CharRange} {s t : Text},
    Text.escapeAll members ++ (ranges.flatMap CharRange.print ++ ']' :: s) =
      Text.escapeAll others ++ (others'.flatMap CharRange.print ++ ']' :: t) →
    members = others ∧ ranges = others' ∧ s = t
  | [], [], _, _, _, _, h => ⟨rfl, CharRange.print_endsItself.list (CharRange.head?_print_ne (by decide)) h⟩
  | [], _ :: _, _, _, _, _, h => absurd h.symm (members_ne_ranges _ _ _ _ _ _)
  | _ :: _, [], _, _, _, _, h => absurd h (members_ne_ranges _ _ _ _ _ _)
  | c :: members, d :: others, ranges, others', s, t, h => by
    rw [Text.escapeAll, Text.escapeAll, List.append_assoc, List.append_assoc] at h
    obtain ⟨rfl, hrest⟩ := Text.escapeChar_endsItself h
    obtain ⟨rfl, rfl, rfl⟩ := eq_of_members_append hrest
    exact ⟨rfl, rfl, rfl⟩

theorem print_endsItself : Text.EndsItself CharSet.print := by
  intro set other s t h
  simp only [print, CharRange.printAll_eq_flatMap, List.cons_append, List.append_assoc, List.nil_append,
    List.cons.injEq, true_and] at h
  obtain ⟨hmembers, hranges, rfl⟩ := eq_of_members_append h
  cases set
  cases other
  cases hmembers
  cases hranges
  exact ⟨rfl, rfl⟩

end CharSet

/-! ## Quantifiers and spans -/

def Text.IsBehindQuantifier (s : Text) : Prop := (∃ r, s = '\n' :: r) ∨ ∃ r, s = ' ' :: '@' :: r

namespace Quantifier

variable {q q' : Quantifier} {s t : Text}

theorem eq_of_print_append (hq : q.isExplicit = true) (hq' : q'.isExplicit = true)
    (h : q.print ++ s = q'.print ++ t) : q = q' ∧ s = t := by
  cases q <;> cases q' <;> simp only [print, List.cons_append, List.nil_append, List.append_assoc, List.cons.injEq,
    true_and, Char.reduceEq, false_and, isExplicit, Bool.false_eq_true] at h hq hq'
  case between.between low high low' high' =>
    obtain ⟨hlow, h⟩ := Text.eq_of_digits_append (by decide) (by decide) (by decide) h
    obtain ⟨hhigh, rfl⟩ := Text.eq_of_digits_append (by decide) (by decide) (by decide) h
    obtain rfl := UInt32.toNat_inj.1 hlow
    obtain rfl := UInt32.toNat_inj.1 hhigh
    exact ⟨rfl, rfl⟩
  all_goals exact ⟨rfl, h⟩

theorem not_isBehindQuantifier (hq : q.isExplicit = true) (s : Text) :
    ¬ Text.IsBehindQuantifier (' ' :: q.print ++ s) := by
  cases q <;> simp [Text.IsBehindQuantifier, print, isExplicit] at hq ⊢

theorem eq_of_written_append (hs : s.IsBehindQuantifier) (ht : t.IsBehindQuantifier)
    (h : (if q.isExplicit then ' ' :: q.print else []) ++ s = (if q'.isExplicit then ' ' :: q'.print else []) ++ t) :
    q = q' ∧ s = t := by
  by_cases hq : q.isExplicit <;> by_cases hq' : q'.isExplicit
  · rw [if_pos hq, if_pos hq'] at h
    exact eq_of_print_append hq hq' (List.cons.inj h).2
  · rw [if_pos hq, if_neg hq'] at h
    exact absurd (h ▸ ht) (not_isBehindQuantifier hq s)
  · rw [if_neg hq, if_pos hq'] at h
    exact absurd (h ▸ hs) (not_isBehindQuantifier hq' t)
  · have honce : ∀ {x : Quantifier}, ¬ x.isExplicit = true → x = .once := by
      intro x hx
      cases x <;> first | rfl | exact absurd rfl hx
    rw [if_neg hq, if_neg hq'] at h
    exact ⟨(honce hq).trans (honce hq').symm, h⟩

end Quantifier

theorem Span.eq_of_print_append {a b : Span} {s t : Text} (h : a.print ++ '\n' :: s = b.print ++ '\n' :: t) :
    a = b ∧ s = t := by
  simp only [print, List.append_assoc, List.cons_append] at h
  obtain ⟨hstart, h⟩ := Text.eq_of_digits_append (by decide) (by decide) (by decide) h
  obtain ⟨hstop, rfl⟩ := Text.eq_of_digits_append (by decide) (by decide) (by decide) (List.cons.inj h).2
  cases a
  cases b
  cases hstart
  cases hstop
  exact ⟨rfl, rfl⟩

theorem Term.eq_of_outlineTail_append {spans : Bool} {q q' : Quantifier} {a b : Span} {s t : Text}
    (h : outlineTail spans q a ++ '\n' :: s = outlineTail spans q' b ++ '\n' :: t) :
    q = q' ∧ (spans = true → a = b) ∧ s = t := by
  rw [outlineTail, outlineTail, List.append_assoc, List.append_assoc] at h
  have hbehind : ∀ (c : Span) (r : Text),
      Text.IsBehindQuantifier ((if spans then ' ' :: '@' :: c.print else []) ++ '\n' :: r) := by
    intro c r
    cases spans
    · exact .inl ⟨r, rfl⟩
    · exact .inr ⟨_, rfl⟩
  obtain ⟨rfl, hspan⟩ := Quantifier.eq_of_written_append (hbehind a s) (hbehind b t) h
  cases spans
  · exact ⟨rfl, nofun, (List.cons.inj hspan).2⟩
  · obtain ⟨rfl, rfl⟩ := Span.eq_of_print_append (List.cons.inj (List.cons.inj hspan).2).2
    exact ⟨rfl, fun _ => rfl, rfl⟩

end PatternWalk
