import PatternWalk.Proofs.Matching
import PatternWalk.Proofs.Spelling
/-!
# PrintedMatching — a printed pattern matches as before

A pattern that was put together by hand need not be canonical, and then another pattern is read from its printed form:
a quantified literal of several characters has become a group, and neighbouring literals have become one.  The terms
that are read, `Pattern.spread`, still match alike, at every depth (`past?_spread`), and so does what is left after
joining them.  Only one level of groups may have been added.
-/
namespace PatternWalk

/-! ## What is read from a printed pattern matches alike -/

theorem Text.past?_letters :
    ∀ (text : Text) (here : Place), Pattern.past? (text.letters .once) here = here.pastWord? text
  | [], here => (here.pastWord?_nil).symm
  | c :: text, here => by
    have hfirst : here.pastWord? (c :: text) = (here.pastWord? [c]).bind (·.pastWord? text) :=
      here.pastWord?_append [c] text
    have hrest : Pattern.past? (Text.letters text .once) = (·.pastWord? text) := funext (past?_letters text)
    change Pattern.past? (⟨.literal [c], .once, .none⟩ :: Text.letters text .once) here = _
    rw [Pattern.past?, Term.past?_once, hrest, hfirst, Node.past?]

mutual
theorem Term.past?_spread : ∀ {t : Term}, t.Every Term.WellFormed → Pattern.past? t.spread = t.past?
  | ⟨.literal text, q, span⟩, h => by
    have hletters : Pattern.past? (text.letters .once) = (Node.literal text).past? := funext text.past?_letters
    rw [Term.spread, Node.spread]
    split
    · -- in parentheses: the group repeats the word as the literal does
      rw [Pattern.past?_singleton]
      refine Term.past?_congr ?_ q .none span
      exact (Pattern.past?_coalesce _).trans hletters
    · rename_i hgroup
      have hproper : text ≠ [] := h.self.proper
      match text, q, hgroup, hletters with
      | [], _, _, _ => exact absurd rfl hproper
      | [c], q, _, _ => exact (Pattern.past?_singleton _).trans (Term.past?_congr rfl q .none span)
      | _ :: _ :: _, .once, _, hletters => rw [hletters, Term.past?_once]
  | ⟨.charSet set, q, span⟩, _ => (Pattern.past?_singleton _).trans (Term.past?_congr rfl q .none span)
  | ⟨.group body, q, span⟩, h => by
    rw [Term.spread, Node.spread, Pattern.past?_singleton]
    refine Term.past?_congr ?_ q .none span
    exact (Pattern.past?_coalesce _).trans (Pattern.past?_spread h.2)
/-- **The terms that are read from the printed form of a pattern** match as the pattern does. -/
theorem Pattern.past?_spread : ∀ {p : Pattern}, p.Every Term.WellFormed → Pattern.past? p.spread = p.past?
  | [], _ => rfl
  | t :: p, h => by
    funext here
    rw [Pattern.spread, Pattern.past?_append, Term.past?_spread h.1, Pattern.past?_spread h.2, Pattern.past?]
end

/-! ## Nesting -/

theorem Text.depth_letters (q : Quantifier) : ∀ text : Text, Pattern.depth (text.letters q) = 0
  | [] => rfl
  | c :: text => by
    change max _ (Pattern.depth (letters text q)) = 0
    rw [depth_letters q text]
    rfl

mutual
theorem Node.depth_spread_le (q : Quantifier) : ∀ n : Node, Pattern.depth (n.spread q) ≤ n.depth + 1
  | .literal text => by
    rw [Node.spread]
    split
    · simp [Pattern.depth, Term.depth, Node.depth, Pattern.depth_coalesce, Text.depth_letters]
    · simp [Text.depth_letters]
  | .charSet set => by simp [Node.spread, Pattern.depth, Term.depth, Node.depth]
  | .group body => by
    have hbody := Pattern.depth_spread_le body
    simp only [Node.spread, Pattern.depth, Term.depth, Node.depth, Pattern.depth_coalesce]
    omega
theorem Term.depth_spread_le : ∀ t : Term, Pattern.depth t.spread ≤ t.depth + 1
  | ⟨n, q, _⟩ => n.depth_spread_le q
theorem Pattern.depth_spread_le : ∀ p : Pattern, p.spread.depth ≤ p.depth + 1
  | [] => Nat.zero_le _
  | t :: p => by
    have ht := t.depth_spread_le
    have hp := Pattern.depth_spread_le p
    rw [Pattern.spread, Pattern.depth_append, Pattern.depth]
    omega
end

/-- **Printing keeps the matches of a pattern.**  A pattern without anything empty and without bounds out of order,
canonical or not, can be read from its printed form within every limit that admits one more level of groups than it
has, and what is read matches at every offset of every text as the pattern does. -/
theorem Pattern.matchAt_read_print (p : Pattern) (limits : Limits) (h : p.Every Term.WellFormed)
    (hn : p.depth + 1 ≤ limits.nesting) :
    ∃ q, Pattern.read p.print limits = .ok q ∧ ∀ source offset, q.matchAt source offset = p.matchAt source offset := by
  obtain ⟨q, hq, hspans⟩ := Grammar.exists_read_print h (Nat.le_trans p.depth_spread_le hn)
  have hpast : q.past? = p.past? := by
    rw [← q.past?_eraseSpans, hspans, past?_coalesce, past?_spread h]
  exact ⟨q, hq, fun source offset => congrFun (congrFun (matchAt_congr hpast) source) offset⟩

/-- The literal `ab` under `+`, with `c` and `-` as two literals behind it in a group, is printed as `((ab)+c\-){1,2}`.
What is read from this is another pattern, which finds the same match in `xababc-`. -/
theorem Pattern.matchAt_read_print_group : ∃ p q : Pattern,
    p = [⟨.group [⟨.literal ['a', 'b'], .oneOrMore, ⟨1, 4⟩⟩, ⟨.literal ['c'], .once, ⟨4, 5⟩⟩,
      ⟨.literal ['-'], .once, ⟨5, 6⟩⟩], .between 1 2, ⟨0, 12⟩⟩] ∧
    p.Every Term.WellFormed ∧ p.depth + 1 ≤ 2 ∧ p.print = "((ab)+c\\-)\x7b1,2\x7d".toList ∧
    Pattern.read p.print ⟨2⟩ = .ok q ∧ q.eraseSpans ≠ p.eraseSpans ∧
    q.matchAt "xababc-".toList 1 = p.matchAt "xababc-".toList 1 ∧
    p.matchAt "xababc-".toList 1 = some ⟨1, "ababc-".toList⟩ := by
  obtain ⟨p, hp⟩ : ∃ p : Pattern, p = [⟨.group [⟨.literal ['a', 'b'], .oneOrMore, ⟨1, 4⟩⟩,
    ⟨.literal ['c'], .once, ⟨4, 5⟩⟩, ⟨.literal ['-'], .once, ⟨5, 6⟩⟩], .between 1 2, ⟨0, 12⟩⟩] := ⟨_, rfl⟩
  have hwell : p.Every Term.WellFormed := by subst hp; decide
  have hdepth : p.depth + 1 ≤ 2 := by subst hp; decide
  have hprint : p.print = "((ab)+c\\-)\x7b1,2\x7d".toList := by subst hp; decide +kernel
  have hmatch : p.matchAt "xababc-".toList 1 = some ⟨1, "ababc-".toList⟩ := by subst hp; decide +kernel
  obtain ⟨q, hq, hsame⟩ := matchAt_read_print p ⟨2⟩ hwell hdepth
  have hother : (Pattern.read p.print ⟨2⟩).map eraseSpans ≠ .ok p.eraseSpans := by subst hp; decide +kernel
  rw [hq] at hother
  exact ⟨p, q, hp, hwell, hdepth, hprint, hq, fun heq => hother (congrArg Except.ok heq), hsame _ _, hmatch⟩

end PatternWalk
