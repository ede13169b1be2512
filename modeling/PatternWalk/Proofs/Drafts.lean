import PatternWalk.Proofs.Grammar
import PatternWalk.Reader
/-!
# Drafts — derivations that are still being read

Between two characters the reader has seen an initial part of a derivation: on each open level the phrases that are
complete, and on the innermost one a piece that is not.  A draft is such a part.  `Draft.text` is the text it derives,
which is the text read so far, and `Draft.reader` is the state the reader is in.
-/
namespace PatternWalk
namespace Grammar

inductive Slot where
  /-- Where a term may begin. -/
  | term
  /-- In a set, behind items. -/
  | item (items : List Item)
  /-- In a set, behind items, the low end of a range and its dash. -/
  | rangeEnd (items : List Item) (low : Letter)

inductive Piece where
  /-- A letter may follow; with its backslash read, a letter must follow. -/
  | slot (slot : Slot) (escaped : Bool)
  /-- An atom that may take a suffix. -/
  | atom (atom : Atom)
  /-- In a set, behind items and a letter that may begin a range. -/
  | letter (items : List Item) (letter : Letter)
  /-- An atom, an opening brace, the first bound and the comma if they are there, and digits. -/
  | bound (atom : Atom) (low? : Option Bound) (digits : Text) (decimal : ∀ c ∈ digits, c.isDigit = true)

/-- **A derivation that is still being read.** -/
structure Draft where
  /-- For each open group, the innermost first, the phrases before it on the level it stands on. -/
  outer : List Derivation
  /-- The complete phrases of the innermost level. -/
  phrases : Derivation
  piece : Piece

/-! ## The text read so far -/

def Slot.text : Slot → Text
  | term => []
  | item items => '[' :: items.flatMap Item.text
  | rangeEnd items low => '[' :: items.flatMap Item.text ++ low.text ++ ['-']

def Bound.textOf : Option Bound → Text
  | none => []
  | some low => low.digits ++ [',']

def Piece.text : Piece → Text
  | slot s false => s.text
  | slot s true => s.text ++ ['\\']
  | atom a => a.text
  | letter items l => '[' :: items.flatMap Item.text ++ l.text
  | bound a low? digits _ => a.text ++ '{' :: Bound.textOf low? ++ digits

namespace Draft

def outerText : List Derivation → Text
  | [] => []
  | before :: outer => outerText outer ++ Derivation.text before ++ ['(']

def front (outer : List Derivation) (phrases : Derivation) : Text := outerText outer ++ Derivation.text phrases

def text (z : Draft) : Text := front z.outer z.phrases ++ z.piece.text

theorem size_text (z : Draft) : z.text.size = (front z.outer z.phrases).size + z.piece.text.size :=
  Text.size_append _ _

theorem size_front (outer : List Derivation) (phrases : Derivation) :
    (front outer phrases).size = (outerText outer).size + (Derivation.text phrases).size :=
  Text.size_append _ _

end Draft

/-! ## Nesting -/

def Piece.depth : Piece → Nat
  | atom a | bound a _ _ _ => a.depth
  | slot _ _ | letter _ _ => 0

namespace Draft

/-- The groups nested in one another before the innermost level, those that are open included. -/
def outerDepth : List Derivation → Nat
  | [] => 0
  | before :: outer => max (outerDepth outer) (Derivation.depth before + outer.length)

def depth (z : Draft) : Nat :=
  max (outerDepth z.outer) (max (Derivation.depth z.phrases) z.piece.depth + z.outer.length)

end Draft

/-! ## The state of the reader -/

def digitsValue? : Text → Option Nat
  | [] => none
  | c :: digits => some (Nat.ofDigitChars 10 (c :: digits) 0)

theorem digitsValue?_concat (digits : Text) (c : Char) :
    digitsValue? (digits ++ [c]) = some ((digitsValue? digits).getD 0 * 10 + (c.toNat - '0'.toNat)) := by
  cases digits with
  | nil => simp [digitsValue?, Nat.ofDigitChars_cons]
  | cons d digits =>
    rw [List.cons_append, digitsValue?, digitsValue?, ← List.cons_append, Nat.ofDigitChars_append,
      Nat.ofDigitChars_cons, Nat.ofDigitChars_nil, Nat.mul_comm]
    rfl

theorem Bound.digitsValue? (b : Bound) : Grammar.digitsValue? b.digits = some b.value := by
  unfold Grammar.digitsValue?
  split
  · rename_i h
    exact absurd h b.nonempty
  · rename_i h
    rw [value, h]

def Piece.mode (start : Nat) : Piece → Reader.Mode
  | slot .term _ => .ready
  | slot (.item items) _ => .item start (Item.charSet items)
  | slot (.rangeEnd items low) _ =>
    .dash start (Item.charSet items) low.char (start + Text.size ('[' :: items.flatMap Item.text))
      (start + Text.size ('[' :: items.flatMap Item.text ++ low.text))
  | atom a => .atom (a.node start) start
  | letter items l =>
    .low start (Item.charSet items) l.char (start + Text.size ('[' :: items.flatMap Item.text))
  | bound a low? digits _ =>
    .bound (a.node start) start (start + a.text.size) (low?.map (·.value.toUInt32)) (digitsValue? digits)

def Piece.escape? (start : Nat) : Piece → Option Nat
  | slot s true => some (start + s.text.size)
  | _ => none

namespace Draft

def openGroups : List Derivation → List Reader.OpenGroup
  | [] => []
  | before :: outer =>
    ⟨(front outer before).size, Derivation.terms before (outerText outer).size⟩ ::
      openGroups outer

def reader (z : Draft) : Reader where
  outer := openGroups z.outer
  terms := Derivation.terms z.phrases (outerText z.outer).size
  mode := z.piece.mode (front z.outer z.phrases).size
  escape? := z.piece.escape? (front z.outer z.phrases).size
  reached := z.text.size

def initial : Draft := ⟨[], [], .slot .term false⟩

@[simp] theorem length_openGroups : ∀ outer : List Derivation, (openGroups outer).length = outer.length
  | [] => rfl
  | _ :: outer => by rw [openGroups, List.length_cons, List.length_cons, length_openGroups outer]

end Draft

theorem Item.charSet_concat_member (items : List Item) (l : Letter) :
    charSet (items ++ [.member l]) = (charSet items).insert l.char := by
  have hm : (items ++ [member l]).filterMap member? = items.filterMap member? ++ [l.char] := by
    simp [member?]
  have hr : (items ++ [member l]).filterMap range? = items.filterMap range? := by simp [range?]
  unfold CharSet.insert
  split
  · rename_i h
    simp only [charSet, hm, hr, CharSet.mk.injEq, and_true]
    exact eraseDups_concat_of_mem h
  · rename_i h
    simp only [charSet, hm, hr, CharSet.mk.injEq, and_true]
    exact eraseDups_concat_of_notMem h

theorem Item.charSet_concat_range (items : List Item) (low high : Letter) (h : low.char ≤ high.char) :
    charSet (items ++ [.range low high h]) = (charSet items).insertRange ⟨low.char, high.char⟩ := by
  have hm : (items ++ [range low high h]).filterMap member? = items.filterMap member? := by simp [member?]
  have hr : (items ++ [range low high h]).filterMap range? = items.filterMap range? ++ [⟨low.char, high.char⟩] := by
    simp [range?]
  simp only [charSet, CharSet.insertRange, hm, hr]

theorem Item.isEmpty_charSet (items : List Item) : (charSet items).isEmpty = items.isEmpty := by
  cases items with
  | nil => rfl
  | cons i items => cases i <;> simp [charSet, CharSet.isEmpty, member?, range?, List.eraseDups_cons]

end Grammar
end PatternWalk
