import PatternWalk.Pattern.Printer
import PatternWalk.Text.Quoted
/-!
# Outline — a pattern as an indented tree, one term a line

A line holds the node, the quantifier if one is written, and on demand the span.  The body of a group follows its line,
two columns further in.
-/
namespace PatternWalk

def Text.indent (depth : Nat) : Text := List.replicate (2 * depth) ' '

def Span.print (a : Span) : Text := Text.decimal a.start ++ '.' :: '.' :: Text.decimal a.stop

def Text.unlines : List Text → Text
  | [] => []
  | line :: lines => line ++ '\n' :: unlines lines

/-- What a line of the outline says of a node, where `hidden` says which characters of a literal are shown by code
point. -/
def Node.outlineHead (hidden : Char → Bool) : Node → Text
  | .literal text => "Literal ".toList ++ text.quoteHiding hidden
  | .charSet set => "CharSet ".toList ++ set.print
  | .group _ => "Group".toList

def Term.outlineTail (spans : Bool) (q : Quantifier) (span : Span) : Text :=
  (if q.isExplicit then ' ' :: q.print else []) ++ (if spans then ' ' :: '@' :: span.print else [])

mutual
def Node.outlineBelow (hidden : Char → Bool) (spans : Bool) : Node → (depth : Nat) → List Text
  | .literal _, _ | .charSet _, _ => []
  | .group body, depth => Pattern.outlineLines hidden spans body (depth + 1)
def Term.outlineLines (hidden : Char → Bool) (spans : Bool) : Term → (depth : Nat) → List Text
  | ⟨node, q, span⟩, depth =>
    (Text.indent depth ++ node.outlineHead hidden ++ Term.outlineTail spans q span) ::
      node.outlineBelow hidden spans depth
def Pattern.outlineLines (hidden : Char → Bool) (spans : Bool) : Pattern → (depth : Nat) → List Text
  | [], _ => []
  | t :: p, depth => t.outlineLines hidden spans depth ++ Pattern.outlineLines hidden spans p depth
end

/-- **The outline of a pattern**, with the span of each term on demand, where `hidden` says which characters of a
literal are shown by code point. -/
def Pattern.outlineHiding (hidden : Char → Bool) (p : Pattern) (spans : Bool) : Text :=
  Text.unlines ("Pattern".toList :: Pattern.outlineLines hidden spans p 1)

def Pattern.outline (p : Pattern) (spans : Bool) : Text := p.outlineHiding Text.isHidden spans

end PatternWalk
