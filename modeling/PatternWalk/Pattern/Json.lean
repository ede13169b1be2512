import PatternWalk.Json
import PatternWalk.Pattern.Basic
/-!
# Json — a pattern as a JSON value
-/
namespace PatternWalk

def Span.toJson (a : Span) : Json := .object [("start", .number a.start), ("end", .number a.stop)]

def Quantifier.toJson : Quantifier → Json
  | .once => .object [("kind", .text "exactly_one".toList)]
  | .zeroOrMore => .object [("kind", .text "zero_or_more".toList)]
  | .zeroOrOne => .object [("kind", .text "zero_or_one".toList)]
  | .oneOrMore => .object [("kind", .text "one_or_more".toList)]
  | .between low high =>
    .object [("kind", .text "range".toList), ("min", .number low.toNat), ("max", .number high.toNat)]

def CharRange.toJson (r : CharRange) : Json := .object [("low", .text [r.low]), ("high", .text [r.high])]

mutual
def Node.toJson : Node → Json
  | .literal text => .object [("kind", .text "literal".toList), ("text", .text text)]
  | .charSet set => .object [("kind", .text "char_set".toList),
      ("members", .array (set.members.map fun c => .text [c])),
      ("ranges", .array (set.ranges.map CharRange.toJson))]
  | .group body => .object [("kind", .text "group".toList),
      ("body", .object [("terms", .array (Pattern.termsToJson body))])]
def Term.toJson : Term → Json
  | ⟨node, q, span⟩ => .object [("node", node.toJson), ("quantifier", q.toJson), ("span", span.toJson)]
def Pattern.termsToJson : Pattern → List Json
  | [] => []
  | t :: p => t.toJson :: Pattern.termsToJson p
end

def Pattern.toJson (p : Pattern) : Json := .object [("terms", .array (Pattern.termsToJson p))]

end PatternWalk
