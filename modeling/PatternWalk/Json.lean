import PatternWalk.Text
/-!
# Json — values in the JSON format, with their fields in the order given
-/
namespace PatternWalk

inductive Json where
  | null
  | number (n : Nat)
  | text (s : Text)
  | array (items : List Json)
  | object (fields : List (String × Json))

namespace Json

def hex4 (n : Nat) : Text :=
  let digits := Nat.toDigits 16 n
  List.replicate (4 - digits.length) '0' ++ digits

/-- **One character inside a JSON text**: quotation mark, backslash and controls are escaped, nothing else. -/
def escapeChar (c : Char) : Text :=
  if c = '"' then ['\\', '"']
  else if c = '\\' then ['\\', '\\']
  else if c = '\x08' then ['\\', 'b']
  else if c = '\x0c' then ['\\', 'f']
  else if c = '\n' then ['\\', 'n']
  else if c = '\r' then ['\\', 'r']
  else if c = '\t' then ['\\', 't']
  else if c < ' ' then '\\' :: 'u' :: hex4 c.toNat
  else [c]

def quote (s : Text) : String := String.ofList ('"' :: s.flatMap escapeChar ++ ['"'])

mutual
def compact : Json → String
  | null => "null"
  | number n => toString n
  | text s => quote s
  | array items => "[" ++ compactItems items ++ "]"
  | object fields => "\x7b" ++ compactFields fields ++ "\x7d"
def compactItems : List Json → String
  | [] => ""
  | [v] => v.compact
  | v :: w :: items => v.compact ++ "," ++ compactItems (w :: items)
def compactField : String × Json → String
  | (name, v) => quote name.toList ++ ":" ++ v.compact
def compactFields : List (String × Json) → String
  | [] => ""
  | [f] => compactField f
  | f :: g :: fields => compactField f ++ "," ++ compactFields (g :: fields)
end

def newline (level : Nat) : String := "\n" ++ String.ofList (List.replicate (2 * level) ' ')

mutual
/-- **The value with each item and field on a line of its own**, two columns further in for each level. -/
def pretty : Json → (level : Nat) → String
  | null, _ => "null"
  | number n, _ => toString n
  | text s, _ => quote s
  | array [], _ => "[]"
  | array (v :: items), level => "[" ++ prettyItems (v :: items) (level + 1) ++ newline level ++ "]"
  | object [], _ => "\x7b\x7d"
  | object (f :: fields), level => "\x7b" ++ prettyFields (f :: fields) (level + 1) ++ newline level ++ "\x7d"
def prettyItems : List Json → (level : Nat) → String
  | [], _ => ""
  | [v], level => newline level ++ v.pretty level
  | v :: w :: items, level => newline level ++ v.pretty level ++ "," ++ prettyItems (w :: items) level
def prettyField : String × Json → (level : Nat) → String
  | (name, v), level => quote name.toList ++ ": " ++ v.pretty level
def prettyFields : List (String × Json) → (level : Nat) → String
  | [], _ => ""
  | [f], level => newline level ++ prettyField f level
  | f :: g :: fields, level => newline level ++ prettyField f level ++ "," ++ prettyFields (g :: fields) level
end

end Json

end PatternWalk
