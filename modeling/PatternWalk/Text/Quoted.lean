import PatternWalk.Text
import PatternWalk.Text.CombiningMark
import PatternWalk.Text.Printable
/-!
# Quoted — a text between quotation marks, in one line

A quotation mark and a backslash stand behind a backslash; tab, carriage return, line feed and the null character have
short escapes; any other character that would not show as itself is given by its code point in hexadecimal digits.
-/
namespace PatternWalk

namespace Text

/-- A character that is shown by its code point: not printable, or extending the character before it. -/
def isHidden (c : Char) : Bool := isCombining c || !isPrintable c

def codePoint (c : Char) : Text := '\\' :: 'u' :: '{' :: Nat.toDigits 16 c.toNat ++ ['}']

def quoteChar (hidden : Char → Bool) (c : Char) : Text :=
  if c = '\t' then ['\\', 't']
  else if c = '\r' then ['\\', 'r']
  else if c = '\n' then ['\\', 'n']
  else if c = '\x00' then ['\\', '0']
  else if c = '"' then ['\\', '"']
  else if c = '\\' then ['\\', '\\']
  else if hidden c then codePoint c
  else [c]

def quoteAll (hidden : Char → Bool) : Text → Text
  | [] => []
  | c :: s => quoteChar hidden c ++ quoteAll hidden s

/-- **A text in quotation marks**, where `hidden` says which characters are shown by code point. -/
def quoteHiding (hidden : Char → Bool) (s : Text) : Text := '"' :: quoteAll hidden s ++ ['"']

def quote (s : Text) : Text := quoteHiding isHidden s

end Text

end PatternWalk
