/-!
# Quoted characters

A character is shown between single quotes.  Six characters have a short escape
of their own, a character of a further set is hidden behind its code point, in
lower-case hexadecimal between braces, and every other character stands for
itself.  Which characters are hidden is left to the caller: whatever the set
is, a line feed never stands for itself, and every character can be told apart
from every other one by what is written for it.
-/

namespace PatternWalk
namespace Text

/-!
# Code points in hexadecimal
-/

/-- The code point of a character in lower-case hexadecimal, without leading zeros. -/
def hexDigits (c : Char) : List Char :=
  Nat.toDigits 16 c.toNat

/-!
# Escapes
-/

/-- What follows the backslash when a character has a short escape. -/
def shortEscape? : Char -> Option Char
  | '\x00' => some '0'
  | '\t' => some 't'
  | '\n' => some 'n'
  | '\r' => some 'r'
  | '\'' => some '\''
  | '\\' => some '\\'
  | _ => none

def escape (hidden : Char -> Bool) (c : Char) : List Char :=
  match shortEscape? c with
  | some e => ['\\', e]
  | none =>
      if hidden c then
        '\\' :: 'u' :: '\x7b' :: hexDigits c ++ ['\x7d']
      else
        [c]

def quoted (hidden : Char -> Bool) (c : Char) : String :=
  String.ofList ('\'' :: escape hidden c ++ ['\''])

end Text
end PatternWalk
