/-!
# Pattern symbols

Each character of a pattern is one symbol.  A dot stands for any character, a
star or a plus repeats what stands before it, eleven further characters are
reserved for later use, and every other character stands for itself.  Reading a
symbol and writing it out again gives back the same character.
-/

namespace PatternWalk

/-!
# Reserved characters
-/

inductive Reserved where
  | question
  | bar
  | openParen
  | closeParen
  | openBrace
  | closeBrace
  | openBracket
  | closeBracket
  | caret
  | dollar
  | backslash
deriving DecidableEq

namespace Reserved

def all : List Reserved :=
  [question, bar, openParen, closeParen, openBrace, closeBrace,
    openBracket, closeBracket, caret, dollar, backslash]

def char : Reserved -> Char
  | question => '?'
  | bar => '|'
  | openParen => '('
  | closeParen => ')'
  | openBrace => '\x7b'
  | closeBrace => '\x7d'
  | openBracket => '['
  | closeBracket => ']'
  | caret => '^'
  | dollar => '$'
  | backslash => '\\'

def ofChar? : Char -> Option Reserved
  | '?' => some question
  | '|' => some bar
  | '(' => some openParen
  | ')' => some closeParen
  | '\x7b' => some openBrace
  | '\x7d' => some closeBrace
  | '[' => some openBracket
  | ']' => some closeBracket
  | '^' => some caret
  | '$' => some dollar
  | '\\' => some backslash
  | _ => none

theorem mem_all (r : Reserved) : r ∈ all := by
  cases r <;> decide

@[simp] theorem ofChar?_char (r : Reserved) : ofChar? r.char = some r := by
  cases r <;> rfl

theorem char_of_ofChar? {c : Char} {r : Reserved}
    (h : ofChar? c = some r) : r.char = c := by
  unfold ofChar? at h
  split at h <;> cases h <;> rfl

end Reserved

/-!
# Symbols
-/

inductive Symbol where
  | literal (c : Char)
  | dot
  | star
  | plus
  | reserved (r : Reserved)
deriving DecidableEq

namespace Symbol

def char : Symbol -> Char
  | literal c => c
  | dot => '.'
  | star => '*'
  | plus => '+'
  | reserved r => r.char

def ofChar (c : Char) : Symbol :=
  if c = '.' then dot
  else if c = '*' then star
  else if c = '+' then plus
  else
    match Reserved.ofChar? c with
    | some r => reserved r
    | none => literal c

/-- A literal whose character would be read as something else. -/
def IsDisguised (s : Symbol) : Prop :=
  exists c : Char, s = literal c ∧ ofChar c ≠ literal c

@[simp] theorem char_ofChar (c : Char) : (ofChar c).char = c := by
  unfold ofChar
  split
  · simp_all [char]
  · split
    · simp_all [char]
    · split
      · simp_all [char]
      · cases h : Reserved.ofChar? c with
        | none => rfl
        | some r => exact Reserved.char_of_ofChar? h

theorem ofChar_char {s : Symbol} (h : ¬ s.IsDisguised) : ofChar s.char = s := by
  cases s with
  | literal c =>
      show ofChar c = literal c
      by_cases hc : ofChar c = literal c
      · exact hc
      · exact absurd ⟨c, rfl, hc⟩ h
  | dot => rfl
  | star => rfl
  | plus => rfl
  | reserved r => cases r <;> rfl

/-!
# Texts
-/

def ofText (text : String) : List Symbol :=
  text.toList.map ofChar

def text (symbols : List Symbol) : String :=
  String.ofList (symbols.map char)

@[simp] theorem text_ofText (s : String) : text (ofText s) = s := by
  have hchars : (s.toList.map ofChar).map char = s.toList := by
    rw [List.map_map]
    exact List.map_id'' char_ofChar s.toList
  rw [text, ofText, hchars, String.ofList_toList]

end Symbol

end PatternWalk
