import PatternWalk.Pattern.Cursor

/-!
# Reading without loss

A text is read into symbols one character at a time, and what is read can be written out
again as the same text.  The other way round, symbols that are written out are read again as
they were, unless one of them is a literal metacharacter: this would be read as the symbol
that the character stands for.  Reading goes on symbol by symbol to the end and no further.
-/

namespace PatternWalk

/-!
# Metacharacters
-/

namespace Symbol

def metacharacters : List Char :=
  ['.', '*', '+', '?', '|', '(', ')', '\x7b', '\x7d', '[', ']', '^', '$', '\\']

def special : List Symbol :=
  dot :: star :: plus :: Reserved.all.map reserved

theorem metacharacters_eq : metacharacters = special.map char := rfl

theorem mem_special_iff {s : Symbol} : s ∈ special <-> forall c : Char, s ≠ literal c := by
  cases s with
  | literal c =>
      apply iff_of_false
      · simp [special]
      · intro h
        exact h c rfl
  | dot | star | plus => exact iff_of_true (by simp [special]) nofun
  | reserved r => exact iff_of_true (by simp [special, Reserved.mem_all]) nofun

theorem mem_metacharacters_iff {c : Char} : c ∈ metacharacters <-> ofChar c ≠ literal c := by
  rw [metacharacters_eq, List.mem_map]
  constructor
  · intro h
    rcases h with ⟨s, hs, rfl⟩
    have hother := mem_special_iff.mp hs
    have hplain : ¬ s.IsDisguised := by
      intro hdisguised
      rcases hdisguised with ⟨c, hliteral, _⟩
      exact hother c hliteral
    rw [ofChar_char hplain]
    exact hother s.char
  · intro h
    refine ⟨ofChar c, mem_special_iff.mpr ?_, char_ofChar c⟩
    intro d hd
    have hchar := char_ofChar c
    rw [hd] at h hchar
    exact h (congrArg literal hchar)

theorem isDisguised_iff {s : Symbol} :
    s.IsDisguised <-> exists c : Char, c ∈ metacharacters ∧ s = literal c := by
  constructor
  · intro h
    rcases h with ⟨c, hs, hne⟩
    exact ⟨c, mem_metacharacters_iff.mpr hne, hs⟩
  · intro h
    rcases h with ⟨c, hmem, hs⟩
    exact ⟨c, hs, mem_metacharacters_iff.mp hmem⟩

theorem ofChar_char_iff {s : Symbol} : ofChar s.char = s <-> ¬ s.IsDisguised := by
  constructor
  · intro h hdisguised
    rcases hdisguised with ⟨c, rfl, hne⟩
    exact hne h
  · exact ofChar_char

theorem ofText_text_iff {symbols : List Symbol} :
    ofText (text symbols) = symbols <-> forall s : Symbol, s ∈ symbols -> ¬ s.IsDisguised := by
  rw [text, ofText, String.toList_ofList]
  induction symbols with
  | nil => exact iff_of_true rfl (List.forall_mem_nil _)
  | cons s rest ih =>
      rw [List.map_cons, List.map_cons, List.cons.injEq, ofChar_char_iff, ih,
        List.forall_mem_cons]

example : ofText (text [literal 'a', literal '*']) = [literal 'a', star] := by decide

theorem length_ofText (s : String) : (ofText s).length = s.length := by
  rw [ofText, List.length_map, String.length_toList]

end Symbol

/-!
# Reading and writing
-/

namespace Cursor

/-- Reading a text gives one symbol for each character, at its position, and these spell the
text.  They are the answers to as many questions, after which there is none, and the length of
the whole can be asked for at any time.  Symbols that are written out are read again just when
none of them is a literal metacharacter. -/
theorem reading_is_lossless :
    (forall text : String,
      (ofText text).symbols.map Placed.position = List.range text.length ∧
        Symbol.text ((ofText text).symbols.map Placed.symbol) = text ∧
        forall n : Nat,
          ((ofText text).asked n).next?.map Prod.fst = (ofText text).symbols[n]? ∧
            ((ofText text).asked n).length = text.length ∧
            (((ofText text).asked n).next? = none ->
              forall m : Nat, ((ofText text).asked (n + m)).next? = none)) ∧
      forall symbols : List Symbol,
        (ofText (Symbol.text symbols)).symbols.map Placed.symbol = symbols <->
          forall c : Char, c ∈ Symbol.metacharacters -> ¬ Symbol.literal c ∈ symbols := by
  constructor
  · intro text
    constructor
    · rw [ofText, map_position_symbols, Symbol.length_ofText, List.range_eq_range']
    constructor
    · rw [ofText, map_symbol_symbols, Symbol.text_ofText]
    · intro n
      constructor
      · exact next?_asked (ofText text) n
      constructor
      · rw [length_asked, length, ofText, Symbol.length_ofText, Nat.zero_add]
      · intro hexhausted m
        rw [asked_add, asked_of_exhausted hexhausted]
        exact hexhausted
  · intro symbols
    rw [ofText, map_symbol_symbols, Symbol.ofText_text_iff]
    constructor
    · intro h c hmem hliteral
      exact h _ hliteral (Symbol.isDisguised_iff.mpr ⟨c, hmem, rfl⟩)
    · intro h s hs hdisguised
      rcases Symbol.isDisguised_iff.mp hdisguised with ⟨c, hmem, rfl⟩
      exact h c hmem hs

end Cursor
end PatternWalk
