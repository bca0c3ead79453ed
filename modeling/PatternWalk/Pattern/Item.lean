import PatternWalk.Pattern.Symbol

/-!
# Items

A pattern is a row of items.  An item asks for one character, either a given
ASCII character or any character at all, and may be followed by a quantifier:
a star for any number of repetitions, a plus for at least one.
-/

namespace PatternWalk

/-!
# Atoms
-/

inductive Atom where
  | any
  | char (c : Char)
deriving DecidableEq

namespace Atom

def accepts : Atom -> Char -> Bool
  | any, _ => true
  | char wanted, c => wanted = c

/-- The atom a symbol stands for.  Only ASCII characters can be asked for. -/
def ofSymbol? : Symbol -> Option Atom
  | Symbol.dot => some any
  | Symbol.literal c => if c.val < 128 then some (char c) else none
  | _ => none

def symbol : Atom -> Symbol
  | any => Symbol.dot
  | char c => Symbol.literal c

theorem symbol_of_ofSymbol? {s : Symbol} {a : Atom}
    (h : ofSymbol? s = some a) : a.symbol = s := by
  cases s with
  | literal c =>
      simp only [ofSymbol?] at h
      split at h
      · cases h
        rfl
      · cases h
  | dot =>
      cases h
      rfl
  | star => cases h
  | plus => cases h
  | reserved r => cases h

end Atom

/-!
# Quantifiers
-/

inductive Quantifier where
  | star
  | plus
deriving DecidableEq

namespace Quantifier

def ofSymbol? : Symbol -> Option Quantifier
  | Symbol.star => some star
  | Symbol.plus => some plus
  | _ => none

def symbol : Quantifier -> Symbol
  | star => Symbol.star
  | plus => Symbol.plus

@[simp] theorem ofSymbol?_symbol (q : Quantifier) : ofSymbol? q.symbol = some q := by
  cases q <;> rfl

theorem symbol_of_ofSymbol? {s : Symbol} {q : Quantifier}
    (h : ofSymbol? s = some q) : q.symbol = s := by
  cases s with
  | star =>
      cases h
      rfl
  | plus =>
      cases h
      rfl
  | literal c => cases h
  | dot => cases h
  | reserved r => cases h

theorem ofSymbol?_eq_none_of_atom {s : Symbol} {a : Atom}
    (h : Atom.ofSymbol? s = some a) : ofSymbol? s = none := by
  rw [<- Atom.symbol_of_ofSymbol? h]
  cases a <;> rfl

end Quantifier

/-!
# Rows of items
-/

structure Item where
  atom : Atom
  quantifier : Option Quantifier
deriving DecidableEq

namespace Item

def accepts (item : Item) (c : Char) : Bool :=
  item.atom.accepts c

def isRepeated (item : Item) : Bool :=
  item.quantifier.isSome

def isStarred (item : Item) : Bool :=
  item.quantifier = some Quantifier.star

theorem isRepeated_of_isStarred {item : Item} (h : item.isStarred = true) :
    item.isRepeated = true := by
  rcases item with ⟨a, _ | q⟩
  · cases h
  · rfl

def symbols (item : Item) : List Symbol :=
  item.atom.symbol :: (item.quantifier.map Quantifier.symbol).toList

def spell (items : List Item) : List Symbol :=
  items.flatMap symbols

/-- Read a row of items.  A symbol that is no atom has no place at the front of
an item, and an item has at most one quantifier. -/
def read? : List Symbol -> Option (List Item)
  | [] => some []
  | s :: rest =>
      match Atom.ofSymbol? s with
      | none => none
      | some a =>
          match rest with
          | [] => some [⟨a, none⟩]
          | q :: rest' =>
              match Quantifier.ofSymbol? q with
              | some q => (read? rest').map (fun items => ⟨a, some q⟩ :: items)
              | none => (read? (q :: rest')).map (fun items => ⟨a, none⟩ :: items)

def ofText? (text : String) : Option (List Item) :=
  read? (Symbol.ofText text)

theorem spell_of_read? {symbols : List Symbol} {items : List Item}
    (h : read? symbols = some items) : spell items = symbols := by
  fun_induction read? symbols generalizing items with
  | case1 =>
      cases h
      rfl
  | case2 s rest hatom => cases h
  | case3 s a hatom =>
      cases h
      simp [spell, Item.symbols, Atom.symbol_of_ofSymbol? hatom]
  | case4 s a hatom q rest quantifier hquantifier ih =>
      rcases Option.map_eq_some_iff.mp h with ⟨tail, htail, rfl⟩
      have hrest := ih htail
      simp only [spell] at hrest
      simp [spell, Item.symbols, Atom.symbol_of_ofSymbol? hatom,
        Quantifier.symbol_of_ofSymbol? hquantifier, hrest]
  | case5 s a hatom q rest hquantifier ih =>
      rcases Option.map_eq_some_iff.mp h with ⟨tail, htail, rfl⟩
      have hrest := ih htail
      simp only [spell] at hrest
      simp [spell, Item.symbols, Atom.symbol_of_ofSymbol? hatom, hrest]

end Item

end PatternWalk
