import PatternWalk.Pattern.Item

/-!
# Reading texts put together

Two texts that are read as rows of items are read together as the one row behind the
other, unless the second one begins with a quantifier: it would repeat the last item
of the first.  A text that is read as a row never begins with one.  A text in the
middle that writes out a single item therefore puts just this item between the rows.
-/

namespace PatternWalk
namespace Item

/-!
# Symbols behind an item
-/

def Opens : List Symbol -> Prop
  | [] => True
  | s :: _ => Quantifier.ofSymbol? s = none

theorem opens_of_read? {symbols : List Symbol} {items : List Item}
    (h : read? symbols = some items) : Opens symbols := by
  cases symbols with
  | nil => exact trivial
  | cons s rest =>
      cases hatom : Atom.ofSymbol? s with
      | none =>
          rw [read?, hatom] at h
          cases h
      | some a => exact Quantifier.ofSymbol?_eq_none_of_atom hatom

theorem opens_symbols_append (item : Item) (rest : List Symbol) :
    Opens (item.symbols ++ rest) := by
  rcases item with ⟨_ | c, q⟩ <;> rfl

theorem read?_atom_cons {s : Symbol} {a : Atom} (hatom : Atom.ofSymbol? s = some a)
    {rest : List Symbol} (hrest : Opens rest) :
    read? (s :: rest) = (read? rest).map (fun items => ⟨a, none⟩ :: items) := by
  rw [read?]
  cases rest with
  | nil =>
      simp only [hatom]
      rfl
  | cons q rest =>
      have hquantifier : Quantifier.ofSymbol? q = none := hrest
      simp only [hatom, hquantifier]

theorem read?_quantifier_cons {s r : Symbol} {a : Atom} {q : Quantifier}
    (hatom : Atom.ofSymbol? s = some a) (hquantifier : Quantifier.ofSymbol? r = some q)
    (rest : List Symbol) :
    read? (s :: r :: rest) = (read? rest).map (fun items => ⟨a, some q⟩ :: items) := by
  rw [read?]
  simp only [hatom, hquantifier]

theorem read?_symbols_append {item : Item}
    (hatom : Atom.ofSymbol? item.atom.symbol = some item.atom) {rest : List Symbol}
    (hrest : Opens rest) :
    read? (item.symbols ++ rest) = (read? rest).map (fun items => item :: items) := by
  rcases item with ⟨a, _ | q⟩
  · exact read?_atom_cons hatom hrest
  · exact read?_quantifier_cons hatom (Quantifier.ofSymbol?_symbol q) rest

/-!
# Symbols of two rows
-/

theorem read?_append (front : List Symbol) {back : List Symbol} (hback : Opens back) :
    read? (front ++ back) =
      (read? front).bind (fun items => (read? back).map (fun others => items ++ others)) := by
  fun_induction read? front with
  | case1 =>
      rw [List.nil_append]
      cases read? back <;> rfl
  | case2 s rest hatom =>
      rw [List.cons_append, read?]
      simp only [hatom]
      rfl
  | case3 s a hatom =>
      rw [List.singleton_append, read?_atom_cons hatom hback]
      rfl
  | case4 s a hatom r rest q hquantifier ih =>
      rw [List.cons_append, List.cons_append, read?_quantifier_cons hatom hquantifier, ih]
      cases read? rest with
      | none => rfl
      | some items => cases read? back <;> rfl
  | case5 s a hatom r rest hquantifier ih =>
      have hrest : Opens (r :: rest ++ back) := hquantifier
      rw [List.cons_append, read?_atom_cons hatom hrest, ih]
      cases read? (r :: rest) with
      | none => rfl
      | some items => cases read? back <;> rfl

/-!
# Texts of two rows
-/

theorem ofText_append (front back : String) :
    Symbol.ofText (front ++ back) = Symbol.ofText front ++ Symbol.ofText back := by
  unfold Symbol.ofText
  rw [String.toList_append, List.map_append]

theorem ofText?_between {before middle after : String} {items others : List Item} {item : Item}
    (hatom : Atom.ofSymbol? item.atom.symbol = some item.atom)
    (hmiddle : Symbol.ofText middle = item.symbols)
    (hbefore : ofText? before = some items) (hafter : ofText? after = some others) :
    ofText? (before ++ middle ++ after) = some (items ++ item :: others) := by
  have hopens : Opens (item.symbols ++ Symbol.ofText after) := opens_symbols_append item _
  unfold ofText? at hbefore hafter ⊢
  rw [ofText_append, ofText_append, hmiddle, List.append_assoc, read?_append _ hopens,
    read?_symbols_append hatom (opens_of_read? hafter), hbefore, hafter]
  rfl

theorem exists_items_of_ofText?_append {before middle : String} {items : List Item} {item : Item}
    (hatom : Atom.ofSymbol? item.atom.symbol = some item.atom)
    (hmiddle : Symbol.ofText middle = item.symbols)
    (h : ofText? (before ++ middle) = some items) :
    exists first : List Item, ofText? before = some first ∧ items = first ++ [item] := by
  have hopens : Opens (item.symbols ++ []) := opens_symbols_append item []
  have hend : Opens [] := trivial
  unfold ofText? at h ⊢
  rw [ofText_append, hmiddle, <- List.append_nil item.symbols, read?_append _ hopens,
    read?_symbols_append hatom hend] at h
  rcases Option.bind_eq_some_iff.mp h with ⟨first, hfirst, hitems⟩
  exact ⟨first, hfirst, (Option.some.inj hitems).symm⟩

/-!
# The text of an atom
-/

theorem ofText_singleton {u : Char} {a : Atom}
    (hatom : Atom.ofSymbol? (Symbol.ofChar u) = some a) :
    Symbol.ofText (String.singleton u) = symbols ⟨a, none⟩ := by
  unfold Symbol.ofText
  rw [String.toList_singleton, List.map_singleton, <- Atom.symbol_of_ofSymbol? hatom]
  rfl

theorem ofText_quantified {u : Char} {a : Atom}
    (hatom : Atom.ofSymbol? (Symbol.ofChar u) = some a) (q : Quantifier) :
    Symbol.ofText (String.singleton u ++ String.singleton q.symbol.char) =
      symbols ⟨a, some q⟩ := by
  have hquantifier : Symbol.ofText (String.singleton q.symbol.char) = [q.symbol] := by
    unfold Symbol.ofText
    rw [String.toList_singleton]
    cases q <;> rfl
  rw [ofText_append, ofText_singleton hatom, hquantifier]
  rfl

theorem ofSymbol?_symbol {s : Symbol} {a : Atom} (hatom : Atom.ofSymbol? s = some a) :
    Atom.ofSymbol? a.symbol = some a := by
  rw [Atom.symbol_of_ofSymbol? hatom]
  exact hatom

end Item
end PatternWalk
