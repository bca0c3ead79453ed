import PatternWalk.Pattern.Item

/-!
# The language of a row of items

An item stands for the words its quantifier allows, each character of which its
atom accepts.  A row of items stands for the concatenations of words, one for
each item.  This is what a pattern says, apart from how a text is matched
against it; the last statement splits a word at any place of the row.
-/

namespace PatternWalk
namespace Item

/-!
# Words of one item
-/

def AllowsLength : Option Quantifier -> Nat -> Prop
  | none, n => n = 1
  | some Quantifier.star, _ => True
  | some Quantifier.plus, n => 0 < n

def Denotes (item : Item) (word : List Char) : Prop :=
  AllowsLength item.quantifier word.length ∧
    forall c : Char, c ∈ word -> item.accepts c = true

theorem denotes_nil_iff {item : Item} :
    item.Denotes [] <-> item.isStarred = true := by
  rcases item with ⟨a, _ | q⟩
  · simp [Denotes, AllowsLength, isStarred]
  · cases q <;> simp [Denotes, AllowsLength, isStarred]

/-!
# Words of a row
-/

inductive Language : List Item -> List Char -> Prop where
  | nil : Language [] []
  | cons {item : Item} {items : List Item} {word rest : List Char} :
      item.Denotes word -> Language items rest ->
        Language (item :: items) (word ++ rest)

theorem language_nil_iff {word : List Char} :
    Language [] word <-> word = [] := by
  constructor
  · intro h
    cases h
    rfl
  · intro h
    rw [h]
    exact Language.nil

theorem language_cons_iff {item : Item} {items : List Item} {word : List Char} :
    Language (item :: items) word <->
      exists front back : List Char,
        word = front ++ back ∧ item.Denotes front ∧ Language items back := by
  constructor
  · intro h
    cases h with
    | cons hitem hitems => exact ⟨_, _, rfl, hitem, hitems⟩
  · intro h
    rcases h with ⟨front, back, rfl, hitem, hitems⟩
    exact Language.cons hitem hitems

theorem language_append_iff {items others : List Item} {word : List Char} :
    Language (items ++ others) word <->
      exists front back : List Char,
        word = front ++ back ∧ Language items front ∧ Language others back := by
  induction items generalizing word with
  | nil =>
      constructor
      · intro h
        exact ⟨[], word, rfl, Language.nil, h⟩
      · intro h
        rcases h with ⟨front, back, rfl, hfront, hback⟩
        rw [language_nil_iff.mp hfront]
        exact hback
  | cons item items ih =>
      rw [List.cons_append, language_cons_iff]
      constructor
      · intro h
        rcases h with ⟨first, rest, rfl, hitem, hrest⟩
        rcases ih.mp hrest with ⟨front, back, rfl, hfront, hback⟩
        refine ⟨first ++ front, back, ?_, Language.cons hitem hfront, hback⟩
        rw [List.append_assoc]
      · intro h
        rcases h with ⟨front, back, rfl, hfront, hback⟩
        rcases language_cons_iff.mp hfront with ⟨first, rest, rfl, hitem, hrest⟩
        refine ⟨first, rest ++ back, ?_, hitem, ih.mpr ⟨rest, back, rfl, hrest, hback⟩⟩
        rw [List.append_assoc]

end Item
end PatternWalk
