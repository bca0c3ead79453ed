import PatternWalk.Pattern.Joining
import PatternWalk.Proofs.Simulation

/-!
# Items that every text goes through

An item that is not starred is never passed over.  A text that fits a row with such an
item in it therefore has a first part that brings the item to be held, the same part
whatever the item's quantifier is and whatever stands behind it, and from there on
only the item and what stands behind it matter.  When the item has no quantifier it
leaves nothing behind, so that the rest fits as if it began there.  Matching never
goes back on a choice, and yet a pattern can be cut behind each plain atom.
-/

namespace PatternWalk
namespace Item

def once (item : Item) : Item :=
  ⟨item.atom, none⟩

@[simp] theorem accepts_once (item : Item) (c : Char) : item.once.accepts c = item.accepts c :=
  rfl

@[simp] theorem isStarred_once (item : Item) : item.once.isStarred = false :=
  rfl

/-!
# One character on the way to an item
-/

theorem taker?_unstarred {item : Item} (hstarred : item.isStarred = false) (c : Char)
    (front back : List Item) :
    taker? c (front ++ item :: back) =
      match taker? c front with
      | some (next, behind) => some (next, behind ++ item :: back)
      | none => if front.all isStarred && item.accepts c then some (item, back) else none := by
  rw [taker?_rows_append, taker?, hstarred]
  cases front.all isStarred <;> cases item.accepts c <;> rfl

theorem fits_nil_unstarred {item : Item} (hstarred : item.isStarred = false)
    (held : Option Item) (front back : List Item) :
    fits held (front ++ item :: back) [] = false := by
  rw [fits, List.all_append, List.all_cons, hstarred, Bool.false_and, Bool.and_false]

theorem fits_cons_unstarred {item : Item} (hstarred : item.isStarred = false)
    (held : Option Item) (front back : List Item) (c : Char) (word : List Char) :
    fits held (front ++ item :: back) (c :: word) =
      match taker? c front with
      | some (next, behind) => fits (some next) (behind ++ item :: back) word
      | none =>
          if front.all isStarred && item.accepts c then fits (some item) back word
          else keeps held c && fits held (front ++ item :: back) word := by
  rw [fits, taker?_unstarred hstarred]
  cases taker? c front with
  | some taken => rfl
  | none => cases front.all isStarred && item.accepts c <;> rfl

theorem eq_nil_of_fits_once {item : Item} {word : List Char}
    (h : fits (some item.once) [] word = true) : word = [] := by
  cases word with
  | nil => rfl
  | cons c word => cases h

/-!
# The part of a text that brings an item to be held
-/

theorem fits_append_of_entry {item : Item} (hstarred : item.isStarred = false)
    {held : Option Item} {front back : List Item} {entry rest : List Char}
    (hentry : fits held (front ++ [item.once]) entry = true) :
    fits held (front ++ item :: back) (entry ++ rest) = fits (some item) back rest := by
  induction entry generalizing held front with
  | nil =>
      rw [fits_nil_unstarred item.isStarred_once] at hentry
      cases hentry
  | cons c entry ih =>
      rw [fits_cons_unstarred item.isStarred_once, accepts_once] at hentry
      rw [List.cons_append, fits_cons_unstarred hstarred]
      cases htaker : taker? c front with
      | some taken =>
          rw [htaker] at hentry
          exact ih hentry
      | none =>
          rw [htaker] at hentry
          cases htakes : front.all isStarred && item.accepts c with
          | true =>
              rw [htakes] at hentry
              rw [eq_nil_of_fits_once hentry]
              rfl
          | false =>
              rw [htakes] at hentry
              rcases Bool.and_eq_true_iff.mp hentry with ⟨hkeeps, hrest⟩
              show (keeps held c && fits held (front ++ item :: back) (entry ++ rest)) = _
              rw [hkeeps, Bool.true_and]
              exact ih hrest

theorem exists_entry_of_fits {item : Item} (hstarred : item.isStarred = false)
    {held : Option Item} {front back : List Item} {word : List Char}
    (h : fits held (front ++ item :: back) word = true) :
    exists entry rest : List Char,
      word = entry ++ rest ∧ fits held (front ++ [item.once]) entry = true := by
  induction word generalizing held front with
  | nil =>
      rw [fits_nil_unstarred hstarred] at h
      cases h
  | cons c word ih =>
      have hentry := fits_cons_unstarred item.isStarred_once held front [] c
      rw [fits_cons_unstarred hstarred] at h
      rw [accepts_once] at hentry
      cases htaker : taker? c front with
      | some taken =>
          rw [htaker] at h hentry
          rcases ih h with ⟨entry, rest, hword, htaken⟩
          exact ⟨c :: entry, rest, congrArg (c :: ·) hword, (hentry entry).trans htaken⟩
      | none =>
          rw [htaker] at h hentry
          cases htakes : front.all isStarred && item.accepts c with
          | true =>
              rw [htakes] at hentry
              exact ⟨[c], word, rfl, hentry []⟩
          | false =>
              rw [htakes] at h hentry
              rcases Bool.and_eq_true_iff.mp h with ⟨hkeeps, hrest⟩
              rcases ih hrest with ⟨entry, rest, hword, htaken⟩
              refine ⟨c :: entry, rest, congrArg (c :: ·) hword, (hentry entry).trans ?_⟩
              exact Bool.and_eq_true_iff.mpr ⟨hkeeps, htaken⟩

/-- A text that fits is one that brings the item to be held, and one that fits behind it. -/
theorem fits_unstarred_iff {item : Item} (hstarred : item.isStarred = false)
    {held : Option Item} {front back : List Item} {word : List Char} :
    fits held (front ++ item :: back) word = true <->
      exists entry rest : List Char,
        word = entry ++ rest ∧ fits held (front ++ [item.once]) entry = true ∧
          fits (some item) back rest = true := by
  constructor
  · intro h
    rcases exists_entry_of_fits hstarred h with ⟨entry, rest, rfl, hentry⟩
    rw [fits_append_of_entry hstarred hentry] at h
    exact ⟨entry, rest, rfl, hentry, h⟩
  · intro h
    rcases h with ⟨entry, rest, rfl, hentry, hrest⟩
    rw [fits_append_of_entry hstarred hentry]
    exact hrest

theorem fits_once (item : Item) (ahead : List Item) (word : List Char) :
    fits (some item.once) ahead word = fits none ahead word := by
  cases word <;> rfl

end Item

/-!
# Texts and their parts
-/

theorem Text.exists_parts_iff {text : String} {p : List Char -> List Char -> Prop} :
    (exists entry rest : List Char, text.toList = entry ++ rest ∧ p entry rest) <->
      exists entry rest : String, text = entry ++ rest ∧ p entry.toList rest.toList := by
  constructor
  · intro h
    rcases h with ⟨entry, rest, htext, hp⟩
    refine ⟨String.ofList entry, String.ofList rest, ?_, ?_⟩
    · rw [<- String.ofList_append, <- htext, String.ofList_toList]
    · rw [String.toList_ofList, String.toList_ofList]
      exact hp
  · intro h
    rcases h with ⟨entry, rest, rfl, hp⟩
    exact ⟨entry.toList, rest.toList, String.toList_append, hp⟩

namespace Pattern

/-!
# Cutting a pattern behind an atom
-/

theorem exists_rows_of_parse {before after : String} {u : Char} {a : Atom}
    {front back : Pattern} (hatom : Atom.ofSymbol? (Symbol.ofChar u) = some a)
    (hfront : parse (before ++ String.singleton u) = Except.ok front)
    (hback : parse after = Except.ok back) :
    exists items others : List Item,
      Item.ofText? before = some items ∧ Item.ofText? after = some others ∧
        Item.ofText? front.text = some (items ++ [⟨a, none⟩]) ∧
        Item.ofText? back.text = some others := by
  rcases exists_items_of_parse hfront with ⟨all, hall, hfronttext⟩
  rcases exists_items_of_parse hback with ⟨others, hothers, hbacktext⟩
  rcases Item.exists_items_of_ofText?_append (Item.ofSymbol?_symbol hatom)
    (Item.ofText_singleton hatom) hall with ⟨items, hitems, rfl⟩
  exact ⟨items, others, hitems, hothers, hfronttext, hbacktext⟩

/-- A pattern that is put together behind a plain atom accepts the texts that are put
together from one accepted by each part. -/
theorem accepts_iff_cut_behind_atom {before after : String} {u : Char} {a : Atom}
    {front back : Pattern} (hatom : Atom.ofSymbol? (Symbol.ofChar u) = some a)
    (hfront : parse (before ++ String.singleton u) = Except.ok front)
    (hback : parse after = Except.ok back) :
    exists whole : Pattern,
      parse (before ++ String.singleton u ++ after) = Except.ok whole ∧
        forall text : String,
          whole.graph.accepts text = Except.ok true <->
            exists entry rest : String,
              text = entry ++ rest ∧ front.graph.accepts entry = Except.ok true ∧
                back.graph.accepts rest = Except.ok true := by
  rcases exists_rows_of_parse hatom hfront hback with
    ⟨items, others, hitems, hothers, hfrontrow, hbackrow⟩
  have hrow := Item.ofText?_between (Item.ofSymbol?_symbol hatom)
    (Item.ofText_singleton hatom) hitems hothers
  rcases exists_parse_of_items hrow with ⟨whole, hwhole, hwholerow⟩
  refine ⟨whole, hwhole, ?_⟩
  intro text
  let unit : Item := ⟨a, none⟩
  have hunit : unit.isStarred = false := rfl
  have hheld : forall rest : List Char,
      Item.fits (some unit) others rest = Item.fits none others rest :=
    Item.fits_once unit others
  rw [accepts_iff_fits hwholerow, Item.fits_unstarred_iff hunit]
  simp only [hheld, accepts_iff_fits hfrontrow, accepts_iff_fits hbackrow]
  exact Text.exists_parts_iff

theorem accepts_iff_cut_behind_atom_ambiguous :
    exists front back whole : Pattern,
      Atom.ofSymbol? (Symbol.ofChar 'a') = some (Atom.char 'a') ∧
        parse ("a*" ++ String.singleton 'a') = Except.ok front ∧
        parse ".*ab" = Except.ok back ∧
        parse ("a*" ++ String.singleton 'a' ++ ".*ab") = Except.ok whole ∧
        front.graph.accepts "aa" = Except.ok true ∧
        back.graph.accepts "aab" = Except.ok true ∧
        whole.graph.accepts ("aa" ++ "aab") = Except.ok true := by
  have hatom : Atom.ofSymbol? (Symbol.ofChar 'a') = some (Atom.char 'a') := by decide
  have hfrontrow : Item.ofText? ("a*" ++ String.singleton 'a') =
      some [⟨Atom.char 'a', some Quantifier.star⟩, ⟨Atom.char 'a', none⟩] := by decide
  have hbackrow : Item.ofText? ".*ab" =
      some [⟨Atom.any, some Quantifier.star⟩, ⟨Atom.char 'a', none⟩, ⟨Atom.char 'b', none⟩] := by
    decide
  rcases exists_parse_of_items hfrontrow with ⟨front, hfront, hfrontrow⟩
  rcases exists_parse_of_items hbackrow with ⟨back, hback, hbackrow⟩
  rcases accepts_iff_cut_behind_atom hatom hfront hback with ⟨whole, hwhole, haccepts⟩
  have hentry : front.graph.accepts "aa" = Except.ok true :=
    (accepts_iff_fits hfrontrow "aa").mpr (by decide)
  have hrest : back.graph.accepts "aab" = Except.ok true :=
    (accepts_iff_fits hbackrow "aab").mpr (by decide)
  exact ⟨front, back, whole, hatom, hfront, hback, hwhole, hentry, hrest,
    (haccepts _).mpr ⟨"aa", "aab", rfl, hentry, hrest⟩⟩

end Pattern
end PatternWalk
