import PatternWalk.Pattern.Ambiguity
import PatternWalk.Proofs.Synchronisation

/-!
# What a plus behind an atom adds

An atom with a plus behind it is entered just as the plain atom is, and then it may keep
further characters.  It does so only with those that nothing ahead takes.  A pattern
therefore accepts no less with the plus than without it, and it accepts the same texts
exactly when every character of the atom is taken by an item that comes next: the run
then always leaves the looping node before it can loop.
-/

namespace PatternWalk
namespace Item

/-!
# What comes next
-/

/-- Every character that the atom accepts is accepted by an item that may take it next. -/
def Covers (ahead : List Item) (a : Atom) : Prop :=
  forall c : Char, a.accepts c = true ->
    exists later : Item, later ∈ upcoming ahead ∧ later.accepts c = true

theorem covers_iff {ahead : List Item} {a : Atom} :
    Covers ahead a <-> forall c : Char, a.accepts c = true -> taker? c ahead ≠ none := by
  constructor
  · intro h c haccepts hnone
    rcases h c haccepts with ⟨later, hlater, htakes⟩
    rcases mem_upcoming_iff.mp hlater with ⟨between, after, rfl, hbetween⟩
    rw [taker?_rows_append, List.all_eq_true.mpr hbetween, taker?, if_pos htakes] at hnone
    cases htaker : taker? c between with
    | none =>
        rw [htaker] at hnone
        cases hnone
    | some taken =>
        rw [htaker] at hnone
        cases hnone
  · intro h c haccepts
    cases htaker : taker? c ahead with
    | none => exact absurd htaker (h c haccepts)
    | some taken =>
        rcases taken with ⟨later, behind⟩
        rcases exists_skipped_of_taker? htaker with ⟨skipped, hahead, hskipped⟩
        have hbetween : forall passed : Item, passed ∈ skipped -> passed.isStarred = true :=
          fun passed hpassed => (hskipped passed hpassed).left
        have hlater : later ∈ upcoming ahead :=
          mem_upcoming_iff.mpr ⟨skipped, behind, hahead, hbetween⟩
        exact ⟨later, hlater, accepts_of_taker? htaker⟩

/-!
# Holding an item that repeats
-/

theorem fits_of_fits_none {held : Option Item} {ahead : List Item} {word : List Char}
    (h : fits none ahead word = true) : fits held ahead word = true := by
  cases word with
  | nil => exact h
  | cons c rest =>
      unfold fits at h ⊢
      cases htaker : taker? c ahead with
      | some taken =>
          rw [htaker] at h
          exact h
      | none =>
          rw [htaker] at h
          cases h

theorem fits_eq_fits_none {held : Option Item} {ahead : List Item}
    (hleaves : forall c : Char, keeps held c = true -> taker? c ahead ≠ none)
    (word : List Char) : fits held ahead word = fits none ahead word := by
  cases word with
  | nil => rfl
  | cons c rest =>
      unfold fits
      cases htaker : taker? c ahead with
      | some taken => rfl
      | none =>
          cases hkeeps : keeps held c with
          | false => rfl
          | true => exact absurd htaker (hleaves c hkeeps)

theorem fits_cons_samples {held : Option Item} {ahead : List Item} {c : Char}
    (hnone : taker? c ahead = none) :
    fits held ahead (c :: samples ahead) = keeps held c := by
  rw [fits, hnone]
  show (keeps held c && fits held ahead (samples ahead)) = keeps held c
  rw [fits_samples, Bool.and_true]

/-!
# A row with and without the repetition
-/

section Repetition

variable {item : Item} (hstarred : item.isStarred = false) (front back : List Item)

include hstarred

theorem fits_of_fits_once {word : List Char}
    (h : fits none (front ++ item.once :: back) word = true) :
    fits none (front ++ item :: back) word = true := by
  rcases (fits_unstarred_iff item.isStarred_once).mp h with ⟨entry, rest, hword, hentry, hrest⟩
  rw [fits_once] at hrest
  exact (fits_unstarred_iff hstarred).mpr ⟨entry, rest, hword, hentry, fits_of_fits_none hrest⟩

/-- Some text enters the item, repeats it once and is completed, if the item can be
repeated with a character that nothing ahead takes. -/
theorem exists_fits_repeated {c : Char} (hkeeps : keeps (some item) c = true)
    (hnone : taker? c back = none) :
    exists word : List Char,
      fits none (front ++ item :: back) word = true ∧
        fits none (front ++ item.once :: back) word = false := by
  have hentry := fits_samples none (front ++ [item.once])
  refine ⟨samples (front ++ [item.once]) ++ c :: samples back, ?_, ?_⟩
  · rw [fits_append_of_entry hstarred hentry, fits_cons_samples hnone]
    exact hkeeps
  · rw [fits_append_of_entry item.isStarred_once hentry, fits_cons_samples hnone]
    rfl

theorem fits_once_iff :
    (forall word : List Char,
      fits none (front ++ item.once :: back) word = true <->
        fits none (front ++ item :: back) word = true) <->
      forall c : Char, keeps (some item) c = true -> taker? c back ≠ none := by
  constructor
  · intro h c hkeeps hnone
    rcases exists_fits_repeated hstarred front back hkeeps hnone with ⟨word, hfits, hnot⟩
    rw [(h word).mpr hfits] at hnot
    cases hnot
  · intro hleaves word
    have hheld := fits_eq_fits_none hleaves
    rw [fits_unstarred_iff item.isStarred_once, fits_unstarred_iff hstarred]
    simp only [fits_once, hheld]
    rfl

end Repetition

end Item

/-!
# Leaving before looping
-/

namespace Graph.Stands

variable {g : Graph} {id : Nat} {held : Option Item} {ahead : List Item}

theorem next_ne_self (h : g.Stands id held ahead) {c : Char}
    (hleaves : Item.keeps held c = true -> Item.taker? c ahead ≠ none) :
    g.next id c ≠ Except.ok (some id) := by
  intro hself
  have hnext := h.next c
  cases htaker : Item.taker? c ahead with
  | none =>
      rw [htaker, hself] at hnext
      cases hkeeps : Item.keeps held c with
      | true => exact hleaves hkeeps htaker
      | false =>
          rw [hkeeps] at hnext
          cases hnext
  | some taken =>
      rcases taken with ⟨item, behind⟩
      rw [htaker] at hnext
      rcases hnext with ⟨target, htarget, hstands⟩
      rw [hself] at htarget
      cases htarget
      rcases Item.exists_skipped_of_taker? htaker with ⟨skipped, hahead, _⟩
      have hlength := h.right.length_eq hstands.right
      rw [hahead, List.length_append, List.length_cons] at hlength
      omega

end Graph.Stands

namespace Pattern

/-!
# Putting a plus behind an atom
-/

theorem ofText?_plus_between {before after : String} {u : Char} {a : Atom}
    {items others : List Item} (hatom : Atom.ofSymbol? (Symbol.ofChar u) = some a)
    (hbefore : Item.ofText? before = some items) (hafter : Item.ofText? after = some others) :
    Item.ofText? (before ++ String.singleton u ++ "+" ++ after) =
      some (items ++ ⟨a, some Quantifier.plus⟩ :: others) := by
  have hplus : "+" = String.singleton Quantifier.plus.symbol.char := by decide
  have htext : before ++ String.singleton u ++ "+" =
      before ++ (String.singleton u ++ String.singleton Quantifier.plus.symbol.char) := by
    rw [<- hplus, String.append_assoc]
  rw [htext]
  exact Item.ofText?_between (Item.ofSymbol?_symbol hatom)
    (Item.ofText_quantified hatom Quantifier.plus) hbefore hafter

/-- A pattern accepts no less with a plus behind a plain atom than without it, and it
accepts the same texts exactly when the items that come next cover the atom.  A run
then never stays in the looping node. -/
theorem accepts_with_plus_iff_covers {before after : String} {u : Char} {a : Atom}
    {front back : Pattern} (hatom : Atom.ofSymbol? (Symbol.ofChar u) = some a)
    (hfront : parse (before ++ String.singleton u) = Except.ok front)
    (hback : parse after = Except.ok back) :
    exists (items others : List Item) (once repeated : Pattern),
      Item.ofText? before = some items ∧ Item.ofText? after = some others ∧
        parse (before ++ String.singleton u ++ after) = Except.ok once ∧
        parse (before ++ String.singleton u ++ "+" ++ after) = Except.ok repeated ∧
        (forall text : String,
          once.graph.accepts text = Except.ok true ->
            repeated.graph.accepts text = Except.ok true) ∧
        ((forall text : String,
          once.graph.accepts text = Except.ok true <->
            repeated.graph.accepts text = Except.ok true) <-> Item.Covers others a) ∧
        repeated.graph.state? (items.length + 1) = some (State.loop Quantifier.plus a) ∧
        (Item.Covers others a ->
          forall c : Char,
            repeated.graph.next (items.length + 1) c ≠ Except.ok (some (items.length + 1))) := by
  rcases exists_rows_of_parse hatom hfront hback with ⟨items, others, hitems, hothers, _, _⟩
  have honcerow := Item.ofText?_between (Item.ofSymbol?_symbol hatom)
    (Item.ofText_singleton hatom) hitems hothers
  rcases exists_parse_of_items honcerow with ⟨once, honce, honcerow⟩
  rcases exists_parse_of_items (ofText?_plus_between hatom hitems hothers) with
    ⟨repeated, hrepeated, hrepeatedrow⟩
  let item : Item := ⟨a, some Quantifier.plus⟩
  have hstarred : item.isStarred = false := rfl
  have hstands : repeated.graph.Stands (items.length + 1) (some item) others :=
    (stands_of_items hrepeatedrow).of_append
  refine ⟨items, others, once, repeated, hitems, hothers, honce, hrepeated, ?_, ?_, ?_, ?_⟩
  · intro text haccepts
    rw [accepts_iff_fits honcerow] at haccepts
    rw [accepts_iff_fits hrepeatedrow]
    exact Item.fits_of_fits_once hstarred items others haccepts
  · rw [accepts_same_iff honcerow hrepeatedrow, Item.covers_iff]
    exact Item.fits_once_iff hstarred items others
  · rw [Graph.state?, hstands.left]
    rfl
  · intro hcovers c
    apply hstands.next_ne_self
    exact Item.covers_iff.mp hcovers c

theorem accepts_with_plus_before_any :
    exists front back once repeated : Pattern,
      Atom.ofSymbol? (Symbol.ofChar 'a') = some (Atom.char 'a') ∧
        parse ("" ++ String.singleton 'a') = Except.ok front ∧
        parse "b*." = Except.ok back ∧
        parse ("" ++ String.singleton 'a' ++ "b*.") = Except.ok once ∧
        parse ("" ++ String.singleton 'a' ++ "+" ++ "b*.") = Except.ok repeated ∧
        forall text : String,
          once.graph.accepts text = Except.ok true <->
            repeated.graph.accepts text = Except.ok true := by
  have hatom : Atom.ofSymbol? (Symbol.ofChar 'a') = some (Atom.char 'a') := by decide
  have hfrontrow : Item.ofText? ("" ++ String.singleton 'a') = some [⟨Atom.char 'a', none⟩] := by
    decide
  have hbackrow : Item.ofText? "b*." =
      some [⟨Atom.char 'b', some Quantifier.star⟩, ⟨Atom.any, none⟩] := by decide
  rcases exists_parse_of_items hfrontrow with ⟨front, hfront, _⟩
  rcases exists_parse_of_items hbackrow with ⟨back, hback, _⟩
  rcases accepts_with_plus_iff_covers hatom hfront hback with
    ⟨items, others, once, repeated, _, hothers, honce, hrepeated, _, hsame, _, _⟩
  have hcovers : Item.Covers others (Atom.char 'a') := by
    rw [hbackrow] at hothers
    cases hothers
    intro c _
    exact ⟨⟨Atom.any, none⟩, List.mem_cons_of_mem _ List.mem_cons_self, rfl⟩
  exact ⟨front, back, once, repeated, hatom, hfront, hback, honce, hrepeated, hsame.mpr hcovers⟩

end Pattern

end PatternWalk
