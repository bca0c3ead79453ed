import PatternWalk.Pattern.Joining
import PatternWalk.Proofs.FirstFault
import PatternWalk.Proofs.Simulation

/-!
# Repetition at the end of a row

A repeated item at the end of a row takes whatever it accepts once the text could end.
Until it is held it is the last of the items ahead, and the items in front of it may
take such a character first, but only starred ones are left then.  Some item therefore
takes every such character, the last item itself in the end, and the text can end again.
An item with a plus has to be held by then, as it would keep the text from ending.
-/

namespace PatternWalk
namespace Item

/-!
# The last item of a row
-/

/-- The item ends the items ahead, or it is held with nothing ahead. -/
def Ends (last : Item) (held : Option Item) (ahead : List Item) : Prop :=
  (exists front : List Item, ahead = front ++ [last]) ∨ (held = some last ∧ ahead = [])

section Ends

variable {last item : Item} {held : Option Item} {ahead behind : List Item} {c : Char}

theorem Ends.of_taker? (h : last.Ends held ahead)
    (htaker : taker? c ahead = some (item, behind)) : last.Ends (some item) behind := by
  rcases exists_skipped_of_taker? htaker with ⟨skipped, hahead, _⟩
  rcases h with ⟨front, hfront⟩ | ⟨_, hnil⟩
  · rw [hfront] at hahead
    rcases List.eq_nil_or_concat behind with rfl | ⟨between, final, rfl⟩
    · rcases List.append_inj' hahead rfl with ⟨_, hlast⟩
      cases List.singleton_inj.mp hlast
      exact Or.inr ⟨rfl, rfl⟩
    · rw [List.concat_eq_append, <- List.cons_append, <- List.append_assoc] at hahead
      rcases List.append_inj' hahead rfl with ⟨_, hlast⟩
      cases List.singleton_inj.mp hlast
      exact Or.inl ⟨between, List.concat_eq_append⟩
  · rw [hnil] at hahead
    cases skipped <;> cases hahead

theorem Ends.held_of_taker?_eq_none (h : last.Ends held ahead)
    (hstarred : ahead.all isStarred = true) (haccepts : last.accepts c = true)
    (hnone : taker? c ahead = none) : held = some last := by
  rcases h with ⟨front, rfl⟩ | ⟨hheld, _⟩
  · rw [List.all_append, Bool.and_eq_true] at hstarred
    rw [taker?_rows_append, hstarred.left, taker?, if_pos haccepts] at hnone
    cases htaker : taker? c front with
    | none =>
        rw [htaker] at hnone
        cases hnone
    | some taken =>
        rw [htaker] at hnone
        cases hnone
  · exact hheld

theorem all_isStarred_of_taker? (hstarred : ahead.all isStarred = true)
    (htaker : taker? c ahead = some (item, behind)) : behind.all isStarred = true := by
  rcases exists_skipped_of_taker? htaker with ⟨skipped, rfl, _⟩
  rw [List.all_append, List.all_cons, Bool.and_eq_true, Bool.and_eq_true] at hstarred
  exact hstarred.right.right

/-!
# Characters of the last item
-/

/-- Where a text could end, it may go on with characters of the last item. -/
theorem Ends.fits (h : last.Ends held ahead) (hrepeated : last.isRepeated = true)
    (hstarred : ahead.all isStarred = true) {more : List Char}
    (hmore : forall c : Char, c ∈ more -> last.accepts c = true) :
    Item.fits held ahead more = true := by
  induction more generalizing held ahead with
  | nil => exact hstarred
  | cons c more ih =>
      rcases List.forall_mem_cons.mp hmore with ⟨haccepts, hrest⟩
      unfold Item.fits
      cases htaker : taker? c ahead with
      | some taken => exact ih (h.of_taker? htaker) (all_isStarred_of_taker? hstarred htaker) hrest
      | none =>
          have hkeeps : keeps held c = true := by
            rw [h.held_of_taker?_eq_none hstarred haccepts htaker]
            exact Bool.and_eq_true_iff.mpr ⟨hrepeated, haccepts⟩
          exact Bool.and_eq_true_iff.mpr ⟨hkeeps, ih h hstarred hrest⟩

theorem Ends.fits_append (h : last.Ends held ahead) (hrepeated : last.isRepeated = true)
    {word more : List Char} (hfits : Item.fits held ahead word = true)
    (hmore : forall c : Char, c ∈ more -> last.accepts c = true) :
    Item.fits held ahead (word ++ more) = true := by
  induction word generalizing held ahead with
  | nil => exact h.fits hrepeated hfits hmore
  | cons c word ih =>
      rw [List.cons_append]
      unfold Item.fits at hfits ⊢
      cases htaker : taker? c ahead with
      | some taken =>
          rw [htaker] at hfits
          exact ih (h.of_taker? htaker) hfits
      | none =>
          rw [htaker] at hfits
          rcases Bool.and_eq_true_iff.mp hfits with ⟨hkeeps, hrest⟩
          exact Bool.and_eq_true_iff.mpr ⟨hkeeps, ih h hrest⟩

end Ends

end Item

namespace Pattern

/-!
# Patterns that end in a quantifier
-/

theorem not_badAt (pattern : Pattern) (k : Nat) : ¬ BadAt pattern.text.toList k := by
  rcases Build.result_ofText_cases pattern.text with ⟨hgood, _⟩ | ⟨_, _, _, _, hfault⟩
  · exact hgood k
  · rw [pattern.built] at hfault
    cases hfault

theorem exists_atom_before {pattern : Pattern} {before : String} {u q : Char}
    (htext : pattern.text = before ++ String.singleton u ++ String.singleton q)
    (hq : IsQuantifier q) :
    exists a : Atom, Atom.ofSymbol? (Symbol.ofChar u) = some a := by
  have hlist : pattern.text.toList = before.toList ++ u :: [q] := by
    rw [htext, String.toList_append, String.toList_append, String.toList_singleton,
      String.toList_singleton, List.append_assoc]
    rfl
  have hlast : pattern.text.toList = (before.toList ++ [u]) ++ q :: [] := by
    rw [hlist, List.append_assoc]
    rfl
  cases hatom : Atom.ofSymbol? (Symbol.ofChar u) with
  | some a => exact ⟨a, rfl⟩
  | none =>
      rcases ofSymbol?_ofChar_eq_none_iff.mp hatom with hmeaningless | hquantifier
      · have hbad : BadAt (before.toList ++ u :: [q]) before.toList.length :=
          badAt_length_iff.mpr (Or.inl hmeaningless)
        rw [<- hlist] at hbad
        exact absurd hbad (pattern.not_badAt _)
      · have hprevious : forall d : Char,
            (before.toList ++ [u]).getLast? = some d -> IsQuantifier d := by
          intro d hd
          rw [List.getLast?_concat] at hd
          cases hd
          exact hquantifier
        have hbad : BadAt ((before.toList ++ [u]) ++ q :: []) (before.toList ++ [u]).length :=
          badAt_length_iff.mpr (Or.inr ⟨hq, hprevious⟩)
        rw [<- hlast] at hbad
        exact absurd hbad (pattern.not_badAt _)

theorem exists_items_quantified {pattern : Pattern} {before : String} {u q : Char} {a : Atom}
    (htext : pattern.text = before ++ String.singleton u ++ String.singleton q)
    (hq : IsQuantifier q) (hatom : Atom.ofSymbol? (Symbol.ofChar u) = some a) :
    exists (first : List Item) (quantifier : Quantifier),
      Item.ofText? pattern.text = some (first ++ [⟨a, some quantifier⟩]) := by
  rcases isQuantifier_iff.mp hq with ⟨quantifier, hquantifier⟩
  have hchar : quantifier.symbol.char = q := by
    rw [Quantifier.symbol_of_ofSymbol? hquantifier, Symbol.char_ofChar]
  have hlast := Item.ofText_quantified hatom quantifier
  rw [hchar] at hlast
  rcases pattern.exists_items with ⟨items, hitems, _⟩
  have hrow := hitems
  rw [htext, String.append_assoc] at hrow
  rcases Item.exists_items_of_ofText?_append (Item.ofSymbol?_symbol hatom) hlast hrow with
    ⟨first, _, rfl⟩
  exact ⟨first, quantifier, hitems⟩

/-- A pattern that ends in a quantifier accepts whatever it accepts with any characters of
the repeated atom behind it, and with any characters at all when the atom is a dot. -/
theorem accepts_append_of_trailing_repeat {pattern : Pattern} {before : String} {u q : Char}
    (htext : pattern.text = before ++ String.singleton u ++ String.singleton q)
    (hq : IsQuantifier q) :
    exists a : Atom,
      Atom.ofSymbol? (Symbol.ofChar u) = some a ∧
        (forall text more : String,
          pattern.graph.accepts text = Except.ok true ->
            (forall c : Char, c ∈ more.toList -> a.accepts c = true) ->
              pattern.graph.accepts (text ++ more) = Except.ok true) ∧
        (u = '.' ->
          forall text more : String,
            pattern.graph.accepts text = Except.ok true ->
              pattern.graph.accepts (text ++ more) = Except.ok true) := by
  rcases exists_atom_before htext hq with ⟨a, hatom⟩
  rcases exists_items_quantified htext hq hatom with ⟨first, quantifier, hitems⟩
  have habsorbs : forall text more : String,
      pattern.graph.accepts text = Except.ok true ->
        (forall c : Char, c ∈ more.toList -> a.accepts c = true) ->
          pattern.graph.accepts (text ++ more) = Except.ok true := by
    intro text more haccepts hmore
    have hends : Item.Ends ⟨a, some quantifier⟩ none (first ++ [⟨a, some quantifier⟩]) :=
      Or.inl ⟨first, rfl⟩
    rw [accepts_iff_fits hitems] at haccepts ⊢
    rw [String.toList_append]
    exact hends.fits_append rfl haccepts hmore
  refine ⟨a, hatom, habsorbs, ?_⟩
  intro hdot text more haccepts
  rw [hdot] at hatom
  cases hatom
  exact habsorbs text more haccepts (fun _ _ => rfl)

theorem accepts_append_of_trailing_repeat_behind_dot :
    exists pattern : Pattern,
      pattern.text = ".*" ++ String.singleton 'a' ++ String.singleton '*' ∧ IsQuantifier '*' ∧
        pattern.graph.accepts "" = Except.ok true ∧
        pattern.graph.accepts ("" ++ "aa") = Except.ok true := by
  have hitems : Item.ofText? (".*" ++ String.singleton 'a' ++ String.singleton '*') =
      some [⟨Atom.any, some Quantifier.star⟩, ⟨Atom.char 'a', some Quantifier.star⟩] := by decide
  rcases exists_parse_of_items hitems with ⟨pattern, hparse, hrow⟩
  have htext := parse_eq_ok_iff.mp hparse
  have hq : IsQuantifier '*' := Or.inl rfl
  have haccepts : pattern.graph.accepts "" = Except.ok true :=
    (accepts_iff_fits hrow "").mpr (by decide)
  rcases accepts_append_of_trailing_repeat htext hq with ⟨a, hatom, habsorbs, _⟩
  cases hatom
  have hmore : forall c : Char, c ∈ "aa".toList -> (Atom.char 'a').accepts c = true := by
    simp [Atom.accepts]
  exact ⟨pattern, htext, hq, haccepts, habsorbs "" "aa" haccepts hmore⟩

end Pattern

end PatternWalk
