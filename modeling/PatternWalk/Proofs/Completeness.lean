import PatternWalk.Pattern.Ambiguity
import PatternWalk.Proofs.Soundness

/-!
# What is in the language of an unambiguous row fits it

A word of a row leaves a choice for each of its characters: the item held may go on,
or an item ahead may take over.  In an unambiguous row only one of the two is possible,
and only one item ahead can take over.  Matching along a single path then follows the
way in which the word was put together, and nothing is lost by never going back.
-/

namespace PatternWalk
namespace Item

/-!
# The choice at one character
-/

theorem taker?_of_unambiguous {c : Char} {skipped behind : List Item} {item : Item}
    (hplain : Unambiguous (skipped ++ item :: behind))
    (hskipped : forall passed : Item, passed ∈ skipped -> passed.isStarred = true)
    (haccepts : item.accepts c = true) :
    taker? c (skipped ++ item :: behind) = some (item, behind) := by
  apply taker?_append _ haccepts
  intro passed hpassed
  have hstarred := hskipped passed hpassed
  refine ⟨hstarred, ?_⟩
  rcases List.append_of_mem hpassed with ⟨before, between, hsplit⟩
  have hitems : skipped ++ item :: behind =
      before ++ passed :: (between ++ item :: behind) := by
    rw [hsplit, List.append_assoc, List.cons_append]
  have hbetween : forall other : Item, other ∈ between -> other.isStarred = true := by
    rw [hsplit] at hskipped
    exact (List.forall_mem_cons.mp (List.forall_mem_append.mp hskipped).right).right
  have hrepeated : passed.isRepeated = true := isRepeated_of_isStarred hstarred
  have happart := hplain before between behind passed item hitems hrepeated hbetween c
  cases hpasses : passed.accepts c with
  | false => rfl
  | true => exact absurd ⟨hpasses, haccepts⟩ happart

theorem taker?_eq_none_of_unambiguous {c : Char} {held : Item} {ahead : List Item}
    (hplain : Unambiguous (held :: ahead)) (hrepeated : held.isRepeated = true)
    (haccepts : held.accepts c = true) : taker? c ahead = none := by
  cases htaker : taker? c ahead with
  | none => rfl
  | some taken =>
      rcases taken with ⟨item, behind⟩
      rcases exists_skipped_of_taker? htaker with ⟨skipped, hahead, hskipped⟩
      have hitems : held :: ahead = [] ++ held :: (skipped ++ item :: behind) := by
        rw [hahead, List.nil_append]
      have hbetween : forall passed : Item, passed ∈ skipped -> passed.isStarred = true :=
        fun passed hpassed => (hskipped passed hpassed).left
      have happart := hplain [] skipped behind held item hitems hrepeated hbetween c
      exact absurd ⟨haccepts, accepts_of_taker? htaker⟩ happart

/-- The first character of a word goes to the item held or to an item ahead. -/
theorem language_residue_cons {held : Option Item} {ahead : List Item} {c : Char}
    {word : List Char} (h : Language (residue held ++ ahead) (c :: word)) :
    (keeps held c = true ∧ Language (residue held ++ ahead) word) ∨
      exists (skipped : List Item) (item : Item) (behind : List Item),
        ahead = skipped ++ item :: behind ∧
          (forall passed : Item, passed ∈ skipped -> passed.isStarred = true) ∧
          item.accepts c = true ∧ Language (residue (some item) ++ behind) word := by
  rcases language_cons_word_iff.mp h with
    ⟨skipped, item, behind, hitems, hskipped, haccepts, hrest⟩
  cases held with
  | none => exact Or.inr ⟨skipped, item, behind, hitems, hskipped, haccepts, hrest⟩
  | some kept =>
      cases hrepeated : kept.isRepeated with
      | false =>
          rw [residue_of_not_isRepeated hrepeated, List.nil_append] at hitems
          exact Or.inr ⟨skipped, item, behind, hitems, hskipped, haccepts, hrest⟩
      | true =>
          have hresidue := residue_of_isRepeated hrepeated
          rw [hresidue, List.singleton_append] at hitems
          cases skipped with
          | nil =>
              cases hitems
              refine Or.inl ⟨?_, ?_⟩
              · exact Bool.and_eq_true_iff.mpr ⟨hrepeated, haccepts⟩
              · rw [hresidue]
                exact hrest
          | cons first skipped =>
              cases hitems
              have hstarred := (List.forall_mem_cons.mp hskipped).right
              exact Or.inr ⟨skipped, item, behind, rfl, hstarred, haccepts, hrest⟩

/-!
# Words of an unambiguous row
-/

theorem fits_of_language {held : Option Item} {ahead : List Item} {word : List Char}
    (hplain : Unambiguous (held.toList ++ ahead)) (h : Language (residue held ++ ahead) word) :
    fits held ahead word = true := by
  induction word generalizing held ahead with
  | nil =>
      have hall := language_nil_word_iff.mp h
      rw [List.all_append, Bool.and_eq_true] at hall
      exact hall.right
  | cons c rest ih =>
      unfold fits
      rcases language_residue_cons h with
        ⟨hkeeps, hrest⟩ | ⟨skipped, item, behind, hahead, hskipped, haccepts, hrest⟩
      · cases held with
        | none => cases hkeeps
        | some kept =>
            rcases Bool.and_eq_true_iff.mp hkeeps with ⟨hrepeated, haccepts⟩
            have hnone : taker? c ahead = none :=
              taker?_eq_none_of_unambiguous hplain hrepeated haccepts
            rw [hnone]
            exact Bool.and_eq_true_iff.mpr ⟨hkeeps, ih hplain hrest⟩
      · rw [hahead] at hplain ⊢
        rw [taker?_of_unambiguous hplain.of_append hskipped haccepts]
        have hbehind : Unambiguous ((some item).toList ++ behind) := by
          rw [<- List.append_assoc] at hplain
          exact hplain.of_append
        exact ih hbehind hrest

end Item

namespace Pattern

/-- A pattern whose items are unambiguous accepts every text of their language. -/
theorem accepts_of_language (pattern : Pattern) {items : List Item}
    (hitems : Item.ofText? pattern.text = some items) (hplain : Item.Unambiguous items)
    {text : String} (h : Item.Language items text.toList) :
    pattern.graph.accepts text = Except.ok true := by
  rcases pattern.exists_items with ⟨others, hothers, hstands⟩
  have hsame : items = others := Option.some.inj (hitems.symm.trans hothers)
  rw [<- hsame] at hstands
  have hfits : Item.fits none items text.toList = true := Item.fits_of_language hplain h
  rw [hstands.accepts, hfits]

theorem accepts_of_language_mixed_repeats :
    exists (pattern : Pattern) (items : List Item),
      pattern.text = "a*4+g*hi" ∧ Item.ofText? pattern.text = some items ∧
        Item.Unambiguous items ∧ Item.Language items "aaaaaa444ghi".toList ∧
        pattern.graph.accepts "aaaaaa444ghi" = Except.ok true := by
  let items : List Item :=
    [⟨Atom.char 'a', some Quantifier.star⟩, ⟨Atom.char '4', some Quantifier.plus⟩,
      ⟨Atom.char 'g', some Quantifier.star⟩, ⟨Atom.char 'h', none⟩, ⟨Atom.char 'i', none⟩]
  have hitems : Item.ofText? "a*4+g*hi" = some items := by decide
  have hplain : Item.Unambiguous items := by decide
  have hfits : Item.fits none items "aaaaaa444ghi".toList = true := by decide
  have hlanguage : Item.Language items "aaaaaa444ghi".toList := Item.language_of_fits hfits
  exact ⟨ofItems hitems, items, rfl, hitems, hplain, hlanguage,
    accepts_of_language (ofItems hitems) hitems hplain hlanguage⟩

end Pattern

end PatternWalk
