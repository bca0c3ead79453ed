import PatternWalk.Pattern.Language
import PatternWalk.Proofs.Simulation

/-!
# What fits is in the language

A word of a row begins with a character of one of its items, and everything before
that item is starred.  What may follow is said by the same kind of row: the item may
go on if it is repeated, and the items behind it come after.  Matching along a single
path takes one of these ways for each character, so every text that fits, and every
text that a pattern accepts, is in the language of its items, however ambiguous the
items are.
-/

namespace PatternWalk
namespace Item

/-!
# What is left of an item

An item that has taken a character can take any number of them further if it is
repeated, and none if it is not.
-/

/-- The items that the item held may still stand for. -/
def residue : Option Item -> List Item
  | none => []
  | some item =>
      match item.quantifier with
      | none => []
      | some _ => [⟨item.atom, some Quantifier.star⟩]

theorem residue_of_not_isRepeated {item : Item} (h : item.isRepeated = false) :
    residue (some item) = [] := by
  rcases item with ⟨a, _ | q⟩
  · rfl
  · cases h

theorem residue_of_isRepeated {item : Item} (h : item.isRepeated = true) :
    residue (some item) = [⟨item.atom, some Quantifier.star⟩] := by
  rcases item with ⟨a, _ | q⟩
  · cases h
  · rfl

theorem isStarred_of_mem_residue {held : Option Item} {item : Item}
    (h : item ∈ residue held) : item.isStarred = true := by
  cases held with
  | none => cases h
  | some kept =>
      cases hrepeated : kept.isRepeated with
      | false =>
          rw [residue_of_not_isRepeated hrepeated] at h
          cases h
      | true =>
          rw [residue_of_isRepeated hrepeated] at h
          rw [List.mem_singleton.mp h]
          rfl

theorem language_singleton_iff {item : Item} {word : List Char} :
    Language [item] word <-> item.Denotes word := by
  rw [language_cons_iff]
  constructor
  · intro h
    rcases h with ⟨front, back, rfl, hitem, hback⟩
    rw [language_nil_iff.mp hback, List.append_nil]
    exact hitem
  · intro h
    exact ⟨word, [], (List.append_nil word).symm, h, Language.nil⟩

theorem denotes_cons_iff {item : Item} {c : Char} {word : List Char} :
    item.Denotes (c :: word) <->
      item.accepts c = true ∧ Language (residue (some item)) word := by
  unfold Denotes
  rw [List.forall_mem_cons]
  cases hquantifier : item.quantifier with
  | none =>
      have hresidue : residue (some item) = [] := by
        simp only [residue, hquantifier]
      rw [hresidue, language_nil_iff]
      constructor
      · intro h
        have hlength : word.length + 1 = 1 := h.left
        exact ⟨h.right.left, List.length_eq_zero_iff.mp (Nat.succ.inj hlength)⟩
      · intro h
        rw [h.right]
        exact ⟨rfl, h.left, List.forall_mem_nil _⟩
  | some q =>
      have hresidue : residue (some item) = [⟨item.atom, some Quantifier.star⟩] := by
        simp only [residue, hquantifier]
      have hlength : AllowsLength (some q) (c :: word).length := by
        cases q with
        | star => exact trivial
        | plus => exact Nat.succ_pos _
      rw [hresidue, language_singleton_iff]
      constructor
      · intro h
        exact ⟨h.right.left, trivial, h.right.right⟩
      · intro h
        exact ⟨hlength, h.left, h.right.right⟩

/-!
# The first character of a word
-/

theorem language_nil_word_iff {items : List Item} :
    Language items [] <-> items.all isStarred = true := by
  induction items with
  | nil =>
      constructor
      · intro _
        rfl
      · intro _
        exact Language.nil
  | cons item rest ih =>
      rw [language_cons_iff, List.all_cons, Bool.and_eq_true]
      constructor
      · intro h
        rcases h with ⟨front, back, hword, hitem, hrest⟩
        rcases List.nil_eq_append_iff.mp hword with ⟨rfl, rfl⟩
        exact ⟨denotes_nil_iff.mp hitem, ih.mp hrest⟩
      · intro h
        exact ⟨[], [], rfl, denotes_nil_iff.mpr h.left, ih.mpr h.right⟩

theorem language_skip {skipped items : List Item} {word : List Char}
    (hskipped : forall item : Item, item ∈ skipped -> item.isStarred = true)
    (h : Language items word) : Language (skipped ++ items) word := by
  have hnil : Language skipped [] := by
    apply language_nil_word_iff.mpr
    exact List.all_eq_true.mpr hskipped
  exact language_append_iff.mpr ⟨[], word, rfl, hnil, h⟩

/-- The first character of a word is taken by an item behind starred ones, and what
is left of that item and the items behind it stand for the rest. -/
theorem language_cons_word_iff {items : List Item} {c : Char} {word : List Char} :
    Language items (c :: word) <->
      exists (skipped : List Item) (item : Item) (behind : List Item),
        items = skipped ++ item :: behind ∧
          (forall passed : Item, passed ∈ skipped -> passed.isStarred = true) ∧
          item.accepts c = true ∧ Language (residue (some item) ++ behind) word := by
  constructor
  · intro h
    induction items with
    | nil => cases language_nil_iff.mp h
    | cons first rest ih =>
        rcases language_cons_iff.mp h with ⟨front, back, hword, hfirst, hrest⟩
        cases front with
        | nil =>
            cases hword
            rcases ih hrest with ⟨skipped, item, behind, hitems, hskipped, haccepts, hbehind⟩
            refine ⟨first :: skipped, item, behind, ?_, ?_, haccepts, hbehind⟩
            · rw [hitems, List.cons_append]
            · exact List.forall_mem_cons.mpr ⟨denotes_nil_iff.mp hfirst, hskipped⟩
        | cons d front =>
            cases hword
            rcases denotes_cons_iff.mp hfirst with ⟨haccepts, hresidue⟩
            refine ⟨[], first, rest, rfl, List.forall_mem_nil _, haccepts, ?_⟩
            exact language_append_iff.mpr ⟨front, back, rfl, hresidue, hrest⟩
  · intro h
    rcases h with ⟨skipped, item, behind, rfl, hskipped, haccepts, hbehind⟩
    apply language_skip hskipped
    rcases language_append_iff.mp hbehind with ⟨front, back, rfl, hfront, hback⟩
    have hitem : item.Denotes (c :: front) := denotes_cons_iff.mpr ⟨haccepts, hfront⟩
    exact Language.cons hitem hback

/-!
# Words that fit
-/

theorem exists_residue_of_keeps {held : Option Item} {c : Char} (h : keeps held c = true) :
    exists again : Item,
      residue held = [again] ∧ again.accepts c = true ∧ residue (some again) = [again] := by
  cases held with
  | none => cases h
  | some item =>
      rcases Bool.and_eq_true_iff.mp h with ⟨hrepeated, haccepts⟩
      exact ⟨⟨item.atom, some Quantifier.star⟩, residue_of_isRepeated hrepeated, haccepts, rfl⟩

theorem language_of_fits {held : Option Item} {ahead : List Item} {word : List Char}
    (h : fits held ahead word = true) : Language (residue held ++ ahead) word := by
  induction word generalizing held ahead with
  | nil =>
      have hahead : Language ahead [] := language_nil_word_iff.mpr h
      exact language_skip (fun item hitem => isStarred_of_mem_residue hitem) hahead
  | cons c rest ih =>
      apply language_cons_word_iff.mpr
      unfold fits at h
      cases htaker : taker? c ahead with
      | some taken =>
          rw [htaker] at h
          rcases taken with ⟨item, behind⟩
          rcases exists_skipped_of_taker? htaker with ⟨skipped, hahead, hskipped⟩
          refine ⟨residue held ++ skipped, item, behind, ?_, ?_, accepts_of_taker? htaker, ih h⟩
          · rw [hahead, List.append_assoc]
          · refine List.forall_mem_append.mpr ⟨?_, ?_⟩
            · intro passed hpassed
              exact isStarred_of_mem_residue hpassed
            · intro passed hpassed
              exact (hskipped passed hpassed).left
      | none =>
          rw [htaker] at h
          rcases Bool.and_eq_true_iff.mp h with ⟨hkeeps, hfits⟩
          rcases exists_residue_of_keeps hkeeps with ⟨again, hheld, haccepts, hagain⟩
          have hrest := ih hfits
          rw [hheld] at hrest ⊢
          refine ⟨[], again, ahead, rfl, List.forall_mem_nil _, haccepts, ?_⟩
          rw [hagain]
          exact hrest

end Item

namespace Pattern

/-- No text outside the language of its items is accepted by a pattern. -/
theorem language_of_accepts (pattern : Pattern) {text : String}
    (h : pattern.graph.accepts text = Except.ok true) :
    exists items : List Item,
      Item.ofText? pattern.text = some items ∧ Item.Language items text.toList := by
  rcases pattern.exists_items with ⟨items, hitems, hstands⟩
  refine ⟨items, hitems, ?_⟩
  have haccepts : pattern.graph.accepts text =
      Except.ok (Item.fits none items text.toList) := hstands.accepts
  rw [haccepts] at h
  exact Item.language_of_fits (Except.ok.inj h)

theorem language_of_accepts_any_ab :
    exists pattern : Pattern,
      pattern.text = ".*ab" ∧ pattern.graph.accepts "aab" = Except.ok true ∧
        exists items : List Item,
          Item.ofText? pattern.text = some items ∧ Item.Language items "aab".toList := by
  let items : List Item :=
    [⟨Atom.any, some Quantifier.star⟩, ⟨Atom.char 'a', none⟩, ⟨Atom.char 'b', none⟩]
  have hitems : Item.ofText? ".*ab" = some items := by decide
  have hfits : Item.fits none items "aab".toList = true := by decide
  have haccepts : (ofItems hitems).graph.accepts "aab" = Except.ok true := by
    rw [<- hfits]
    exact (Graph.stands_lay items).accepts
  exact ⟨ofItems hitems, rfl, haccepts, language_of_accepts (ofItems hitems) haccepts⟩

end Pattern

end PatternWalk
