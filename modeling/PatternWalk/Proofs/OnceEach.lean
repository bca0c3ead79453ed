import Mathlib.Data.List.Forall2
import PatternWalk.Proofs.FirstFault
import PatternWalk.Proofs.Synchronisation

/-!
# One character for each item

A word with one character for each item of a row, which the item accepts, always fits.
The character goes to the item that is next, before anything behind it or the item held
is asked, so it makes no difference how the items are quantified.  Without quantifiers
no other word fits.  Hence a pattern accepts what is accepted by the pattern that is left
when all quantifiers are taken out of its text.
-/

namespace PatternWalk

def Text.unquantified (text : String) : String :=
  String.ofList (text.toList.filter (fun c => ¬ IsQuantifier c))

namespace Item

/-!
# Words of one character for each item
-/

def OnceEach (items : List Item) (word : List Char) : Prop :=
  List.Forall₂ (fun item c => item.accepts c = true) items word

theorem OnceEach.fits {items : List Item} {word : List Char} (h : OnceEach items word)
    (held : Option Item) : Item.fits held items word = true := by
  induction h generalizing held with
  | nil => rfl
  | cons haccepts _ ih =>
      rw [Item.fits, taker?, if_pos haccepts]
      exact ih _

theorem onceEach_of_fits {items : List Item} {word : List Char}
    (h : fits none (items.map once) word = true) : OnceEach items word := by
  induction items generalizing word with
  | nil =>
      cases word with
      | nil => exact List.Forall₂.nil
      | cons c word => cases h
  | cons item rest ih =>
      cases word with
      | nil => cases h
      | cons c word =>
          rw [List.map_cons, fits, taker?, accepts_once, isStarred_once] at h
          cases haccepts : item.accepts c with
          | true =>
              rw [haccepts] at h
              have hrest : fits (some item.once) (rest.map once) word = true := h
              rw [fits_once] at hrest
              exact List.Forall₂.cons haccepts (ih hrest)
          | false =>
              rw [haccepts] at h
              cases h

theorem fits_map_once_iff {items : List Item} {word : List Char} :
    fits none (items.map once) word = true <-> OnceEach items word := by
  constructor
  · exact onceEach_of_fits
  · intro h
    have honce : OnceEach (items.map once) word :=
      List.forall₂_map_left_iff.mpr h
    exact honce.fits none

/-!
# Taking out the quantifiers
-/

theorem read?_filter {symbols : List Symbol} {items : List Item}
    (h : read? symbols = some items) :
    read? (symbols.filter (fun s => (Quantifier.ofSymbol? s).isNone)) =
      some (items.map once) := by
  fun_induction read? symbols generalizing items with
  | case1 =>
      cases h
      rfl
  | case2 s rest hatom => cases h
  | case3 s a hatom =>
      cases h
      rw [List.filter_cons, Quantifier.ofSymbol?_eq_none_of_atom hatom]
      exact read?_atom_cons hatom trivial
  | case4 s a hatom r rest q hquantifier ih =>
      rcases Option.map_eq_some_iff.mp h with ⟨tail, htail, rfl⟩
      have hrest := ih htail
      rw [List.filter_cons, Quantifier.ofSymbol?_eq_none_of_atom hatom, List.filter_cons,
        hquantifier]
      show read? (s :: rest.filter _) = _
      rw [read?_atom_cons hatom (opens_of_read? hrest), hrest]
      rfl
  | case5 s a hatom r rest hquantifier ih =>
      rcases Option.map_eq_some_iff.mp h with ⟨tail, htail, rfl⟩
      have hrest := ih htail
      rw [List.filter_cons, Quantifier.ofSymbol?_eq_none_of_atom hatom]
      show read? (s :: (r :: rest).filter _) = _
      rw [read?_atom_cons hatom (opens_of_read? hrest), hrest]
      rfl

theorem ofText_unquantified (text : String) :
    Symbol.ofText (Text.unquantified text) =
      (Symbol.ofText text).filter (fun s => (Quantifier.ofSymbol? s).isNone) := by
  unfold Symbol.ofText Text.unquantified
  rw [String.toList_ofList, List.filter_map]
  congr 1
  apply List.filter_congr
  intro c _
  rw [Function.comp_apply, Bool.eq_iff_iff, decide_eq_true_iff, isQuantifier_iff,
    Option.isNone_iff_eq_none, Option.eq_none_iff_forall_ne_some, not_exists]

theorem ofText?_unquantified {text : String} {items : List Item}
    (h : ofText? text = some items) :
    ofText? (Text.unquantified text) = some (items.map once) := by
  unfold ofText? at h ⊢
  rw [ofText_unquantified]
  exact read?_filter h

end Item

namespace Pattern

/-- Without its quantifiers a pattern is a pattern.  It accepts the texts of one character
for each item, and all of them are accepted by the pattern with its quantifiers. -/
theorem accepts_of_accepts_unquantified (pattern : Pattern) :
    exists (items : List Item) (plain : Pattern),
      Item.ofText? pattern.text = some items ∧
        parse (Text.unquantified pattern.text) = Except.ok plain ∧
        (forall text : String,
          plain.graph.accepts text = Except.ok true <-> Item.OnceEach items text.toList) ∧
        forall text : String,
          plain.graph.accepts text = Except.ok true ->
            pattern.graph.accepts text = Except.ok true := by
  rcases pattern.exists_items with ⟨items, hitems, _⟩
  rcases exists_parse_of_items (Item.ofText?_unquantified hitems) with ⟨plain, hplain, hplainrow⟩
  have honce : forall text : String,
      plain.graph.accepts text = Except.ok true <-> Item.OnceEach items text.toList := by
    intro text
    rw [accepts_iff_fits hplainrow, Item.fits_map_once_iff]
  refine ⟨items, plain, hitems, hplain, honce, ?_⟩
  intro text haccepts
  rw [accepts_iff_fits hitems]
  exact ((honce text).mp haccepts).fits none

end Pattern

end PatternWalk
