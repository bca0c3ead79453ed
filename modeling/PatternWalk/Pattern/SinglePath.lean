import PatternWalk.Pattern.Item

/-!
# Matching along a single path

A text can be matched against a row of items without a graph and without ever
going back.  The matcher holds the item that took the last character.  A further
character goes to the first item ahead that accepts it, provided that every item
passed over is starred; failing that, it stays with a repeated item that is
held.  The text fits when only starred items are left ahead of its end.

The choice is final, so a text of the row's language can be turned away: a starred
item in front of a plain one for the same character takes that character once and no
more.
-/

namespace PatternWalk
namespace Item

/-- The first item that takes the character, and what comes behind it, when
every item in front of it is starred. -/
def taker? (c : Char) : List Item -> Option (Item × List Item)
  | [] => none
  | item :: rest =>
      if item.accepts c then some (item, rest)
      else if item.isStarred then taker? c rest
      else none

def keeps (held : Option Item) (c : Char) : Bool :=
  match held with
  | some item => item.isRepeated && item.accepts c
  | none => false

/-- Match a text from the item held and the items ahead. -/
def fits (held : Option Item) (ahead : List Item) : List Char -> Bool
  | [] => ahead.all isStarred
  | c :: rest =>
      match taker? c ahead with
      | some (item, behind) => fits (some item) behind rest
      | none => keeps held c && fits held ahead rest

/-!
# What the taker says
-/

theorem accepts_of_taker? {c : Char} {items behind : List Item} {item : Item}
    (h : taker? c items = some (item, behind)) : item.accepts c = true := by
  induction items with
  | nil => cases h
  | cons first rest ih =>
      unfold taker? at h
      by_cases haccepts : first.accepts c
      · rw [if_pos haccepts] at h
        cases h
        exact haccepts
      · rw [if_neg haccepts] at h
        by_cases hstarred : first.isStarred
        · rw [if_pos hstarred] at h
          exact ih h
        · rw [if_neg hstarred] at h
          cases h

theorem exists_skipped_of_taker? {c : Char} {items behind : List Item} {item : Item}
    (h : taker? c items = some (item, behind)) :
    exists skipped : List Item,
      items = skipped ++ item :: behind ∧
        forall passed : Item, passed ∈ skipped ->
          passed.isStarred = true ∧ passed.accepts c = false := by
  induction items with
  | nil => cases h
  | cons first rest ih =>
      unfold taker? at h
      by_cases haccepts : first.accepts c
      · rw [if_pos haccepts] at h
        cases h
        exact ⟨[], rfl, fun passed hpassed => nomatch hpassed⟩
      · rw [if_neg haccepts] at h
        by_cases hstarred : first.isStarred
        · rw [if_pos hstarred] at h
          rcases ih h with ⟨skipped, hitems, hskipped⟩
          refine ⟨first :: skipped, ?_, ?_⟩
          · rw [hitems, List.cons_append]
          · intro passed hpassed
            cases List.mem_cons.mp hpassed with
            | inl hfirst =>
                rw [hfirst]
                exact ⟨hstarred, Bool.not_eq_true _ ▸ haccepts⟩
            | inr hrest => exact hskipped passed hrest
        · rw [if_neg hstarred] at h
          cases h

theorem taker?_append {c : Char} {skipped behind : List Item} {item : Item}
    (hskipped : forall passed : Item, passed ∈ skipped ->
      passed.isStarred = true ∧ passed.accepts c = false)
    (haccepts : item.accepts c = true) :
    taker? c (skipped ++ item :: behind) = some (item, behind) := by
  induction skipped with
  | nil =>
      rw [List.nil_append, taker?, if_pos haccepts]
  | cons first rest ih =>
      rcases hskipped first List.mem_cons_self with ⟨hstarred, hrefuses⟩
      have hrest := ih (fun passed hpassed => hskipped passed (List.mem_cons_of_mem _ hpassed))
      rw [List.cons_append, taker?, if_neg (Bool.not_eq_true _ ▸ hrefuses), if_pos hstarred]
      exact hrest

theorem taker?_rows_append (c : Char) (front back : List Item) :
    taker? c (front ++ back) =
      match taker? c front with
      | some (item, behind) => some (item, behind ++ back)
      | none => if front.all isStarred then taker? c back else none := by
  induction front with
  | nil => rfl
  | cons first rest ih =>
      rw [List.cons_append, taker?, taker?, List.all_cons]
      cases first.accepts c with
      | true => rfl
      | false =>
          cases first.isStarred with
          | true => exact ih
          | false => rfl

end Item

/-!
# Completing a text
-/

def Atom.sample : Atom -> Char
  | any => 'a'
  | char c => c

theorem Atom.accepts_sample (a : Atom) : a.accepts a.sample = true := by
  cases a with
  | any => rfl
  | char c => exact decide_eq_true rfl

namespace Item

def samples (ahead : List Item) : List Char :=
  ahead.map (fun item => item.atom.sample)

theorem taker?_sample (item : Item) (rest : List Item) :
    taker? item.atom.sample (item :: rest) = some (item, rest) := by
  have haccepts : item.accepts item.atom.sample = true := item.atom.accepts_sample
  rw [taker?, if_pos haccepts]

/-- A text can be completed from every place of a row. -/
theorem fits_samples (held : Option Item) (ahead : List Item) :
    fits held ahead (samples ahead) = true := by
  induction ahead generalizing held with
  | nil => rfl
  | cons item rest ih =>
      show fits held (item :: rest) (item.atom.sample :: samples rest) = true
      rw [fits, taker?_sample]
      exact ih (some item)

end Item
end PatternWalk
