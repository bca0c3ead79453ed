import PatternWalk.Pattern.Item

/-!
# Ambiguous rows

A row is ambiguous when a character after a repeated item could be taken by that
item as well as by an item behind it.  Only starred items may stand between the two.
Whether a row is ambiguous can be told from its items: two items have no character in
common only when they ask for different characters.
-/

namespace PatternWalk

namespace Atom

def apart : Atom -> Atom -> Bool
  | char wanted, char other => wanted ≠ other
  | _, _ => false

theorem apart_iff {a b : Atom} :
    a.apart b = true <-> forall c : Char, ¬ (a.accepts c = true ∧ b.accepts c = true) := by
  constructor
  · intro h c hboth
    cases a with
    | any => cases h
    | char wanted =>
        cases b with
        | any => cases h
        | char other =>
            have hwanted : wanted = c := of_decide_eq_true hboth.left
            have hother : other = c := of_decide_eq_true hboth.right
            exact of_decide_eq_true h (hwanted.trans hother.symm)
  · intro h
    cases a with
    | any =>
        cases b with
        | any => exact absurd ⟨rfl, rfl⟩ (h 'a')
        | char other => exact absurd ⟨rfl, decide_eq_true rfl⟩ (h other)
    | char wanted =>
        cases b with
        | any => exact absurd ⟨decide_eq_true rfl, rfl⟩ (h wanted)
        | char other =>
            apply decide_eq_true
            intro heq
            exact h wanted ⟨decide_eq_true rfl, decide_eq_true heq.symm⟩

end Atom

namespace Item

/-- No repeated item has a character in common with an item behind it that only
starred items keep it from. -/
def Unambiguous (items : List Item) : Prop :=
  forall (before between after : List Item) (repeated later : Item),
    items = before ++ repeated :: (between ++ later :: after) ->
      repeated.isRepeated = true ->
        (forall item : Item, item ∈ between -> item.isStarred = true) ->
          forall c : Char, ¬ (repeated.accepts c = true ∧ later.accepts c = true)

theorem unambiguous_nil : Unambiguous [] := by
  intro before between after repeated later hitems
  cases before <;> cases hitems

theorem Unambiguous.of_append {front items : List Item} (h : Unambiguous (front ++ items)) :
    Unambiguous items := by
  intro before between after repeated later hitems
  apply h (front ++ before) between after repeated later
  rw [hitems, List.append_assoc]

/-!
# Items that come next
-/

/-- The items that may take the next character: the starred ones in front and the
first one that is not starred. -/
def upcoming : List Item -> List Item
  | [] => []
  | item :: rest => if item.isStarred then item :: upcoming rest else [item]

theorem mem_upcoming_iff {items : List Item} {later : Item} :
    later ∈ upcoming items <->
      exists between after : List Item,
        items = between ++ later :: after ∧
          forall item : Item, item ∈ between -> item.isStarred = true := by
  induction items with
  | nil =>
      constructor
      · intro h
        cases h
      · intro h
        rcases h with ⟨between, after, hitems, _⟩
        cases between <;> cases hitems
  | cons first rest ih =>
      have hhere : exists between after : List Item,
          first :: rest = between ++ first :: after ∧
            forall item : Item, item ∈ between -> item.isStarred = true := by
        exact ⟨[], rest, rfl, List.forall_mem_nil _⟩
      unfold upcoming
      cases hstarred : first.isStarred with
      | true =>
          rw [if_pos rfl, List.mem_cons, ih]
          constructor
          · intro h
            rcases h with rfl | ⟨between, after, hrest, hbetween⟩
            · exact hhere
            · refine ⟨first :: between, after, ?_, ?_⟩
              · rw [hrest, List.cons_append]
              · exact List.forall_mem_cons.mpr ⟨hstarred, hbetween⟩
          · intro h
            rcases h with ⟨between, after, hitems, hbetween⟩
            cases between with
            | nil =>
                cases hitems
                exact Or.inl rfl
            | cons item between =>
                cases hitems
                exact Or.inr ⟨between, after, rfl, (List.forall_mem_cons.mp hbetween).right⟩
      | false =>
          rw [if_neg Bool.false_ne_true, List.mem_singleton]
          constructor
          · intro h
            rw [h]
            exact hhere
          · intro h
            rcases h with ⟨between, after, hitems, hbetween⟩
            cases between with
            | nil =>
                cases hitems
                rfl
            | cons item between =>
                cases hitems
                have hfirst := (List.forall_mem_cons.mp hbetween).left
                rw [hstarred] at hfirst
                cases hfirst

theorem unambiguous_cons_iff {item : Item} {rest : List Item} :
    Unambiguous (item :: rest) <->
      (item.isRepeated = true ->
        forall later : Item, later ∈ upcoming rest -> item.atom.apart later.atom = true) ∧
        Unambiguous rest := by
  constructor
  · intro h
    have hrest : Unambiguous ([item] ++ rest) := h
    refine ⟨?_, hrest.of_append⟩
    intro hrepeated later hlater
    rcases mem_upcoming_iff.mp hlater with ⟨between, after, hrest, hbetween⟩
    apply Atom.apart_iff.mpr
    apply h [] between after item later _ hrepeated hbetween
    rw [hrest]
    rfl
  · intro h before between after repeated later hitems hrepeated hbetween
    cases before with
    | nil =>
        cases hitems
        have hlater : later ∈ upcoming (between ++ later :: after) :=
          mem_upcoming_iff.mpr ⟨between, after, rfl, hbetween⟩
        exact Atom.apart_iff.mp (h.left hrepeated later hlater)
    | cons first before =>
        cases hitems
        exact h.right before between after repeated later rfl hrepeated hbetween

instance decidableUnambiguous : (items : List Item) -> Decidable (Unambiguous items)
  | [] => isTrue unambiguous_nil
  | _ :: rest =>
      have := decidableUnambiguous rest
      decidable_of_iff _ unambiguous_cons_iff.symm

end Item
end PatternWalk
