import PatternWalk.Pattern
import PatternWalk.Proofs.LookAhead

/-!
# Matching by a graph and along a single path

The run of a graph that was built from a row of items does what matching along a
single path does to the row.  A run stands where the matcher is: the node it stands
in is that of the item held, and the nodes behind it are those of the items ahead.
One character keeps the two together, and so does a whole text.  A pattern therefore
accepts exactly the texts that fit its items.
-/

namespace PatternWalk
namespace Graph
namespace Stands

variable {g : Graph} {id : Nat} {held : Option Item} {ahead : List Item}

/-!
# One character
-/

theorem node_eq (h : g.Stands id held ahead) :
    g.node id = Except.ok (Item.heldNode held id) :=
  node_of_node? h.left

theorem select (h : g.Stands id held ahead) (c : Char) :
    match Item.taker? c ahead with
    | some (item, behind) =>
        exists target : Nat,
          g.select id c = Except.ok (some target) ∧ g.Stands target (some item) behind
    | none => g.select id c = Except.ok none := by
  have hending := Plan.ending_along_selecting (c := c) h.right Marks.empty
  unfold Graph.select
  simp only [bind, Except.bind, h.node_eq, h.run_ahead]
  cases htaker : Item.taker? c ahead with
  | none =>
      rw [htaker] at hending
      rw [hending]
      rfl
  | some taken =>
      rw [htaker] at hending
      rcases hending with ⟨target, hstopped, hstands⟩
      refine ⟨target, ?_, hstands⟩
      rw [hstopped]
      rfl

theorem keeps_eq (held : Option Item) (id : Nat) (c : Char) :
    ((Item.heldNode held id).state.isLoop && (Item.heldNode held id).state.accepts c) =
      Item.keeps held c := by
  cases held with
  | none => rfl
  | some item =>
      show (item.state.isLoop && item.state.accepts c) = (item.isRepeated && item.accepts c)
      rw [Item.isLoop_state, Item.accepts_state]

theorem next (h : g.Stands id held ahead) (c : Char) :
    match Item.taker? c ahead with
    | some (item, behind) =>
        exists target : Nat,
          g.next id c = Except.ok (some target) ∧ g.Stands target (some item) behind
    | none => g.next id c = Except.ok (if Item.keeps held c then some id else none) := by
  have hselect := h.select c
  unfold Graph.next
  cases htaker : Item.taker? c ahead with
  | none =>
      rw [htaker] at hselect
      rw [hselect]
      simp only [bind, Except.bind, h.node_eq, keeps_eq]
      split <;> rfl
  | some taken =>
      rw [htaker] at hselect
      rcases hselect with ⟨target, hselect, hstands⟩
      refine ⟨target, ?_, hstands⟩
      rw [hselect]
      rfl

theorem canFinish (h : g.Stands id held ahead) :
    g.canFinish id = Except.ok (ahead.all Item.isStarred) := by
  have hending := Plan.ending_along_finishing ahead Marks.empty (id + 1)
  unfold Graph.canFinish
  simp only [bind, Except.bind, h.node_eq, h.run_ahead, hending]
  cases ahead.all Item.isStarred <;> rfl

/-!
# A whole text
-/

/-- A run ends in a place of the row from which the word fits as it does from here,
or it is refused and the word does not fit. -/
theorem follow (h : g.Stands id held ahead) (word : List Char) :
    (exists (last : Nat) (kept : Option Item) (left : List Item),
      g.follow id word = Except.ok (Arrival.standing last) ∧ g.Stands last kept left ∧
        Item.fits held ahead word = left.all Item.isStarred) ∨
      exists (c : Char) (last : Nat),
        g.follow id word = Except.ok (Arrival.refused c last) ∧
          Item.fits held ahead word = false := by
  induction word generalizing id held ahead with
  | nil => exact Or.inl ⟨id, held, ahead, rfl, h, rfl⟩
  | cons c rest ih =>
      have hnext := h.next c
      unfold Graph.follow Item.fits
      cases htaker : Item.taker? c ahead with
      | some taken =>
          rw [htaker] at hnext
          rcases hnext with ⟨target, hnext, hstands⟩
          rw [hnext]
          exact ih hstands
      | none =>
          rw [htaker] at hnext
          rw [hnext]
          cases hkeeps : Item.keeps held c with
          | true => exact ih h
          | false => exact Or.inr ⟨c, id, rfl, rfl⟩

theorem accepts {text : String} (h : g.Stands startId held ahead) :
    g.accepts text = Except.ok (Item.fits held ahead text.toList) := by
  unfold Graph.accepts Graph.run
  rcases h.follow text.toList with
    ⟨last, kept, left, hfollow, hstands, hfits⟩ | ⟨c, last, hfollow, hfits⟩
  · simp only [bind, Except.bind, hfollow, hstands.canFinish, hfits]
    rfl
  · simp only [bind, Except.bind, hfollow, hfits]
    rfl

end Stands
end Graph

/-!
# Patterns
-/

namespace Pattern

theorem exists_items (pattern : Pattern) :
    exists items : List Item,
      Item.ofText? pattern.text = some items ∧
        pattern.graph.Stands Graph.startId none items := by
  rcases Build.exists_items_of_result pattern.built with ⟨items, hitems, hgraph⟩
  refine ⟨items, hitems, ?_⟩
  rw [hgraph]
  exact Graph.stands_lay items

def ofItems {text : String} {items : List Item} (h : Item.ofText? text = some items) : Pattern :=
  ⟨text, Graph.lone.lay items, Build.result_of_items h⟩

theorem stands_of_items {pattern : Pattern} {items : List Item}
    (h : Item.ofText? pattern.text = some items) :
    pattern.graph.Stands Graph.startId none items := by
  rcases pattern.exists_items with ⟨others, hothers, hstands⟩
  rw [h] at hothers
  cases hothers
  exact hstands

theorem accepts_iff_fits {pattern : Pattern} {items : List Item}
    (h : Item.ofText? pattern.text = some items) (text : String) :
    pattern.graph.accepts text = Except.ok true <->
      Item.fits none items text.toList = true := by
  have haccepts : pattern.graph.accepts text =
      Except.ok (Item.fits none items text.toList) := (stands_of_items h).accepts
  rw [haccepts]
  constructor
  · intro hok
    exact Except.ok.inj hok
  · intro hfits
    rw [hfits]

theorem accepts_same_iff {pattern other : Pattern} {items others : List Item}
    (h : Item.ofText? pattern.text = some items)
    (hother : Item.ofText? other.text = some others) :
    (forall text : String,
      pattern.graph.accepts text = Except.ok true <->
        other.graph.accepts text = Except.ok true) <->
      forall word : List Char,
        Item.fits none items word = true <-> Item.fits none others word = true := by
  simp only [accepts_iff_fits h, accepts_iff_fits hother]
  constructor
  · intro hsame word
    have htext := hsame (String.ofList word)
    rw [String.toList_ofList] at htext
    exact htext
  · intro hsame text
    exact hsame text.toList

theorem exists_parse_of_items {text : String} {items : List Item}
    (h : Item.ofText? text = some items) :
    exists pattern : Pattern,
      parse text = Except.ok pattern ∧ Item.ofText? pattern.text = some items :=
  ⟨ofItems h, parse_eq_ok_iff.mpr rfl, h⟩

theorem exists_items_of_parse {text : String} {pattern : Pattern}
    (h : parse text = Except.ok pattern) :
    exists items : List Item,
      Item.ofText? text = some items ∧ Item.ofText? pattern.text = some items := by
  have htext : pattern.text = text := parse_eq_ok_iff.mp h
  rcases pattern.exists_items with ⟨items, hitems, _⟩
  refine ⟨items, ?_, hitems⟩
  rw [<- htext]
  exact hitems

/-- A pattern is a row of items, and it accepts the texts that fit this row. -/
theorem accepts_eq_fits (pattern : Pattern) :
    exists items : List Item,
      Item.ofText? pattern.text = some items ∧
        forall text : String,
          pattern.graph.accepts text = Except.ok (Item.fits none items text.toList) := by
  rcases pattern.exists_items with ⟨items, hitems, hstands⟩
  exact ⟨items, hitems, fun text => hstands.accepts⟩

end Pattern

end PatternWalk
