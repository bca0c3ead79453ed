import PatternWalk.Graph.Spelling
import PatternWalk.Proofs.Simulation

/-!
# The shape of a pattern's graph

The graph of a pattern is the start node with the row of the pattern's items behind it
and nothing else.  A walk goes along the row and meets its nodes in the order of their
names, so the pattern can be read off its graph again, and no two patterns have the
same graph.
-/

namespace PatternWalk

/-!
# Walking along a row
-/

theorem Plan.along_walking (entered : Marks) (id : Nat) (items : List Item) :
    (walking.along entered id items).ending = Ending.exhausted ∧
      (walking.along entered id items).entered.order =
        (List.range' id (items.length + 1)).reverse ++ entered.order := by
  induction items generalizing entered id with
  | nil => exact ⟨rfl, rfl⟩
  | cons item rest ih =>
      rcases ih (entered.add id) (id + 1) with ⟨hending, horder⟩
      have hrange : List.range' id (rest.length + 1 + 1) =
          id :: List.range' (id + 1) (rest.length + 1) := List.range'_succ
      refine ⟨hending, ?_⟩
      show (walking.along (entered.add id) (id + 1) rest).entered.order = _
      rw [horder, List.length_cons, hrange, List.reverse_cons, List.append_assoc]
      rfl

def Item.entries : Nat -> List Item -> List (Nat × Node)
  | id, [] => [(id, ⟨State.final, []⟩)]
  | id, item :: rest => (id, item.node id) :: entries (id + 1) rest

theorem Item.flatMap_symbols_entries (id : Nat) (items : List Item) :
    (entries id items).flatMap (fun entry => entry.2.state.symbols) = spell items := by
  induction items generalizing id with
  | nil => rfl
  | cons item rest ih =>
      have hnode : (item.node id).state.symbols = item.symbols := item.symbols_state
      rw [entries, List.flatMap_cons, ih, hnode]
      rfl

namespace Graph

theorem HasRow.mapM_node {g : Graph} {items : List Item} {id : Nat} (h : g.HasRow id items) :
    (List.range' id (items.length + 1)).mapM (fun id => do
        let node <- g.node id
        return (id, node)) = Except.ok (Item.entries id items) := by
  induction items generalizing id with
  | nil =>
      have hnode : g.node id = Except.ok ⟨State.final, []⟩ := node_of_node? h
      simp only [List.length_nil, List.range'_succ, List.range'_zero, List.mapM_cons,
        List.mapM_nil, hnode]
      rfl
  | cons item rest ih =>
      have hnode : g.node id = Except.ok (item.node id) := node_of_node? h.left
      have hrest := ih h.right
      rw [List.length_cons, List.range'_succ, List.mapM_cons, hnode, hrest]
      rfl

theorem range_eq_startId_cons (n : Nat) :
    List.range (n + 2) = startId :: List.range' 1 (n + 1) := by
  rw [List.range_eq_range', List.range'_succ]
  rfl

namespace Stands

variable {g : Graph} {items : List Item}

theorem walk (h : g.Stands startId none items) :
    g.walk = Except.ok (List.range (items.length + 2)) := by
  have htargets : g.targets startId = [1] := targets_of_node? h.left
  have hbefore : forall other : Nat, other ∈ Marks.empty.add startId -> other < 1 := by
    intro other hother
    rcases Marks.mem_add.mp hother with hstart | hempty
    · rw [hstart]
      exact Nat.one_pos
    · exact absurd hempty (Marks.not_mem_empty other)
  have hrun : g.walkSearch.run g Plan.walking =
      Plan.walking.along (Marks.empty.add startId) 1 items := by
    rw [walkSearch, htargets]
    exact Search.run_row h.right Nat.one_pos hbefore Search.spent_nil
  rcases Plan.along_walking (Marks.empty.add startId) 1 items with ⟨hending, horder⟩
  have hnames : (Plan.walking.along (Marks.empty.add startId) 1 items).entered.order.reverse =
      List.range (items.length + 2) := by
    rw [horder, List.reverse_append, List.reverse_reverse, range_eq_startId_cons]
    rfl
  unfold Graph.walk
  simp only [hrun, hending, hnames]

theorem layout (h : g.Stands startId none items) :
    g.layout = Except.ok ((startId, ⟨State.start, [1]⟩) :: Item.entries 1 items) := by
  have hnode : g.node startId = Except.ok ⟨State.start, [1]⟩ := node_of_node? h.left
  have hrow : g.HasRow 1 items := h.right
  have hrest := hrow.mapM_node
  have hnodes : (List.range (items.length + 2)).mapM (fun id => do
        let node <- g.node id
        return (id, node)) =
      Except.ok ((startId, ⟨State.start, [1]⟩) :: Item.entries 1 items) := by
    rw [range_eq_startId_cons, List.mapM_cons, hnode, hrest]
    rfl
  unfold Graph.layout
  rw [h.walk]
  exact hnodes

theorem spelling (h : g.Stands startId none items) :
    g.spelling = Except.ok (Symbol.text (Item.spell items)) := by
  rw [Graph.spelling, h.layout]
  show Except.ok (Symbol.text
    ((Item.entries 1 items).flatMap (fun entry => entry.2.state.symbols))) = _
  rw [Item.flatMap_symbols_entries]

end Stands

end Graph

namespace Pattern

/-!
# The row of a pattern
-/

theorem spelling_graph (pattern : Pattern) :
    pattern.graph.spelling = Except.ok pattern.text := by
  rcases pattern.exists_items with ⟨items, hitems, hstands⟩
  rw [hstands.spelling, Item.spell_of_read? hitems, Symbol.text_ofText]

theorem text_eq_of_graph_eq {pattern other : Pattern} (h : other.graph = pattern.graph) :
    other.text = pattern.text := by
  have hspelling := other.spelling_graph
  rw [h, pattern.spelling_graph] at hspelling
  exact (Except.ok.inj hspelling).symm

theorem size_graph {pattern : Pattern} {items : List Item}
    (h : Item.ofText? pattern.text = some items) : pattern.graph.size = items.length + 2 := by
  rcases Build.exists_items_of_result pattern.built with ⟨others, hothers, hgraph⟩
  rw [h] at hothers
  cases hothers
  rw [hgraph, Graph.size_lay, Graph.size_lone]
  omega

/-- The graph of a pattern of `n` items has the start node, the nodes of the items in
order, and the final node, each of which goes on to the next one and loops first if its
item is repeated.  A walk meets them in this order, and they spell the pattern. -/
theorem graph_is_row (pattern : Pattern) :
    exists items : List Item,
      Item.ofText? pattern.text = some items ∧
        pattern.graph.size = items.length + 2 ∧
        Graph.startId = 0 ∧
        pattern.graph.node? 0 = some ⟨State.start, [1]⟩ ∧
        (forall (i : Nat) (item : Item),
          items[i]? = some item ->
            pattern.graph.node? (i + 1) =
              some ⟨item.state, if item.isRepeated then [i + 1, i + 2] else [i + 2]⟩) ∧
        pattern.graph.node? (items.length + 1) = some ⟨State.final, []⟩ ∧
        pattern.graph.walk = Except.ok (List.range (items.length + 2)) ∧
        pattern.graph.spelling = Except.ok pattern.text ∧
        forall other : Pattern, other.graph = pattern.graph -> other.text = pattern.text := by
  rcases pattern.exists_items with ⟨items, hitems, hstands⟩
  have hrow : pattern.graph.HasRow 1 items := hstands.right
  refine ⟨items, hitems, size_graph hitems, rfl, hstands.left, ?_, ?_, hstands.walk,
    pattern.spelling_graph, fun other => text_eq_of_graph_eq⟩
  · intro i item hitem
    have hnode := hrow.node?_of_getElem? hitem
    rw [Nat.add_comm 1 i] at hnode
    exact hnode
  · rw [Nat.add_comm]
    exact hrow.node?_length

end Pattern

end PatternWalk
