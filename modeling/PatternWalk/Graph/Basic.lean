import PatternWalk.Graph.State

/-!
# Graphs

A graph is a growing row of nodes, each a state with an ordered list of
targets.  Nodes are named by their place in the row, and the first node is the
start.  Targets are plain numbers and may name a node that does not exist: that
is no fault until somebody follows them.

Every graph can be grown from the lone start node by adding nodes, connecting
and disconnecting targets, and relabelling.
-/

namespace PatternWalk

structure Node where
  state : State
  targets : List Nat
deriving DecidableEq

structure Graph where
  nodes : Array Node
  nonempty : 0 < nodes.size
deriving DecidableEq

structure MissingNode where
  size : Nat
  id : Nat
deriving DecidableEq

def MissingNode.message (missing : MissingNode) : String :=
  "index out of bounds: the len is " ++ toString missing.size ++
    " but the index is " ++ toString missing.id

namespace Graph

/-!
# Reading
-/

def size (g : Graph) : Nat :=
  g.nodes.size

def startId : Nat := 0

theorem startId_lt_size (g : Graph) : startId < g.size :=
  g.nonempty

def node? (g : Graph) (id : Nat) : Option Node :=
  g.nodes[id]?

def node (g : Graph) (id : Nat) : Except MissingNode Node :=
  match g.node? id with
  | some node => Except.ok node
  | none => Except.error ⟨g.size, id⟩

theorem node?_eq_none_iff {g : Graph} {id : Nat} :
    g.node? id = none <-> g.size <= id := by
  simp [node?, size]

theorem lt_size_of_node? {g : Graph} {id : Nat} {node : Node}
    (h : g.node? id = some node) : id < g.size := by
  rcases Nat.lt_or_ge id g.size with hlt | hge
  · exact hlt
  · rw [node?_eq_none_iff.mpr hge] at h
    cases h

theorem node_of_node? {g : Graph} {id : Nat} {node : Node}
    (h : g.node? id = some node) : g.node id = Except.ok node := by
  simp [Graph.node, h]

theorem exists_node?_of_bind {g : Graph} {id : Nat} {α : Type} {use : Node -> Except MissingNode α}
    {a : α} (h : (g.node id >>= use) = Except.ok a) :
    exists node : Node, g.node? id = some node ∧ use node = Except.ok a := by
  unfold Graph.node at h
  cases hnode : g.node? id with
  | some node =>
      rw [hnode] at h
      exact ⟨node, rfl, h⟩
  | none =>
      rw [hnode] at h
      cases h

theorem exists_node?_of_lt {g : Graph} {id : Nat} (h : id < g.size) :
    exists node : Node, g.node? id = some node := by
  cases hnode : g.node? id with
  | some node => exact ⟨node, rfl⟩
  | none => exact absurd (node?_eq_none_iff.mp hnode) (Nat.not_le.mpr h)

theorem eq_of_node? {g h : Graph} (hnodes : forall id : Nat, g.node? id = h.node? id) :
    g = h := by
  cases g with
  | mk nodes hnonempty =>
      cases h with
      | mk others hothers =>
          have hrow : nodes = others := Array.ext_getElem? hnodes
          cases hrow
          rfl

def state? (g : Graph) (id : Nat) : Option State :=
  (g.node? id).map Node.state

/-- Targets of a node in order.  A node that does not exist has none. -/
def targets (g : Graph) (id : Nat) : List Nat :=
  ((g.node? id).map Node.targets).getD []

def lastTarget? (g : Graph) (id : Nat) : Option Nat :=
  (g.targets id).getLast?

theorem targets_of_node? {g : Graph} {id : Nat} {node : Node}
    (h : g.node? id = some node) : g.targets id = node.targets := by
  simp [targets, h]

/-!
# Growing
-/

def lone : Graph :=
  ⟨#[⟨State.start, []⟩], by decide⟩

def addState (g : Graph) (state : State) : Graph :=
  ⟨g.nodes.push ⟨state, []⟩, by simp⟩

def modify (g : Graph) (id : Nat) (change : Node -> Node) : Graph :=
  ⟨g.nodes.modify id change, by simpa using g.nonempty⟩

def connect (g : Graph) (source target : Nat) : Graph :=
  g.modify source (fun node => { node with targets := node.targets ++ [target] })

def disconnect (g : Graph) (source : Nat) : Graph :=
  g.modify source (fun node => { node with targets := node.targets.dropLast })

def relabel (g : Graph) (id : Nat) (state : State) : Graph :=
  g.modify id (fun node => { node with state := state })

/-!
# Sizes
-/

@[simp] theorem size_lone : lone.size = 1 := rfl

@[simp] theorem size_addState (g : Graph) (state : State) :
    (g.addState state).size = g.size + 1 := by
  simp [addState, size]

@[simp] theorem size_modify (g : Graph) (id : Nat) (change : Node -> Node) :
    (g.modify id change).size = g.size := by
  simp [modify, size]

@[simp] theorem size_connect (g : Graph) (source target : Nat) :
    (g.connect source target).size = g.size :=
  size_modify _ _ _

@[simp] theorem size_disconnect (g : Graph) (source : Nat) :
    (g.disconnect source).size = g.size :=
  size_modify _ _ _

@[simp] theorem size_relabel (g : Graph) (id : Nat) (state : State) :
    (g.relabel id state).size = g.size :=
  size_modify _ _ _

/-!
# Nodes after a change
-/

theorem node?_lone (id : Nat) :
    lone.node? id = if id = 0 then some ⟨State.start, []⟩ else none := by
  cases id <;> simp [lone, node?]

theorem node?_addState (g : Graph) (state : State) (id : Nat) :
    (g.addState state).node? id =
      if id = g.size then some ⟨state, []⟩ else g.node? id := by
  simp only [addState, node?, Array.getElem?_push]
  rfl

theorem node?_modify (g : Graph) (id : Nat) (change : Node -> Node) (other : Nat) :
    (g.modify id change).node? other =
      if id = other then (g.node? other).map change else g.node? other := by
  simp [modify, node?, Array.getElem?_modify]

theorem node?_disconnect_of_ne {g : Graph} {source id : Nat} (hne : source ≠ id) :
    (g.disconnect source).node? id = g.node? id := by
  rw [disconnect, node?_modify, if_neg hne]

/-!
# Targets after a change
-/

theorem targets_eq_nil_of_size_le {g : Graph} {id : Nat} (h : g.size <= id) :
    g.targets id = [] := by
  simp [targets, node?_eq_none_iff.mpr h]

@[simp] theorem targets_lone (id : Nat) : lone.targets id = [] := by
  rw [targets, node?_lone]
  split <;> rfl

@[simp] theorem targets_addState (g : Graph) (state : State) (id : Nat) :
    (g.addState state).targets id = g.targets id := by
  by_cases hid : id = g.size
  · rw [targets_eq_nil_of_size_le (Nat.le_of_eq hid.symm), targets, node?_addState,
      if_pos hid]
    rfl
  · rw [targets, node?_addState, if_neg hid, targets]

theorem targets_connect {g : Graph} {source : Nat} (h : source < g.size)
    (target id : Nat) :
    (g.connect source target).targets id =
      if source = id then g.targets id ++ [target] else g.targets id := by
  by_cases hid : source = id
  · subst hid
    cases hnode : g.node? source with
    | none => exact absurd (node?_eq_none_iff.mp hnode) (Nat.not_le.mpr h)
    | some node => simp [connect, targets, node?_modify, hnode]
  · simp [connect, targets, node?_modify, hid]

@[simp] theorem targets_disconnect (g : Graph) (source id : Nat) :
    (g.disconnect source).targets id =
      if source = id then (g.targets id).dropLast else g.targets id := by
  by_cases hid : source = id
  · subst hid
    cases hnode : g.node? source with
    | none => simp [disconnect, targets, node?_modify, hnode]
    | some node => simp [disconnect, targets, node?_modify, hnode]
  · simp [disconnect, targets, node?_modify, hid]

@[simp] theorem targets_relabel (g : Graph) (source : Nat) (state : State) (id : Nat) :
    (g.relabel source state).targets id = g.targets id := by
  by_cases hid : source = id
  · subst hid
    cases hnode : g.node? source with
    | none => simp [relabel, targets, node?_modify, hnode]
    | some node => simp [relabel, targets, node?_modify, hnode]
  · simp [relabel, targets, node?_modify, hid]

theorem lastTarget?_connect {g : Graph} {source : Nat} (h : source < g.size)
    (target : Nat) : (g.connect source target).lastTarget? source = some target := by
  rw [lastTarget?, targets_connect h, if_pos rfl, List.getLast?_concat]

theorem lastTarget?_connect_of_ne {g : Graph} {source : Nat} (h : source < g.size)
    {id : Nat} (hne : source ≠ id) (target : Nat) :
    (g.connect source target).lastTarget? id = g.lastTarget? id := by
  rw [lastTarget?, targets_connect h, if_neg hne, lastTarget?]

/-!
# Changes of different nodes
-/

theorem modify_comm (g : Graph) {id other : Nat} (hne : id ≠ other)
    (change otherChange : Node -> Node) :
    (g.modify id change).modify other otherChange =
      (g.modify other otherChange).modify id change := by
  apply eq_of_node?
  intro name
  simp only [node?_modify]
  by_cases hid : id = name
  · have hother : other ≠ name := fun h => hne (hid.trans h.symm)
    rw [if_neg hother, if_pos hid, if_pos hid, if_neg hother]
  · rw [if_neg hid, if_neg hid]

theorem connect_disconnect {g : Graph} {source target : Nat}
    (h : g.lastTarget? source = some target) :
    (g.disconnect source).connect source target = g := by
  apply eq_of_node?
  intro id
  simp only [connect, disconnect, node?_modify]
  by_cases hid : source = id
  · subst hid
    cases hnode : g.node? source with
    | none => simp
    | some node =>
        rw [lastTarget?, targets_of_node? hnode] at h
        rcases List.getLast?_eq_some_iff.mp h with ⟨front, hfront⟩
        have htargets : node.targets.dropLast ++ [target] = node.targets := by
          rw [hfront, List.dropLast_concat]
        simp [htargets]
  · simp [hid]

end Graph

end PatternWalk
