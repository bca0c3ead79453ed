import PatternWalk.Graph.Ahead
import PatternWalk.Graph.Walk

/-!
# Reading a graph in every way

A run of a graph makes one choice for each character.  This module says what there is to
choose from: a character leads to any node ahead that accepts it, and to the same node
again if that loops.  A looping node repeats because it loops, whatever it lists among
its targets.  A text is admitted when there is some way of reading it.
-/

namespace PatternWalk
namespace Graph

/-- A character leads to a node that accepts it: one ahead, or the same node again when
that loops. -/
def Leads (g : Graph) (id : Nat) (c : Char) (target : Nat) : Prop :=
  exists node : Node,
    g.node? target = some node ∧ node.state.accepts c = true ∧
      (g.Ahead id target ∨ (target = id ∧ node.state.isLoop = true))

inductive Reads (g : Graph) : Nat -> List Char -> Nat -> Prop where
  | nil (id : Nat) : Reads g id [] id
  | cons {id mid last : Nat} {c : Char} {word : List Char} :
      g.Leads id c mid -> Reads g mid word last -> Reads g id (c :: word) last

def Admits (g : Graph) (text : String) : Prop :=
  exists last : Nat, g.Reads startId text.toList last ∧ g.Finishes last

def Deterministic (g : Graph) : Prop :=
  forall (id : Nat) (c : Char) (target other : Nat),
    g.Reaches startId id -> g.Leads id c target -> g.Leads id c other -> target = other

/-!
# What is ahead can be reached
-/

theorem Through.reaches {g : Graph} {root id mid : Nat} (h : g.Through id mid)
    (hid : g.Reaches root id) : g.Reaches root mid := by
  induction h with
  | here => exact hid
  | optional _ htarget hnode _ ih => exact Reaches.step ih htarget (lt_size_of_node? hnode)

theorem Leads.reaches {g : Graph} {root id target : Nat} {c : Char} (h : g.Leads id c target)
    (hid : g.Reaches root id) : g.Reaches root target := by
  rcases h with ⟨node, hnode, _, ⟨mid, hmid, htarget, _⟩ | ⟨rfl, _⟩⟩
  · exact Reaches.step (hmid.reaches hid) htarget (lt_size_of_node? hnode)
  · exact hid

end Graph
end PatternWalk
