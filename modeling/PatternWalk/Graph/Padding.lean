import Mathlib.Logic.Relation
import PatternWalk.Graph.Answers

/-!
# Putting idle targets into a graph

A graph is padded by putting a target into the list of a node where it says nothing new:
the node's own name anywhere, or a target that stands before it in the same list.  It
does not matter whether the targets exist.
-/

namespace PatternWalk
namespace Graph

def retarget (g : Graph) (id : Nat) (targets : List Nat) : Graph :=
  g.modify id (fun node => { node with targets := targets })

@[simp] theorem size_retarget (g : Graph) (id : Nat) (targets : List Nat) :
    (g.retarget id targets).size = g.size :=
  size_modify _ _ _

@[simp] theorem state?_retarget (g : Graph) (id : Nat) (targets : List Nat) (other : Nat) :
    (g.retarget id targets).state? other = g.state? other := by
  unfold state? retarget
  rw [node?_modify]
  split
  · rw [Option.map_map]
    rfl
  · rfl

theorem targets_retarget {g : Graph} {id : Nat} (h : id < g.size) (targets : List Nat)
    (other : Nat) :
    (g.retarget id targets).targets other = if id = other then targets else g.targets other := by
  unfold Graph.targets retarget
  rw [node?_modify]
  split
  · rename_i heq
    subst heq
    rcases exists_node?_of_lt h with ⟨node, hnode⟩
    rw [hnode]
    rfl
  · rfl

/-- One idle target is put into the list of one node. -/
inductive Pads (g : Graph) : Graph -> Prop where
  | put (id target : Nat) (front back : List Nat) :
      id < g.size -> g.targets id = front ++ back -> target = id ∨ target ∈ front ->
        Pads g (g.retarget id (front ++ target :: back))

def PadsTo : Graph -> Graph -> Prop :=
  Relation.ReflTransGen Pads

namespace Pads

variable {g h : Graph}

theorem size_eq (hpads : g.Pads h) : h.size = g.size := by
  cases hpads with
  | put id target front back _ _ _ => exact size_retarget g id _

theorem mirror (hpads : g.Pads h) : g.Mirror h id (fun _ => True) := by
  cases hpads with
  | put source target front back hsource htargets hidle =>
      refine ⟨trivial, rfl, fun _ _ _ _ heq => heq, fun _ _ _ _ => trivial, ?_, ?_⟩
      · intro name _
        exact state?_retarget g source _ name
      · intro name _
        rw [List.map_id, id, targets_retarget hsource]
        split
        · rename_i heq
          subst heq
          rw [htargets]
          exact Padded.insert hidle
        · exact Padded.refl _ _

theorem walk_eq (hpads : g.Pads h) : h.walk = g.walk := by
  have hanswer := hpads.mirror.walk
  simp only [List.map_id] at hanswer
  exact hanswer.eq hpads.size_eq

theorem run_eq (hpads : g.Pads h) (text : String) : h.run text = g.run text := by
  have hanswer := hpads.mirror.run text
  simp only [Outcome.rename_id] at hanswer
  exact hanswer.eq hpads.size_eq

end Pads

namespace PadsTo

variable {g h : Graph}

theorem walk_eq (hpads : g.PadsTo h) : h.walk = g.walk := by
  induction hpads with
  | refl => rfl
  | tail _ hlast ih => rw [hlast.walk_eq, ih]

theorem run_eq (hpads : g.PadsTo h) (text : String) : h.run text = g.run text := by
  induction hpads with
  | refl => rfl
  | tail _ hlast ih => rw [hlast.run_eq, ih]

end PadsTo
end Graph
end PatternWalk
