import PatternWalk.Graph.Search

/-!
# Walking a graph

The walk names every node that can be reached from the start, in breadth-first
order: a node comes before another when it is fewer transitions away, and among
nodes equally far away the order is that of the nodes they are reached from and
of the targets listed there.  A walk that meets a target without a node has no
result.
-/

namespace PatternWalk

/-!
# Reachability
-/

inductive Graph.Reaches (g : Graph) (id : Nat) : Nat -> Prop where
  | refl : id < g.size -> Reaches g id id
  | step {mid target : Nat} :
      Reaches g id mid -> target ∈ g.targets mid -> target < g.size ->
        Reaches g id target

namespace Graph

theorem Reaches.lt_size {g : Graph} {id target : Nat}
    (h : Reaches g id target) : target < g.size := by
  cases h with
  | refl hid => exact hid
  | step _ _ htarget => exact htarget

theorem Reaches.trans {g : Graph} {id mid target : Nat}
    (hmid : Reaches g id mid) (htarget : Reaches g mid target) :
    Reaches g id target := by
  induction htarget with
  | refl _ => exact hmid
  | step _ hmem hlt ih => exact Reaches.step ih hmem hlt

end Graph

/-!
# The walk
-/

def Plan.walking : Plan :=
  ⟨Discipline.inTurn, fun _ => Verdict.enter⟩

namespace Graph

def walkSearch (g : Graph) : Search :=
  ⟨Marks.empty.add startId, [⟨startId, g.targets startId⟩]⟩

def walk (g : Graph) : Except MissingNode (List Nat) :=
  let finding := g.walkSearch.run g Plan.walking
  match finding.ending with
  | Ending.missing id => Except.error ⟨g.size, id⟩
  | _ => Except.ok finding.entered.order.reverse

def layout (g : Graph) : Except MissingNode (List (Nat × Node)) := do
  let ids <- g.walk
  ids.mapM (fun id => do
    let node <- g.node id
    return (id, node))

end Graph

end PatternWalk
