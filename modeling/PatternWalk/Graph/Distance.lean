import PatternWalk.Graph.Walk

/-!
# Distances

The distance of a node is the number of transitions on a shortest path to it.  Every node
that can be reached has one, and a transition leads at most one further.
-/

namespace PatternWalk
namespace Graph

inductive ReachesIn (g : Graph) (id : Nat) : Nat -> Nat -> Prop where
  | refl : id < g.size -> ReachesIn g id 0 id
  | step {n mid target : Nat} :
      ReachesIn g id n mid -> target ∈ g.targets mid -> target < g.size ->
        ReachesIn g id (n + 1) target

def Distance (g : Graph) (id target n : Nat) : Prop :=
  g.ReachesIn id n target ∧ forall m : Nat, g.ReachesIn id m target -> n <= m

variable {g : Graph} {id target n : Nat}

theorem ReachesIn.reaches (h : g.ReachesIn id n target) : g.Reaches id target := by
  induction h with
  | refl hid => exact Reaches.refl hid
  | step _ htarget hlt ih => exact Reaches.step ih htarget hlt

theorem Reaches.exists_reachesIn (h : g.Reaches id target) :
    exists n : Nat, g.ReachesIn id n target := by
  induction h with
  | refl hid => exact ⟨0, ReachesIn.refl hid⟩
  | step _ htarget hlt ih =>
      rcases ih with ⟨n, hmid⟩
      exact ⟨n + 1, ReachesIn.step hmid htarget hlt⟩

theorem ReachesIn.exists_distance (h : g.ReachesIn id n target) :
    exists m : Nat, g.Distance id target m := by
  induction n using Nat.strongRecOn with
  | ind n ih =>
      by_cases hshorter : exists m : Nat, m < n ∧ g.ReachesIn id m target
      · rcases hshorter with ⟨m, hlt, hm⟩
        exact ih m hlt hm
      · refine ⟨n, h, ?_⟩
        intro m hm
        exact Nat.le_of_not_lt (fun hlt => hshorter ⟨m, hlt, hm⟩)

theorem Reaches.exists_distance (h : g.Reaches id target) :
    exists n : Nat, g.Distance id target n := by
  rcases h.exists_reachesIn with ⟨n, hn⟩
  exact hn.exists_distance

namespace Distance

variable {m : Nat}

theorem reaches (h : g.Distance id target n) : g.Reaches id target :=
  h.left.reaches

theorem unique (hm : g.Distance id target m) (hn : g.Distance id target n) : m = n :=
  Nat.le_antisymm (hm.right n hn.left) (hn.right m hm.left)

theorem le_succ {mid : Nat} (hmid : g.Distance id mid m) (h : g.Distance id target n)
    (htarget : target ∈ g.targets mid) : n <= m + 1 :=
  h.right (m + 1) (ReachesIn.step hmid.left htarget h.reaches.lt_size)

theorem eq_zero (h : g.Distance id id n) : n = 0 :=
  Nat.le_zero.mp (h.right 0 (ReachesIn.refl h.reaches.lt_size))

theorem eq_of_zero (h : g.Distance id target 0) : target = id := by
  cases h.left
  rfl

theorem exists_nearer (h : g.Distance id target (n + 1)) :
    exists mid : Nat, g.Distance id mid n ∧ target ∈ g.targets mid := by
  cases h.left with
  | step hmid htarget hlt =>
      rename_i mid
      refine ⟨mid, ⟨hmid, ?_⟩, htarget⟩
      intro m hm
      exact Nat.le_of_succ_le_succ (h.right (m + 1) (ReachesIn.step hm htarget hlt))

end Distance

end Graph
end PatternWalk
