import PatternWalk.Graph.Basic

/-!
# Closed graphs

A graph is closed when every target in it names a node of it.  Adding and
relabelling nodes keep a graph closed, and so does connecting an existing target.
-/

namespace PatternWalk
namespace Graph

def Closed (g : Graph) : Prop :=
  forall id target : Nat, target ∈ g.targets id -> target < g.size

theorem closed_lone : lone.Closed := by
  intro id target htarget
  rw [targets_lone] at htarget
  cases htarget

namespace Closed

theorem addState {g : Graph} (hclosed : g.Closed) (state : State) :
    (g.addState state).Closed := by
  intro id target htarget
  rw [targets_addState] at htarget
  rw [size_addState]
  exact Nat.lt_succ_of_lt (hclosed id target htarget)

theorem relabel {g : Graph} (hclosed : g.Closed) (id : Nat) (state : State) :
    (g.relabel id state).Closed := by
  intro source target htarget
  rw [targets_relabel] at htarget
  rw [size_relabel]
  exact hclosed source target htarget

theorem connect {g : Graph} (hclosed : g.Closed) {source target : Nat}
    (hsource : source < g.size) (htarget : target < g.size) :
    (g.connect source target).Closed := by
  intro id other hother
  rw [targets_connect hsource] at hother
  rw [size_connect]
  by_cases hid : source = id
  · rw [if_pos hid] at hother
    cases List.mem_append.mp hother with
    | inl hold => exact hclosed id other hold
    | inr hnew =>
        rw [List.mem_singleton.mp hnew]
        exact htarget
  · rw [if_neg hid] at hother
    exact hclosed id other hother

end Closed

end Graph
end PatternWalk
