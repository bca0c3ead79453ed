import PatternWalk.Graph.Closed
import PatternWalk.Graph.Run
import PatternWalk.Graph.Walk

/-!
# Runs that miss no node

A search looks only at targets of nodes that can be reached from where it began.
A graph is intact when every target of every node reachable from its start
exists; runs of an intact graph therefore end with an answer on every text, and
every node they stand in is reachable.
-/

namespace PatternWalk

/-!
# Tethered searches

A search is tethered to a node when everything on its agenda can be reached
from that node, and what is pending there are targets of the node they are
listed under.
-/

def Search.Tethered (g : Graph) (root : Nat) (search : Search) : Prop :=
  forall scan : Scan, scan ∈ search.agenda ->
    g.Reaches root scan.id ∧
      forall target : Nat, target ∈ scan.pending -> target ∈ g.targets scan.id

theorem Plan.keepsTo_reaches (plan : Plan) (g : Graph) (root : Nat) :
    plan.KeepsTo g (g.Reaches root) := by
  intro id target node hid htarget hnode _
  exact Graph.Reaches.step hid htarget (Graph.lt_size_of_node? hnode)

namespace Search

theorem reaches_of_run_stopped {g : Graph} {plan : Plan} {root target : Nat}
    {search : Search} (htethered : search.Tethered g root)
    (h : (search.run g plan).ending = Ending.stopped target) :
    g.Reaches root target := by
  rcases (run_within (plan.keepsTo_reaches g root) htethered).stopped target h with
    ⟨id, node, hid, htarget, _, hnode, _⟩
  exact Graph.Reaches.step hid htarget (Graph.lt_size_of_node? hnode)

theorem exists_of_run_missing {g : Graph} {plan : Plan} {root target : Nat}
    {search : Search} (htethered : search.Tethered g root)
    (h : (search.run g plan).ending = Ending.missing target) :
    exists id : Nat,
      g.Reaches root id ∧ target ∈ g.targets id ∧ g.size <= target := by
  rcases (run_within (plan.keepsTo_reaches g root) htethered).missing target h with
    ⟨id, hid, htarget, hnode⟩
  exact ⟨id, hid, htarget, Graph.node?_eq_none_iff.mp hnode⟩

end Search

namespace Graph

theorem tethered_aheadSearch {g : Graph} {id : Nat} {node : Node}
    (h : g.node? id = some node) : (aheadSearch id node).Tethered g id :=
  within_aheadSearch h (Reaches.refl (lt_size_of_node? h))

/-!
# Intact graphs
-/

/-- Every target of every node reachable from the start exists. -/
def Intact (g : Graph) : Prop :=
  forall id target : Nat,
    g.Reaches startId id -> target ∈ g.targets id -> target < g.size

theorem Closed.intact {g : Graph} (hclosed : g.Closed) : g.Intact := by
  intro id target _ htarget
  exact hclosed id target htarget

theorem Intact.run_ending_ne_missing {g : Graph} (hintact : g.Intact) {plan : Plan}
    {id target : Nat} {node : Node} (hid : g.Reaches startId id)
    (hnode : g.node? id = some node) :
    ((aheadSearch id node).run g plan).ending ≠ Ending.missing target := by
  intro hmissing
  rcases Search.exists_of_run_missing (tethered_aheadSearch hnode) hmissing with
    ⟨mid, hmid, hmem, hle⟩
  exact absurd (hintact mid target (hid.trans hmid) hmem) (Nat.not_lt.mpr hle)

theorem Intact.exists_select {g : Graph} (hintact : g.Intact) {id : Nat}
    (hid : g.Reaches startId id) (c : Char) :
    exists choice : Option Nat,
      g.select id c = Except.ok choice ∧
        forall target : Nat, choice = some target -> g.Reaches startId target := by
  rcases exists_node?_of_lt hid.lt_size with ⟨node, hnode⟩
  rw [select_of_node? hnode]
  cases hending : ((aheadSearch id node).run g (Plan.selecting c)).ending with
  | stopped target =>
      refine ⟨some target, rfl, ?_⟩
      intro other hother
      cases hother
      exact hid.trans (Search.reaches_of_run_stopped (tethered_aheadSearch hnode) hending)
  | missing target =>
      exact absurd hending (hintact.run_ending_ne_missing hid hnode)
  | exhausted => exact ⟨none, rfl, nofun⟩

theorem Intact.exists_canFinish {g : Graph} (hintact : g.Intact) {id : Nat}
    (hid : g.Reaches startId id) :
    exists answer : Bool, g.canFinish id = Except.ok answer := by
  rcases exists_node?_of_lt hid.lt_size with ⟨node, hnode⟩
  rw [canFinish_of_node? hnode]
  cases hending : ((aheadSearch id node).run g Plan.finishing).ending with
  | stopped target => exact ⟨true, rfl⟩
  | missing target =>
      exact absurd hending (hintact.run_ending_ne_missing hid hnode)
  | exhausted => exact ⟨false, rfl⟩

theorem Intact.exists_next {g : Graph} (hintact : g.Intact) {id : Nat}
    (hid : g.Reaches startId id) (c : Char) :
    exists choice : Option Nat,
      g.next id c = Except.ok choice ∧
        forall target : Nat, choice = some target -> g.Reaches startId target := by
  rcases hintact.exists_select hid c with ⟨choice, hselect, hchoice⟩
  rcases exists_node?_of_lt hid.lt_size with ⟨node, hnode⟩
  cases choice with
  | some target => exact ⟨some target, next_of_selected hselect, hchoice⟩
  | none =>
      refine ⟨_, next_of_not_selected hselect hnode, ?_⟩
      intro target htarget
      split at htarget
      · cases htarget
        exact hid
      · cases htarget

theorem Intact.exists_follow {g : Graph} (hintact : g.Intact) {id : Nat}
    (hid : g.Reaches startId id) (text : List Char) :
    exists arrival : Arrival,
      g.follow id text = Except.ok arrival ∧
        forall last : Nat, arrival = Arrival.standing last -> g.Reaches startId last := by
  induction text generalizing id with
  | nil =>
      refine ⟨Arrival.standing id, rfl, ?_⟩
      intro last hlast
      cases hlast
      exact hid
  | cons c rest ih =>
      rcases hintact.exists_next hid c with ⟨choice, hnext, hchoice⟩
      unfold follow
      rw [hnext]
      cases choice with
      | some target => exact ih (hchoice target rfl)
      | none =>
          refine ⟨Arrival.refused c id, rfl, ?_⟩
          intro last hlast
          cases hlast

/-- An intact graph has an answer for every text. -/
theorem Intact.exists_run {g : Graph} (hintact : g.Intact) (text : String) :
    exists outcome : Outcome, g.run text = Except.ok outcome := by
  have hstart : g.Reaches startId startId := Reaches.refl g.startId_lt_size
  rcases hintact.exists_follow hstart text.toList with ⟨arrival, hfollow, harrival⟩
  unfold run
  rw [hfollow]
  cases arrival with
  | refused c id => exact ⟨_, rfl⟩
  | standing id =>
      rcases hintact.exists_canFinish (harrival id rfl) with ⟨answer, hanswer⟩
      simp only [bind, Except.bind, hanswer]
      exact ⟨_, rfl⟩

end Graph

end PatternWalk
