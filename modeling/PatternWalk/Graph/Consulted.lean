import PatternWalk.Graph.Run

/-!
# What is consulted

Each step of a search consults the node it stands in, for its targets, and the node that
the next of these targets names, for its state.  A run consults the nodes it stands in and
whatever its searches consult.

Nothing else counts: in a graph of the same size that has the same nodes wherever a run
consults one, the run comes out the same, whether it ends with an answer or misses a node.
-/

namespace PatternWalk
namespace Search

/-!
# Searches
-/

/-- The nodes that the next step consults.  A target that names the node it is listed at is
passed by unseen. -/
def consulted (search : Search) : List Nat :=
  match search.agenda with
  | [] => []
  | ⟨id, []⟩ :: _ => [id]
  | ⟨id, target :: _⟩ :: _ => if target = id then [id] else [id, target]

inductive Consults (g : Graph) (plan : Plan) : Search -> Nat -> Prop where
  | now {search : Search} {id : Nat} : id ∈ search.consulted -> Consults g plan search id
  | later {search next : Search} {id : Nat} :
      search.step g plan = Sum.inr next -> Consults g plan next id -> Consults g plan search id

section Consulted

variable {g : Graph} {plan : Plan} {entered : Marks} {id target : Nat} {pending : List Nat}
  {rest : List Scan}

theorem mem_consulted_target (hne : target ≠ id) :
    target ∈ consulted ⟨entered, ⟨id, target :: pending⟩ :: rest⟩ := by
  simp only [consulted, if_neg hne]
  exact List.mem_cons_of_mem id List.mem_cons_self

theorem Within.inside_of_mem_consulted {inside : Nat -> Prop} {search : Search}
    (h : search.Within g inside)
    (hclosed : forall id target : Nat, inside id -> target ∈ g.targets id -> inside target)
    (hid : id ∈ search.consulted) : inside id := by
  rcases search with ⟨entered, _ | ⟨⟨source, _ | ⟨target, pending⟩⟩, rest⟩⟩
  · cases hid
  · cases List.mem_singleton.mp hid
    exact h.head.left
  · simp only [consulted] at hid
    split at hid
    · cases List.mem_singleton.mp hid
      exact h.head.left
    · rcases List.mem_cons.mp hid with rfl | htarget
      · exact h.head.left
      · cases List.mem_singleton.mp htarget
        exact h.inside_head hclosed

theorem Within.step {inside : Nat -> Prop} {search next : Search} (h : search.Within g inside)
    (hclosed : forall id target : Nat, inside id -> target ∈ g.targets id -> inside target)
    (hstep : search.step g plan = Sum.inr next) : next.Within g inside := by
  have hdoes := does_step g plan search
  rw [hstep] at hdoes
  cases hdoes with
  | leave entered id rest => exact h.leave
  | idle entered id target pending rest hidle => exact h.pass
  | enter entered id target node pending rest hne hnode hjudge hnew =>
      exact h.enter (h.inside_head hclosed) hnode

theorem Consults.inside {inside : Nat -> Prop} {search : Search} (h : search.Consults g plan id)
    (hwithin : search.Within g inside)
    (hclosed : forall id target : Nat, inside id -> target ∈ g.targets id -> inside target) :
    inside id := by
  induction h with
  | now hid => exact hwithin.inside_of_mem_consulted hclosed hid
  | later hstep _ ih => exact ih (hwithin.step hclosed hstep)

end Consulted

/-- What a search finds is settled by the nodes it consults. -/
theorem run_eq_of_consults {g h : Graph} {plan : Plan} {search : Search}
    (hsame : forall id : Nat, search.Consults g plan id -> h.node? id = g.node? id) :
    search.run h plan = search.run g plan := by
  induction search using run_induction g plan with
  | nil entered => rw [run_nil, run_nil]
  | leave entered id rest ih =>
      rw [run_leave, run_leave]
      exact ih (fun other hother => hsame other (Consults.later rfl hother))
  | idle entered id target pending rest hidle ih =>
      have himage : target = id ∨ Idle h plan entered target := by
        by_cases hself : target = id
        · exact Or.inl hself
        · rcases hidle.resolve_left hself with ⟨node, hnode, hjudge⟩
          have htarget := hsame target (Consults.now (mem_consulted_target hself))
          exact Or.inr ⟨node, htarget.trans hnode, hjudge⟩
      rw [run_idle hidle, run_idle himage]
      exact ih (fun other hother => hsame other (Consults.later (step_idle hidle) hother))
  | missing entered id target pending rest hne hnode =>
      have htarget := hsame target (Consults.now (mem_consulted_target hne))
      rw [run_missing hne hnode, run_missing hne (htarget.trans hnode)]
  | stop entered id target node pending rest hne hnode hjudge =>
      have htarget := hsame target (Consults.now (mem_consulted_target hne))
      rw [run_stop hne hnode hjudge, run_stop hne (htarget.trans hnode) hjudge]
  | enter entered id target node pending rest hne hnode hjudge hnew ih =>
      have htarget := hsame target (Consults.now (mem_consulted_target hne))
      rw [run_enter hne hnode hjudge hnew, run_enter hne (htarget.trans hnode) hjudge hnew]
      exact ih (fun other hother =>
        hsame other (Consults.later (step_enter hne hnode hjudge hnew) hother))

end Search

namespace Graph

/-!
# Runs
-/

def ConsultsAhead (g : Graph) (plan : Plan) (id other : Nat) : Prop :=
  exists node : Node, g.node? id = some node ∧ (aheadSearch id node).Consults g plan other

/-- A run that stands in a node with a word to take consults another one: the node it stands
in, one it consults when it selects a target or sees whether it can finish, or one that is
consulted further on. -/
inductive Consults (g : Graph) : Nat -> List Char -> Nat -> Prop where
  | standing (id : Nat) (word : List Char) : Consults g id word id
  | selecting {id other : Nat} {c : Char} (word : List Char) :
      g.ConsultsAhead (Plan.selecting c) id other -> Consults g id (c :: word) other
  | finishing {id other : Nat} :
      g.ConsultsAhead Plan.finishing id other -> Consults g id [] other
  | going {id target other : Nat} {c : Char} {word : List Char} :
      g.next id c = Except.ok (some target) -> Consults g target word other ->
        Consults g id (c :: word) other

theorem Consults.behind {g : Graph} {id last other : Nat} {front back : List Char}
    (hother : g.Consults last back other)
    (hfront : g.follow id front = Except.ok (Arrival.standing last)) :
    g.Consults id (front ++ back) other := by
  induction front generalizing id with
  | nil =>
      cases hfront
      exact hother
  | cons c front ih =>
      rcases follow_cons_cases hfront with ⟨target, hnext, hrest⟩ | ⟨_, hrefused⟩
      · exact Consults.going hnext (ih hrest)
      · cases hrefused

section Settled

variable {g h : Graph} {id : Nat}

theorem run_aheadSearch_eq {plan : Plan} {node : Node} (hnode : g.node? id = some node)
    (hsame : forall other : Nat, g.ConsultsAhead plan id other -> h.node? other = g.node? other) :
    (aheadSearch id node).run h plan = (aheadSearch id node).run g plan :=
  Search.run_eq_of_consults (fun other hother => hsame other ⟨node, hnode, hother⟩)

theorem node_eq (hsize : h.size = g.size) (hid : h.node? id = g.node? id) :
    h.node id = g.node id := by
  unfold Graph.node
  rw [hid, hsize]

theorem select_eq {c : Char} (hsize : h.size = g.size) (hid : h.node? id = g.node? id)
    (hsame : forall other : Nat,
      g.ConsultsAhead (Plan.selecting c) id other -> h.node? other = g.node? other) :
    h.select id c = g.select id c := by
  unfold select
  rw [node_eq hsize hid, hsize]
  cases hnode : g.node? id with
  | none =>
      simp only [Graph.node, hnode]
      rfl
  | some node =>
      simp only [node_of_node? hnode, bind, Except.bind, run_aheadSearch_eq hnode hsame]

theorem canFinish_eq (hsize : h.size = g.size) (hid : h.node? id = g.node? id)
    (hsame : forall other : Nat,
      g.ConsultsAhead Plan.finishing id other -> h.node? other = g.node? other) :
    h.canFinish id = g.canFinish id := by
  unfold canFinish
  rw [node_eq hsize hid, hsize]
  cases hnode : g.node? id with
  | none =>
      simp only [Graph.node, hnode]
      rfl
  | some node =>
      simp only [node_of_node? hnode, bind, Except.bind, run_aheadSearch_eq hnode hsame]

theorem next_eq {c : Char} {word : List Char} (hsize : h.size = g.size)
    (hsame : forall other : Nat, g.Consults id (c :: word) other -> h.node? other = g.node? other) :
    h.next id c = g.next id c := by
  have hid := hsame id (Consults.standing id (c :: word))
  have hselect := select_eq hsize hid
    (fun other hother => hsame other (Consults.selecting word hother))
  unfold next
  rw [hselect, node_eq hsize hid]

theorem follow_eq {word : List Char} (hsize : h.size = g.size)
    (hsame : forall other : Nat, g.Consults id word other -> h.node? other = g.node? other) :
    h.follow id word = g.follow id word := by
  induction word generalizing id with
  | nil => rfl
  | cons c word ih =>
      unfold follow
      rw [next_eq hsize hsame]
      cases hnext : g.next id c with
      | error missing => rfl
      | ok choice =>
          cases choice with
          | none => rfl
          | some target => exact ih (fun other hother => hsame other (Consults.going hnext hother))

/-- What a run comes to is settled by the nodes it consults. -/
theorem run_eq_of_consults {text : String} (hsize : h.size = g.size)
    (hsame : forall other : Nat,
      g.Consults startId text.toList other -> h.node? other = g.node? other) :
    h.run text = g.run text := by
  unfold run
  rw [follow_eq hsize hsame]
  cases hfollow : g.follow startId text.toList with
  | error missing => rfl
  | ok arrival =>
      cases arrival with
      | refused c last => rfl
      | standing last =>
          have hlast : forall other : Nat,
              g.Consults last [] other -> h.node? other = g.node? other := by
            intro other hother
            have hbehind := hother.behind hfollow
            rw [List.append_nil] at hbehind
            exact hsame other hbehind
          have hanswer := canFinish_eq hsize (hlast last (Consults.standing last []))
            (fun other hother => hlast other (Consults.finishing hother))
          simp only [bind, Except.bind, hanswer]

end Settled

end Graph
end PatternWalk
