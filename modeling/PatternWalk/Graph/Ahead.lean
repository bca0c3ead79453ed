import PatternWalk.Graph.Run

/-!
# What is ahead of a node

From the node it stands in, a run looks through any optional target, and through the
optional targets of that, as far as it likes.  What is listed at one of the nodes looked
through is ahead, but a node that lists itself is not ahead of itself for that.

Selecting and finishing look for a state of some kind.  If they come back with a node, it
is ahead and of that kind; if they come back with nothing, no node ahead is of that kind,
although a node that was looked through once is never looked through again, and nothing
ahead is without a node.
-/

namespace PatternWalk
namespace Graph

/-- The nodes looked through from a node: itself, and every optional target of one of
them. -/
inductive Through (g : Graph) (id : Nat) : Nat -> Prop where
  | here : Through g id id
  | optional {mid target : Nat} {node : Node} :
      Through g id mid -> target ∈ g.targets mid -> g.node? target = some node ->
        node.state.isOptional = true -> Through g id target

/-- The target is listed at a node that is looked through and is not the target itself. -/
def Ahead (g : Graph) (id target : Nat) : Prop :=
  exists mid : Nat, g.Through id mid ∧ target ∈ g.targets mid ∧ target ≠ mid

end Graph

/-!
# Plans that look for a kind of state
-/

structure Plan.LooksFor (plan : Plan) (wanted : State -> Prop) : Prop where
  found : forall state : State, wanted state -> plan.judge state = Verdict.stop
  passed : forall state : State, ¬ wanted state ->
    plan.judge state = if state.isOptional then Verdict.enter else Verdict.pass

theorem Plan.looksFor_selecting (c : Char) :
    (selecting c).LooksFor (fun state => state.accepts c = true) where
  found _ haccepts := if_pos haccepts
  passed _ hnot := if_neg hnot

theorem Plan.looksFor_finishing : finishing.LooksFor (fun state => state = State.final) where
  found _ hfinal := if_pos hfinal
  passed _ hnot := if_neg hnot

namespace Plan.LooksFor

variable {plan : Plan} {wanted : State -> Prop} {g : Graph} {id target : Nat} {node : Node}

theorem judge_eq_stop_iff (h : plan.LooksFor wanted) (state : State) :
    plan.judge state = Verdict.stop <-> wanted state := by
  constructor
  · intro hstop
    apply Classical.byContradiction
    intro hnot
    rw [h.passed state hnot] at hstop
    split at hstop <;> cases hstop
  · exact h.found state

theorem judge_of_ne_stop (h : plan.LooksFor wanted) {state : State}
    (hne : plan.judge state ≠ Verdict.stop) :
    plan.judge state = if state.isOptional then Verdict.enter else Verdict.pass :=
  h.passed state (fun hwanted => hne (h.found state hwanted))

theorem isOptional_of_judge_enter (h : plan.LooksFor wanted) {state : State}
    (henter : plan.judge state = Verdict.enter) : state.isOptional = true := by
  have hne : plan.judge state ≠ Verdict.stop := by
    rw [henter]
    exact nofun
  have hjudge := h.judge_of_ne_stop hne
  rw [henter] at hjudge
  cases hoptional : state.isOptional with
  | true => rfl
  | false =>
      rw [hoptional] at hjudge
      cases hjudge

theorem not_isOptional_of_judge_pass (h : plan.LooksFor wanted) {state : State}
    (hpass : plan.judge state = Verdict.pass) : ¬ state.isOptional = true := by
  have hne : plan.judge state ≠ Verdict.stop := by
    rw [hpass]
    exact nofun
  have hjudge := h.judge_of_ne_stop hne
  intro hoptional
  rw [hpass, if_pos hoptional] at hjudge
  cases hjudge

theorem keepsTo_through (h : plan.LooksFor wanted) : plan.KeepsTo g (g.Through id) := by
  intro mid other found hmid hother hfound hjudge
  exact Graph.Through.optional hmid hother hfound (h.isOptional_of_judge_enter hjudge)

end Plan.LooksFor

/-!
# Looking ahead from a node
-/

namespace Graph

variable {g : Graph} {plan : Plan} {wanted : State -> Prop} {id target : Nat} {node : Node}

theorem ahead_of_stopped (hplan : plan.LooksFor wanted) (hnode : g.node? id = some node)
    (hending : ((aheadSearch id node).run g plan).ending = Ending.stopped target) :
    g.Ahead id target ∧
      exists found : Node, g.node? target = some found ∧ wanted found.state := by
  rcases (Search.run_within hplan.keepsTo_through (within_aheadSearch hnode Through.here)).stopped
    target hending with ⟨mid, found, hmid, htarget, hne, hfound, hjudge⟩
  exact ⟨⟨mid, hmid, htarget, hne⟩, found, hfound, (hplan.judge_eq_stop_iff _).mp hjudge⟩

/-- A look ahead that ends of itself has entered whatever can be looked through. -/
theorem mem_entered_of_through (hplan : plan.LooksFor wanted) (hnode : g.node? id = some node)
    (hending : ((aheadSearch id node).run g plan).ending = Ending.exhausted) {mid : Nat}
    (hmid : g.Through id mid) :
    mid = id ∨ mid ∈ ((aheadSearch id node).run g plan).entered := by
  induction hmid with
  | here => exact Or.inl rfl
  | optional _ htarget hfound hoptional ih =>
      rcases Search.idle_of_run_exhausted (covers_aheadSearch hnode) hending ih htarget with
        rfl | ⟨found, hsame, hpass | ⟨_, hmem⟩⟩
      · exact ih
      · rw [hfound] at hsame
        cases hsame
        exact absurd hoptional (hplan.not_isOptional_of_judge_pass hpass)
      · exact Or.inr hmem

theorem not_wanted_of_exhausted (hplan : plan.LooksFor wanted) (hnode : g.node? id = some node)
    (hending : ((aheadSearch id node).run g plan).ending = Ending.exhausted)
    (htarget : g.Ahead id target) {found : Node} (hfound : g.node? target = some found) :
    ¬ wanted found.state := by
  rcases htarget with ⟨mid, hmid, hmem, hne⟩
  have hentered := mem_entered_of_through hplan hnode hending hmid
  rcases Search.idle_of_run_exhausted (covers_aheadSearch hnode) hending hentered hmem with
    hself | ⟨other, hother, hjudge⟩
  · exact absurd hself hne
  · rw [hfound] at hother
    cases hother
    intro hwanted
    rw [hplan.found found.state hwanted] at hjudge
    rcases hjudge with hpass | ⟨henter, _⟩
    · cases hpass
    · cases henter

/-!
# Missing nodes
-/

/-- A target without a node is listed at a node that is looked through. -/
def Misses (g : Graph) (id target : Nat) : Prop :=
  exists mid : Nat, g.Through id mid ∧ target ∈ g.targets mid ∧ g.node? target = none

theorem Through.exists_node? (hnode : g.node? id = some node) {mid : Nat}
    (h : g.Through id mid) : exists found : Node, g.node? mid = some found := by
  cases h with
  | here => exact ⟨node, hnode⟩
  | optional _ _ hfound _ => exact ⟨_, hfound⟩

theorem misses_of_missing (hplan : plan.LooksFor wanted) (hnode : g.node? id = some node)
    (hending : ((aheadSearch id node).run g plan).ending = Ending.missing target) :
    g.Misses id target :=
  (Search.run_within hplan.keepsTo_through (within_aheadSearch hnode Through.here)).missing
    target hending

theorem not_misses_of_exhausted (hplan : plan.LooksFor wanted) (hnode : g.node? id = some node)
    (hending : ((aheadSearch id node).run g plan).ending = Ending.exhausted) (target : Nat) :
    ¬ g.Misses id target := by
  intro hmisses
  rcases hmisses with ⟨mid, hmid, htarget, hnone⟩
  have hentered := mem_entered_of_through hplan hnode hending hmid
  rcases Search.idle_of_run_exhausted (covers_aheadSearch hnode) hending hentered htarget with
    rfl | hidle
  · rcases hmid.exists_node? hnode with ⟨found, hfound⟩
    rw [hnone] at hfound
    cases hfound
  · exact Search.not_idle_of_missing hnone hidle

/-!
# Selecting
-/

theorem exists_ending_of_select {c : Char} {choice : Option Nat}
    (h : g.select id c = Except.ok choice) :
    exists node : Node,
      g.node? id = some node ∧
        ((aheadSearch id node).run g (Plan.selecting c)).ending =
          match choice with
          | some target => Ending.stopped target
          | none => Ending.exhausted := by
  rcases exists_node?_of_bind h with ⟨node, hnode, _⟩
  refine ⟨node, hnode, ?_⟩
  rw [select_of_node? hnode] at h
  cases hending : ((aheadSearch id node).run g (Plan.selecting c)).ending with
  | stopped target =>
      rw [hending] at h
      cases h
      rfl
  | missing target =>
      rw [hending] at h
      cases h
  | exhausted =>
      rw [hending] at h
      cases h
      rfl

theorem ahead_of_select {c : Char} (h : g.select id c = Except.ok (some target)) :
    g.Ahead id target ∧
      exists found : Node, g.node? target = some found ∧ found.state.accepts c = true := by
  rcases exists_ending_of_select h with ⟨node, hnode, hending⟩
  exact ahead_of_stopped (Plan.looksFor_selecting c) hnode hending

theorem not_accepts_of_select_none {c : Char} (h : g.select id c = Except.ok none)
    (htarget : g.Ahead id target) {found : Node} (hfound : g.node? target = some found) :
    ¬ found.state.accepts c = true := by
  rcases exists_ending_of_select h with ⟨node, hnode, hending⟩
  exact not_wanted_of_exhausted (Plan.looksFor_selecting c) hnode hending htarget hfound

theorem next_cases {c : Char} {choice : Option Nat} (h : g.next id c = Except.ok choice) :
    (exists target : Nat,
      choice = some target ∧ g.select id c = Except.ok (some target)) ∨
      (g.select id c = Except.ok none ∧
        exists node : Node,
          g.node? id = some node ∧
            choice = if node.state.isLoop && node.state.accepts c then some id else none) := by
  cases hselect : g.select id c with
  | error missing =>
      rw [next, hselect] at h
      cases h
  | ok selected =>
      cases selected with
      | some target =>
          rw [next_of_selected hselect] at h
          exact Or.inl ⟨target, (Except.ok.inj h).symm, rfl⟩
      | none =>
          rcases exists_node?_of_bind hselect with ⟨node, hnode, _⟩
          rw [next_of_not_selected hselect hnode] at h
          exact Or.inr ⟨rfl, node, hnode, (Except.ok.inj h).symm⟩

/-!
# Finishing
-/

def Finishes (g : Graph) (id : Nat) : Prop :=
  exists target : Nat, g.Ahead id target ∧ g.state? target = some State.final

theorem exists_ending_of_canFinish {answer : Bool} (h : g.canFinish id = Except.ok answer) :
    exists node : Node,
      g.node? id = some node ∧
        ((answer = true ∧ exists target : Nat,
            ((aheadSearch id node).run g Plan.finishing).ending = Ending.stopped target) ∨
          (answer = false ∧
            ((aheadSearch id node).run g Plan.finishing).ending = Ending.exhausted)) := by
  rcases exists_node?_of_bind h with ⟨node, hnode, _⟩
  refine ⟨node, hnode, ?_⟩
  rw [canFinish_of_node? hnode] at h
  cases hending : ((aheadSearch id node).run g Plan.finishing).ending with
  | stopped target =>
      rw [hending] at h
      cases h
      exact Or.inl ⟨rfl, target, rfl⟩
  | missing target =>
      rw [hending] at h
      cases h
  | exhausted =>
      rw [hending] at h
      cases h
      exact Or.inr ⟨rfl, rfl⟩

theorem eq_true_iff_finishes {answer : Bool} (h : g.canFinish id = Except.ok answer) :
    answer = true <-> g.Finishes id := by
  rcases exists_ending_of_canFinish h with ⟨node, hnode, ⟨rfl, target, hending⟩ | ⟨rfl, hending⟩⟩
  · refine iff_of_true rfl ?_
    rcases ahead_of_stopped Plan.looksFor_finishing hnode hending with
      ⟨hahead, found, hfound, hfinal⟩
    refine ⟨target, hahead, ?_⟩
    rw [state?, hfound, Option.map_some, hfinal]
  · refine iff_of_false Bool.false_ne_true ?_
    intro hfinishes
    rcases hfinishes with ⟨target, hahead, hfinal⟩
    rcases Option.map_eq_some_iff.mp hfinal with ⟨found, hfound, hstate⟩
    exact not_wanted_of_exhausted Plan.looksFor_finishing hnode hending hahead hfound hstate

end Graph
end PatternWalk
