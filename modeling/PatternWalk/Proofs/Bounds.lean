import Mathlib.Data.List.Nodup
import PatternWalk.Graph.Ahead
import PatternWalk.Graph.Course

/-!
# How far a look ahead goes

Looking ahead enters optional nodes only, and none of them twice.  However the optional nodes
of a graph list each other, selecting therefore makes at most one call for each of them, and
finishing takes at most one more node from its agenda than there are of them: the node it
begins with need not be optional, and if it is, it may be entered once more.
-/

namespace PatternWalk
namespace Graph

variable {g : Graph} {plan : Plan} {wanted : State -> Prop} {id : Nat}

def optionals (g : Graph) : List Nat :=
  (List.range g.size).filter (fun id => (g.state? id).any State.isOptional)

theorem mem_optionals_of_node? {node : Node} (hnode : g.node? id = some node)
    (hoptional : node.state.isOptional = true) : id ∈ g.optionals := by
  apply List.mem_filter.mpr
  constructor
  · exact List.mem_range.mpr (lt_size_of_node? hnode)
  · rw [state?, hnode, Option.map_some, Option.any_some]
    exact hoptional

theorem exists_atom_of_mem_optionals (h : id ∈ g.optionals) :
    exists a : Atom, g.state? id = some (State.loop Quantifier.star a) := by
  have hany := (List.mem_filter.mp h).right
  cases hstate : g.state? id with
  | none =>
      rw [hstate] at hany
      cases hany
  | some state =>
      rw [hstate, Option.any_some] at hany
      cases state with
      | start => cases hany
      | final => cases hany
      | single a => cases hany
      | loop q a =>
          cases q with
          | star => exact ⟨a, rfl⟩
          | plus => cases hany

/-!
# Marks that are made ahead
-/

structure OptionalOnce (g : Graph) (marks : Marks) : Prop where
  nodup : marks.order.Nodup
  optional : marks.order ⊆ g.optionals

theorem optionalOnce_empty (g : Graph) : g.OptionalOnce Marks.empty where
  nodup := List.nodup_nil
  optional := List.nil_subset _

theorem OptionalOnce.length_le {marks : Marks} (h : g.OptionalOnce marks) :
    marks.order.length <= g.optionals.length :=
  h.nodup.length_le_of_subset h.optional

theorem OptionalOnce.step (hplan : plan.LooksFor wanted) {search next : Search}
    (hstep : search.step g plan = Sum.inr next) (h : g.OptionalOnce search.entered) :
    g.OptionalOnce next.entered := by
  have hdoes := search.does_step g plan
  rw [hstep] at hdoes
  cases hdoes with
  | leave entered id rest => exact h
  | idle entered id target pending rest hidle => exact h
  | enter entered id target node pending rest hne hnode hjudge hnew =>
      have hoptional := hplan.isOptional_of_judge_enter hjudge
      constructor
      · exact List.nodup_cons.mpr ⟨hnew, h.nodup⟩
      · exact List.cons_subset.mpr ⟨mem_optionals_of_node? hnode hoptional, h.optional⟩

theorem optionalOnce_of_mem_stages (hplan : plan.LooksFor wanted) {node : Node} {stage : Search}
    (hstage : stage ∈ (aheadSearch id node).stages g plan) : g.OptionalOnce stage.entered :=
  Search.forall_mem_stages (fun _ _ => OptionalOnce.step hplan) g.optionalOnce_empty stage hstage

theorem optionalOnce_run (hplan : plan.LooksFor wanted) (id : Nat) (node : Node) :
    g.OptionalOnce ((aheadSearch id node).run g plan).entered := by
  cases (aheadSearch id node).exists_last_stage g plan with
  | intro last hlast =>
      have honce := optionalOnce_of_mem_stages hplan (List.mem_of_getLast? hlast.left)
      have hdoes := last.does_step g plan
      rw [hlast.right] at hdoes
      generalize (aheadSearch id node).run g plan = finding at hdoes ⊢
      cases hdoes with
      | nil entered => exact honce
      | missing entered id target pending rest hne hnode => exact honce
      | stop entered id target node pending rest hne hnode hjudge => exact honce

/-!
# Bounds
-/

theorem calls_le_optionals (hplan : plan.LooksFor wanted) (id : Nat) (node : Node) :
    (aheadSearch id node).calls g plan <= g.optionals.length := by
  have hlength := Search.length_entered_run g plan (aheadSearch id node)
  have hle := (optionalOnce_run (g := g) hplan id node).length_le
  rw [hlength, aheadSearch, Marks.order_empty, List.length_nil, Nat.zero_add] at hle
  exact hle

theorem pops_le_optionals (hplan : plan.LooksFor wanted) (id : Nat) (node : Node) :
    (aheadSearch id node).pops g plan <= g.optionals.length + 1 :=
  calc
    (aheadSearch id node).pops g plan <= 1 + (aheadSearch id node).calls g plan :=
      Search.pops_le g plan (aheadSearch id node)
    _ <= 1 + g.optionals.length := Nat.add_le_add_left (calls_le_optionals hplan id node) 1
    _ = g.optionals.length + 1 := Nat.add_comm 1 _

/-- Looking ahead comes to a last stage, and at each stage has marked optional nodes only, each
of them once.  Selecting makes nested calls, at most one for each optional node of the graph,
and finishing takes at most one more node than that from its agenda. -/
theorem looking_ahead_is_linear (hid : id < g.size) (c : Char) :
    exists node : Node,
      g.node? id = some node ∧
        (forall plan : Plan,
          plan = Plan.selecting c ∨ plan = Plan.finishing ->
            (exists last : Search,
              ((aheadSearch id node).stages g plan).getLast? = some last ∧
                last.step g plan = Sum.inl ((aheadSearch id node).run g plan)) ∧
            forall stage : Search,
              stage ∈ (aheadSearch id node).stages g plan ->
                stage.entered.order.Nodup ∧
                  forall mid : Nat,
                    mid ∈ stage.entered ->
                      exists a : Atom, g.state? mid = some (State.loop Quantifier.star a)) ∧
        Search.Nested g (Plan.selecting c) Marks.empty id node.targets
          ((aheadSearch id node).run g (Plan.selecting c))
          ((aheadSearch id node).calls g (Plan.selecting c)) ∧
        (aheadSearch id node).calls g (Plan.selecting c) <= g.optionals.length ∧
        (aheadSearch id node).pops g Plan.finishing <= g.optionals.length + 1 := by
  cases exists_node?_of_lt hid with
  | intro node hnode =>
      have hlooks : forall plan : Plan, plan = Plan.selecting c ∨ plan = Plan.finishing ->
          exists wanted : State -> Prop, plan.LooksFor wanted := by
        intro plan hplan
        cases hplan with
        | inl hselecting =>
            rw [hselecting]
            exact ⟨_, Plan.looksFor_selecting c⟩
        | inr hfinishing =>
            rw [hfinishing]
            exact ⟨_, Plan.looksFor_finishing⟩
      exists node
      constructor
      · exact hnode
      constructor
      · intro plan hplan
        constructor
        · exact Search.exists_last_stage g plan (aheadSearch id node)
        · intro stage hstage
          cases hlooks plan hplan with
          | intro wanted hwanted =>
              have honce := optionalOnce_of_mem_stages hwanted hstage
              constructor
              · exact honce.nodup
              · intro mid hmid
                exact exists_atom_of_mem_optionals (honce.optional hmid)
      constructor
      · exact Search.nested_run rfl Marks.empty id node.targets
      constructor
      · exact calls_le_optionals (Plan.looksFor_selecting c) id node
      · exact pops_le_optionals Plan.looksFor_finishing id node

/-- Two optional nodes list each other and themselves. -/
def entwined : Graph where
  nodes := #[
    ⟨State.start, [1]⟩,
    ⟨State.loop Quantifier.star (Atom.char 'a'), [1, 2]⟩,
    ⟨State.loop Quantifier.star (Atom.char 'b'), [2, 1]⟩]
  nonempty := by decide

theorem looking_ahead_is_linear_entwined :
    1 < entwined.size ∧ entwined.optionals = [1, 2] ∧
      exists node : Node,
        entwined.node? 1 = some node ∧
          (aheadSearch 1 node).calls entwined (Plan.selecting 'c') = 2 ∧
          (aheadSearch 1 node).pops entwined Plan.finishing = 3 ∧
          Search.Nested entwined (Plan.selecting 'c') Marks.empty 1 node.targets
            ((aheadSearch 1 node).run entwined (Plan.selecting 'c')) 2 := by
  have hid : 1 < entwined.size := by decide
  cases looking_ahead_is_linear hid 'c' with
  | intro node h =>
      have hnode := h.left
      have hcalls : (aheadSearch 1 node).calls entwined (Plan.selecting 'c') = 2 := by
        cases hnode
        cbv
      have hpops : (aheadSearch 1 node).pops entwined Plan.finishing = 3 := by
        cases hnode
        cbv
      have hnested := h.right.right.left
      rw [hcalls] at hnested
      exact ⟨hid, rfl, node, hnode, hcalls, hpops, hnested⟩

end Graph
end PatternWalk
