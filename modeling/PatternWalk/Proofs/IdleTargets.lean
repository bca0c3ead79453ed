import PatternWalk.Graph.Ahead
import PatternWalk.Graph.Padding

/-!
# Idle targets

A target that says nothing new can be put into a graph without any difference to walks and
runs, whether or not they miss a node.  So it is the state of a node that makes it repeat,
and not a target that leads back to it.
-/

namespace PatternWalk
namespace Graph

theorem next_of_isLoop {g : Graph} {id : Nat} {node : Node} {c : Char}
    (hnode : g.node? id = some node) (hloop : node.state.isLoop = true)
    (haccepts : node.state.accepts c = true) (hselect : g.select id c = Except.ok none) :
    g.next id c = Except.ok (some id) := by
  rw [next_of_not_selected hselect hnode, hloop, haccepts, Bool.and_self, if_pos rfl]

theorem ahead_self_of_next {g : Graph} {id : Nat} {node : Node} {c : Char}
    (hnode : g.node? id = some node) (hloop : node.state.isLoop = false)
    (hnext : g.next id c = Except.ok (some id)) : g.Ahead id id := by
  rcases next_cases hnext with ⟨target, htarget, hselect⟩ | ⟨_, other, hother, hchoice⟩
  · cases htarget
    exact (ahead_of_select hselect).left
  · rw [hnode] at hother
    cases hother
    rw [hloop, Bool.false_and, if_neg Bool.false_ne_true] at hchoice
    cases hchoice

/-- Idle targets make no difference to a walk or a run, not even to what it misses.  In
every graph a looping node repeats whatever it lists, and a node that does not loop is
never entered again for listing itself. -/
theorem outcomes_of_padsTo {g h : Graph} (hpads : g.PadsTo h) :
    h.walk = g.walk ∧
      (forall text : String, h.run text = g.run text ∧ h.accepts text = g.accepts text) ∧
      (forall (id : Nat) (node : Node) (c : Char),
        h.node? id = some node -> node.state.isLoop = true -> node.state.accepts c = true ->
          h.select id c = Except.ok none -> h.next id c = Except.ok (some id)) ∧
      forall (id : Nat) (node : Node) (c : Char),
        h.node? id = some node -> node.state.isLoop = false ->
          h.next id c = Except.ok (some id) ->
            exists mid : Nat, mid ≠ id ∧ h.Through id mid ∧ id ∈ h.targets mid := by
  refine ⟨hpads.walk_eq, ?_, fun _ _ _ => next_of_isLoop, ?_⟩
  · intro text
    have hrun := hpads.run_eq text
    refine ⟨hrun, ?_⟩
    rw [accepts, accepts, hrun]
  · intro id node c hnode hloop hnext
    rcases ahead_self_of_next hnode hloop hnext with ⟨mid, hmid, hmem, hne⟩
    exact ⟨mid, hne.symm, hmid, hmem⟩

def dangling : Graph where
  nodes := #[
    ⟨State.start, [1, 7]⟩,
    ⟨State.loop Quantifier.plus (Atom.char 'a'), [2]⟩,
    ⟨State.final, []⟩]
  nonempty := by decide

/-- The start lists its first target twice, and the looping node lists itself. -/
def danglingPadded : Graph where
  nodes := #[
    ⟨State.start, [1, 1, 7]⟩,
    ⟨State.loop Quantifier.plus (Atom.char 'a'), [1, 2]⟩,
    ⟨State.final, []⟩]
  nonempty := by decide

theorem padsTo_danglingPadded : dangling.PadsTo danglingPadded := by
  have htwice : dangling.Pads (dangling.retarget 0 [1, 1, 7]) :=
    Pads.put 0 1 [1] [7] (by decide) rfl (by decide)
  have hitself : (dangling.retarget 0 [1, 1, 7]).Pads
      ((dangling.retarget 0 [1, 1, 7]).retarget 1 [1, 2]) :=
    Pads.put 1 1 [] [2] (by decide) rfl (by decide)
  have hpadded : (dangling.retarget 0 [1, 1, 7]).retarget 1 [1, 2] = danglingPadded := by decide
  rw [hpadded] at hitself
  exact (Relation.ReflTransGen.single htwice).tail hitself

theorem outcomes_of_padsTo_dangling :
    dangling.PadsTo danglingPadded ∧
      danglingPadded.walk = Except.error ⟨3, 7⟩ ∧
        danglingPadded.accepts "aa" = Except.ok true ∧
          danglingPadded.accepts "b" = Except.error ⟨3, 7⟩ := by
  have hwalk : dangling.walk = Except.error ⟨3, 7⟩ := by cbv
  have htaken : dangling.accepts "aa" = Except.ok true := by cbv
  have hmissed : dangling.accepts "b" = Except.error ⟨3, 7⟩ := by cbv
  rcases outcomes_of_padsTo padsTo_danglingPadded with ⟨hsame, hsameRun, _, _⟩
  refine ⟨padsTo_danglingPadded, hsame.trans hwalk, ?_, ?_⟩
  · exact (hsameRun "aa").right.trans htaken
  · exact (hsameRun "b").right.trans hmissed

end Graph
end PatternWalk
