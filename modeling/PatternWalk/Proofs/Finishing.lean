import PatternWalk.Graph.Ahead

/-!
# Whether a run can finish

A run can finish in a node when the final state is ahead of it.  The question has an answer
unless a target without a node is listed at a node that is looked through.  Then it depends
on the order in which nodes are looked through whether the final state is found before the
target is missed; but the final state is never found where it is not, and nothing is missed
that has a node.
-/

namespace PatternWalk
namespace Graph

variable {g : Graph} {id : Nat}

theorem canFinish_cases (hid : id < g.size) :
    (g.canFinish id = Except.ok true ∧ g.Finishes id) ∨
      (g.canFinish id = Except.ok false ∧ ¬ g.Finishes id ∧
        forall target : Nat, ¬ g.Misses id target) ∨
      exists target : Nat,
        g.canFinish id = Except.error ⟨g.size, target⟩ ∧ g.Misses id target := by
  rcases exists_node?_of_lt hid with ⟨node, hnode⟩
  have hanswer := canFinish_of_node? hnode
  cases hending : ((aheadSearch id node).run g Plan.finishing).ending with
  | stopped target =>
      rw [hending] at hanswer
      exact Or.inl ⟨hanswer, (eq_true_iff_finishes hanswer).mp rfl⟩
  | missing target =>
      rw [hending] at hanswer
      exact Or.inr (Or.inr
        ⟨target, hanswer, misses_of_missing Plan.looksFor_finishing hnode hending⟩)
  | exhausted =>
      rw [hending] at hanswer
      have hnot : ¬ g.Finishes id := fun h =>
        Bool.false_ne_true ((eq_true_iff_finishes hanswer).mpr h)
      exact Or.inr (Or.inl
        ⟨hanswer, hnot, not_misses_of_exhausted Plan.looksFor_finishing hnode hending⟩)

/-- A run cannot finish exactly when the final state is not ahead and nothing ahead is
without a node.  If it can finish, the final state is ahead; if a node is missed, it is a
target of a node that is looked through.  So where every target has a node, a run can
finish exactly when the final state is ahead. -/
theorem canFinish_iff_finishes (hid : id < g.size) :
    (g.canFinish id = Except.ok false <->
        ¬ g.Finishes id ∧ forall target : Nat, ¬ g.Misses id target) ∧
      (g.canFinish id = Except.ok true -> g.Finishes id) ∧
      (forall missing : MissingNode,
        g.canFinish id = Except.error missing ->
          missing.size = g.size ∧ g.Misses id missing.id) ∧
      ((forall target : Nat, ¬ g.Misses id target) ->
        (g.canFinish id = Except.ok true <-> g.Finishes id)) := by
  rcases canFinish_cases hid with
    ⟨hanswer, hfinishes⟩ | ⟨hanswer, hnot, hnone⟩ | ⟨target, hanswer, hmisses⟩
  · rw [hanswer]
    refine ⟨iff_of_false nofun (fun h => h.left hfinishes), fun _ => hfinishes, nofun, ?_⟩
    intro _
    exact iff_of_true rfl hfinishes
  · rw [hanswer]
    refine ⟨iff_of_true rfl ⟨hnot, hnone⟩, nofun, nofun, ?_⟩
    intro _
    exact iff_of_false nofun hnot
  · rw [hanswer]
    refine ⟨iff_of_false nofun (fun h => h.right target hmisses), nofun, ?_, ?_⟩
    · intro missing hmissing
      cases hmissing
      exact ⟨rfl, hmisses⟩
    · intro hnone
      exact absurd hmisses (hnone target)

/-- Two wrappers behind the start, of which the first one lists a target without a node and
the second one the final state. -/
def forked : Graph where
  nodes := #[
    ⟨State.start, [1, 2]⟩,
    ⟨State.loop Quantifier.star (Atom.char 'a'), [2, 7]⟩,
    ⟨State.loop Quantifier.star (Atom.char 'b'), [1, 3]⟩,
    ⟨State.final, []⟩]
  nonempty := by decide

theorem canFinish_iff_finishes_forked :
    0 < forked.size ∧ forked.canFinish 0 = Except.ok true ∧ forked.Finishes 0 ∧
      1 < forked.size ∧ forked.canFinish 1 = Except.error ⟨4, 7⟩ ∧ forked.Misses 1 7 := by
  have hstart : 0 < forked.size := by decide
  have hfirst : 1 < forked.size := by decide
  have hfound : forked.canFinish 0 = Except.ok true := by cbv
  have hmissed : forked.canFinish 1 = Except.error ⟨4, 7⟩ := by
    rw [canFinish_of_node? rfl]
    cbv
  exact ⟨hstart, hfound, (canFinish_iff_finishes hstart).right.left hfound, hfirst, hmissed,
    ((canFinish_iff_finishes hfirst).right.right.left _ hmissed).right⟩

end Graph
end PatternWalk
