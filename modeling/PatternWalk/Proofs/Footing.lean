import PatternWalk.Graph.Consulted
import PatternWalk.Graph.Walked
import PatternWalk.Proofs.Shape

/-!
# Runs keep to the walk

A graph that can be walked can be run on every text, and its runs consult no node that the
walk does not name.  It does not matter how the graph was made, what its start is labelled
with, or what stands in it out of reach.  The graph of a pattern can always be walked.
-/

namespace PatternWalk
namespace Graph

/-!
# Footing
-/

namespace Intact

variable {g : Graph} {id other : Nat}

theorem reaches_target (hintact : g.Intact) (hid : g.Reaches startId id)
    (hother : other ∈ g.targets id) : g.Reaches startId other :=
  Reaches.step hid hother (hintact id other hid hother)

theorem reaches_of_consultsAhead (hintact : g.Intact) {plan : Plan}
    (h : g.ConsultsAhead plan id other) (hid : g.Reaches startId id) :
    g.Reaches startId other := by
  rcases h with ⟨node, hnode, hother⟩
  exact hother.inside (within_aheadSearch hnode hid) (fun _ _ => hintact.reaches_target)

theorem reaches_of_consults (hintact : g.Intact) {word : List Char}
    (h : g.Consults id word other) (hid : g.Reaches startId id) : g.Reaches startId other := by
  induction h with
  | standing id word => exact hid
  | selecting word hahead => exact hintact.reaches_of_consultsAhead hahead hid
  | finishing hahead => exact hintact.reaches_of_consultsAhead hahead hid
  | going hnext _ ih =>
      rcases hintact.exists_next hid _ with ⟨choice, hchoice, hreaches⟩
      rw [hnext] at hchoice
      cases hchoice
      exact ih (hreaches _ rfl)

end Intact

theorem mem_of_consults {g : Graph} {ids : List Nat} (hwalk : g.walk = Except.ok ids)
    {text : String} {id : Nat} (h : g.Consults startId text.toList id) : id ∈ ids :=
  (mem_iff_reaches_of_walk hwalk id).mpr
    ((intact_of_walk hwalk).reaches_of_consults h (Reaches.refl g.startId_lt_size))

/-- Every text can be run on a graph that can be walked.  The run consults only nodes that
the walk names, the nodes it stands in among them, and it would come out the same in any
graph of the same size with the same nodes there.  The graph of a pattern can be walked, so
every text can be run on it. -/
theorem run_keeps_to_walk :
    (forall (g : Graph) (ids : List Nat) (text : String),
      g.walk = Except.ok ids ->
        (exists outcome : Outcome, g.run text = Except.ok outcome) ∧
          (forall id : Nat, g.Consults startId text.toList id -> id ∈ ids) ∧
          (forall (front back : List Char) (id : Nat),
            text.toList = front ++ back ->
              g.follow startId front = Except.ok (Arrival.standing id) ->
                g.Consults startId text.toList id ∧ id ∈ ids) ∧
          forall h : Graph,
            h.size = g.size ->
              (forall id : Nat,
                g.Consults startId text.toList id -> h.node? id = g.node? id) ->
                h.run text = g.run text) ∧
      forall pattern : Pattern,
        (exists ids : List Nat, pattern.graph.walk = Except.ok ids) ∧
          forall text : String,
            exists outcome : Outcome, pattern.graph.run text = Except.ok outcome := by
  constructor
  · intro g ids text hwalk
    refine ⟨(intact_of_walk hwalk).exists_run text, fun id => mem_of_consults hwalk, ?_, ?_⟩
    · intro front back id htext hfollow
      have hconsults := (Consults.standing id back).behind hfollow
      rw [<- htext] at hconsults
      exact ⟨hconsults, mem_of_consults hwalk hconsults⟩
    · intro h hsize hsame
      exact run_eq_of_consults hsize hsame
  · intro pattern
    rcases pattern.exists_items with ⟨items, _, hstands⟩
    exact ⟨⟨_, hstands.walk⟩, pattern.intact.exists_run⟩

/-- A wrapper goes back to a start that has become a wrapper itself, and a node out of reach
has a target that does not exist. -/
def returningPast : Graph where
  nodes := #[
    ⟨State.loop Quantifier.star (Atom.char 'b'), [1]⟩,
    ⟨State.loop Quantifier.star (Atom.char 'a'), [0, 2]⟩,
    ⟨State.final, [0]⟩,
    ⟨State.single Atom.any, [1, 9]⟩]
  nonempty := by decide

theorem run_keeps_to_walk_returning :
    returningPast.walk = Except.ok [0, 1, 2] ∧
      (exists outcome : Outcome, returningPast.run "abba" = Except.ok outcome) ∧
        returningPast.follow startId "abb".toList = Except.ok (Arrival.standing 0) ∧
          returningPast.Consults startId "abba".toList 0 ∧
            ¬ returningPast.Consults startId "abba".toList 3 := by
  have hwalk : returningPast.walk = Except.ok [0, 1, 2] := by cbv
  have hfollow : returningPast.follow startId "abb".toList = Except.ok (Arrival.standing 0) := by
    cbv
  rcases run_keeps_to_walk.left returningPast [0, 1, 2] "abba" hwalk with
    ⟨hrun, hnames, hstanding, _⟩
  refine ⟨hwalk, hrun, hfollow, (hstanding "abb".toList ['a'] 0 rfl hfollow).left, ?_⟩
  intro hconsults
  have hmem := hnames 3 hconsults
  revert hmem
  decide

end Graph
end PatternWalk
