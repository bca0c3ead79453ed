import PatternWalk.Graph.Dump
import PatternWalk.Graph.Edit
import PatternWalk.Graph.Renaming

/-!
# Names and unreachable nodes

Matching and walking see the shape of what can be reached from the start, and nothing
else.  Which numbers the nodes have does not matter, and neither do nodes that cannot be
reached: they can be added and edited at will.
-/

namespace PatternWalk
namespace Graph

theorem node?_of_edit_unreachable {g edited : Graph} {e : Edit}
    (hedit : g.edit e = Except.ok edited)
    (hsubject : forall id : Nat, e.subject? = some id -> ¬ g.Reaches startId id) (id : Nat)
    (hid : g.Reaches startId id) : edited.node? id = g.node? id :=
  node?_of_edit hedit hid.lt_size (fun h => hsubject id h hid)

/-- A graph that can be walked gives a graph with the same nodes under other names the same
walk, under those names, and the same answer for every text.  An edit that is no edit of a
reachable node leaves the walk, the way the graph is shown and every answer as they were. -/
theorem walk_and_accepts_of_renaming {g : Graph} {ids : List Nat}
    (hwalk : g.walk = Except.ok ids) :
    (forall (h : Graph) (rename : Nat -> Nat),
      g.Renaming h rename ->
        h.walk = Except.ok (ids.map rename) ∧
          forall text : String,
            exists answer : Bool,
              g.accepts text = Except.ok answer ∧ h.accepts text = Except.ok answer) ∧
      forall (e : Edit) (edited : Graph),
        g.edit e = Except.ok edited ->
          (forall id : Nat, e.subject? = some id -> ¬ g.Reaches startId id) ->
            edited.walk = Except.ok ids ∧
              (forall hidden : Char -> Bool,
                exists shown : String,
                  g.dump hidden = Except.ok shown ∧ edited.dump hidden = Except.ok shown) ∧
              forall text : String,
                exists answer : Bool,
                  g.accepts text = Except.ok answer ∧ edited.accepts text = Except.ok answer := by
  have hintact := intact_of_walk hwalk
  constructor
  · intro h rename hrename
    exact ⟨hrename.walk hwalk, hrename.exists_accepts hintact⟩
  · intro e edited hedit hsubject
    have hnodes := node?_of_edit_unreachable hedit hsubject
    have hrename := Renaming.of_node? hnodes
    have hsame := hrename.walk hwalk
    rw [List.map_id] at hsame
    rcases exists_layout_of_walk hwalk with ⟨entries, hlayout⟩
    have hedited := layout_of_node? hlayout hnodes
    refine ⟨hsame, ?_, hrename.exists_accepts hintact⟩
    intro hidden
    exact ⟨_, dump_of_layout hlayout hidden, dump_of_layout hedited hidden⟩

def returning : Graph where
  nodes := #[
    ⟨State.start, [1]⟩,
    ⟨State.loop Quantifier.star (Atom.char 'a'), [2, 0]⟩,
    ⟨State.final, []⟩]
  nonempty := by decide

/-- The same graph, with a node between its nodes that cannot be reached and has a target
that does not exist. -/
def returningAround : Graph where
  nodes := #[
    ⟨State.start, [3]⟩,
    ⟨State.single Atom.any, [7]⟩,
    ⟨State.final, []⟩,
    ⟨State.loop Quantifier.star (Atom.char 'a'), [2, 0]⟩]
  nonempty := by decide

def aroundName : Nat -> Nat
  | 1 => 3
  | id => id

theorem renaming_returning : returning.Renaming returningAround aroundName := by
  have hwalk : returning.walk = Except.ok [0, 1, 2] := by cbv
  have hnames : forall id : Nat, returning.Reaches startId id -> id ∈ [0, 1, 2] :=
    fun id => (mem_iff_reaches_of_walk hwalk id).mpr
  constructor
  · rfl
  · have hinjective : forall id : Nat, id ∈ [0, 1, 2] -> forall other : Nat, other ∈ [0, 1, 2] ->
        aroundName id = aroundName other -> id = other := by decide
    exact fun id other hid hother => hinjective id (hnames id hid) other (hnames other hother)
  · have hstate : forall id : Nat, id ∈ [0, 1, 2] ->
        returningAround.state? (aroundName id) = returning.state? id := by decide
    exact fun id hid => hstate id (hnames id hid)
  · have htargets : forall id : Nat, id ∈ [0, 1, 2] ->
        returningAround.targets (aroundName id) = (returning.targets id).map aroundName := by
      decide
    exact fun id hid => htargets id (hnames id hid)

theorem walk_and_accepts_of_renaming_returning :
    returning.walk = Except.ok [0, 1, 2] ∧
      returning.Renaming returningAround aroundName ∧
        returningAround.walk = Except.ok [0, 3, 2] ∧
          returningAround.accepts "aba" = Except.ok true ∧
            ¬ returningAround.Reaches startId 1 ∧
              (returningAround.connect 1 3).walk = Except.ok [0, 3, 2] ∧
                (returningAround.connect 1 3).accepts "aba" = Except.ok true := by
  have hwalk : returning.walk = Except.ok [0, 1, 2] := by cbv
  have haccepts : returning.accepts "aba" = Except.ok true := by cbv
  rcases (walk_and_accepts_of_renaming hwalk).left _ _ renaming_returning with ⟨haround, hsame⟩
  rcases hsame "aba" with ⟨answer, hanswer, himage⟩
  rw [haccepts] at hanswer
  cases hanswer
  have hedit : returningAround.edit (Edit.connect 1 3) =
      Except.ok (returningAround.connect 1 3) := edit_connect (by decide) 3
  have hunreachable : ¬ returningAround.Reaches startId 1 := by
    rw [<- mem_iff_reaches_of_walk haround]
    decide
  have hsubject : forall id : Nat, (Edit.connect 1 3).subject? = some id ->
      ¬ returningAround.Reaches startId id := by
    intro id hid
    cases hid
    exact hunreachable
  rcases (walk_and_accepts_of_renaming haround).right _ _ hedit hsubject with
    ⟨hconnected, _, hconnectedsame⟩
  rcases hconnectedsame "aba" with ⟨other, hother, hconnectedanswer⟩
  rw [himage] at hother
  cases hother
  exact ⟨hwalk, renaming_returning, haround, himage, hunreachable, hconnected, hconnectedanswer⟩

end Graph
end PatternWalk
