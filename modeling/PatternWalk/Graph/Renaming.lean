import PatternWalk.Graph.Answers
import PatternWalk.Graph.Walked

/-!
# Renaming the nodes of a graph

A renaming takes the nodes that can be reached from the start of one graph to nodes of
another graph, different nodes to different ones, and keeps their states and their
targets in order.  It then takes them to all the nodes that can be reached there.  What
else either graph holds does not matter: runs and walks never see it.
-/

namespace PatternWalk
namespace Graph

structure Renaming (g h : Graph) (rename : Nat -> Nat) : Prop where
  start : rename startId = startId
  injective : forall id other : Nat,
    g.Reaches startId id -> g.Reaches startId other -> rename id = rename other -> id = other
  state : forall id : Nat, g.Reaches startId id -> h.state? (rename id) = g.state? id
  targets : forall id : Nat,
    g.Reaches startId id -> h.targets (rename id) = (g.targets id).map rename

namespace Renaming

variable {g h : Graph} {rename : Nat -> Nat}

theorem mirror (hrename : g.Renaming h rename) (hintact : g.Intact) :
    g.Mirror h rename (g.Reaches startId) where
  start := Reaches.refl g.startId_lt_size
  rename_start := hrename.start
  injective := hrename.injective
  closed id target hid htarget := Reaches.step hid htarget (hintact id target hid htarget)
  state := hrename.state
  targets id hid := by
    rw [hrename.targets id hid]
    exact Padded.refl _ _

theorem of_node? (hnodes : forall id : Nat, g.Reaches startId id -> h.node? id = g.node? id) :
    g.Renaming h id where
  start := rfl
  injective _ _ _ _ heq := heq
  state name hname := by
    unfold state?
    rw [id, hnodes name hname]
  targets name hname := by
    unfold Graph.targets
    rw [id, hnodes name hname, List.map_id]

theorem walk (hrename : g.Renaming h rename) {ids : List Nat}
    (hwalk : g.walk = Except.ok ids) : h.walk = Except.ok (ids.map rename) := by
  have hanswer := (hrename.mirror (intact_of_walk hwalk)).walk
  rw [hwalk] at hanswer
  rcases hanswer.exists_image with ⟨images, himages, rfl⟩
  exact himages

theorem exists_run (hrename : g.Renaming h rename) (hintact : g.Intact) (text : String) :
    exists outcome : Outcome,
      g.run text = Except.ok outcome ∧ h.run text = Except.ok (outcome.rename rename) := by
  rcases hintact.exists_run text with ⟨outcome, houtcome⟩
  have hanswer := (hrename.mirror hintact).run text
  rw [houtcome] at hanswer
  rcases hanswer.exists_image with ⟨image, himage, rfl⟩
  exact ⟨outcome, houtcome, himage⟩

theorem exists_accepts (hrename : g.Renaming h rename) (hintact : g.Intact) (text : String) :
    exists answer : Bool,
      g.accepts text = Except.ok answer ∧ h.accepts text = Except.ok answer := by
  rcases hrename.exists_run hintact text with ⟨outcome, houtcome, himage⟩
  refine ⟨outcome.accepted, ?_, ?_⟩
  · rw [accepts, houtcome]
    rfl
  · rw [accepts, himage]
    rfl

end Renaming

/-!
# Keeping the names
-/

theorem layout_of_node? {g h : Graph} {entries : List (Nat × Node)}
    (hlayout : g.layout = Except.ok entries)
    (hnodes : forall id : Nat, g.Reaches startId id -> h.node? id = g.node? id) :
    h.layout = Except.ok entries := by
  rcases layout_eq_ok_iff.mp hlayout with ⟨hwalk, hentries⟩
  have hsame := (Renaming.of_node? hnodes).walk hwalk
  rw [List.map_id] at hsame
  refine layout_eq_ok_iff.mpr ⟨hsame, ?_⟩
  intro entry hentry
  have hreaches : g.Reaches startId entry.1 :=
    (mem_iff_reaches_of_walk hwalk entry.1).mp (List.mem_map_of_mem hentry)
  rw [hnodes entry.1 hreaches]
  exact hentries entry hentry

end Graph
end PatternWalk
