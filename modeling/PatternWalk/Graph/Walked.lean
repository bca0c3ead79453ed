import PatternWalk.Graph.Course
import PatternWalk.Graph.Safety

/-!
# What a finished walk tells

A walk stops at no state, so it has a result unless it misses a node.  The result names
the nodes that can be reached from the start, and nothing that can be reached from there
has a target without a node.
-/

namespace PatternWalk
namespace Graph

variable {g : Graph}

theorem within_walkSearch (g : Graph) : g.walkSearch.Within g (g.Reaches startId) := by
  intro scan hscan
  cases List.mem_singleton.mp hscan
  exact ⟨Reaches.refl g.startId_lt_size, fun _ htarget => htarget⟩

theorem covers_walkSearch (g : Graph) : g.walkSearch.Covers g Plan.walking startId := by
  intro id target hid htarget
  have hstart : id = startId := by
    rcases hid with hroot | hmem
    · exact hroot
    · exact (Marks.mem_add.mp hmem).resolve_right (Marks.not_mem_empty id)
  subst hstart
  exact Or.inr ⟨_, List.mem_singleton.mpr rfl, rfl, htarget⟩

theorem run_walkSearch_within (g : Graph) :
    (g.walkSearch.run g Plan.walking).Within g Plan.walking (g.Reaches startId)
      g.walkSearch.entered :=
  Search.run_within (Plan.walking.keepsTo_reaches g startId) g.within_walkSearch

theorem exhausted_of_walk {ids : List Nat} (h : g.walk = Except.ok ids) :
    (g.walkSearch.run g Plan.walking).ending = Ending.exhausted ∧
      ids = (g.walkSearch.run g Plan.walking).entered.order.reverse := by
  unfold walk at h
  cases hending : (g.walkSearch.run g Plan.walking).ending with
  | exhausted =>
      simp only [hending] at h
      exact ⟨rfl, (Except.ok.inj h).symm⟩
  | missing target =>
      simp only [hending] at h
      cases h
  | stopped target =>
      rcases g.run_walkSearch_within.stopped target hending with ⟨_, node, _, _, _, _, hjudge⟩
      cases hjudge

theorem mem_entered_of_reaches
    (h : (g.walkSearch.run g Plan.walking).ending = Ending.exhausted) {id : Nat}
    (hid : g.Reaches startId id) : id ∈ (g.walkSearch.run g Plan.walking).entered := by
  induction hid with
  | refl _ => exact Search.mem_entered_run (Marks.mem_add.mpr (Or.inl rfl))
  | step _ htarget _ ih =>
      rcases Search.idle_of_run_exhausted g.covers_walkSearch h (Or.inr ih) htarget with
        rfl | ⟨node, _, hpass | ⟨_, hmem⟩⟩
      · exact ih
      · cases hpass
      · exact hmem

/-- A walk names the nodes that can be reached from the start. -/
theorem mem_iff_reaches_of_walk {ids : List Nat} (h : g.walk = Except.ok ids) (id : Nat) :
    id ∈ ids <-> g.Reaches startId id := by
  rcases exhausted_of_walk h with ⟨hending, rfl⟩
  rw [List.mem_reverse]
  constructor
  · intro hid
    rcases g.run_walkSearch_within.entered id hid with hstart | hreaches
    · rw [(Marks.mem_add.mp hstart).resolve_right (Marks.not_mem_empty id)]
      exact Reaches.refl g.startId_lt_size
    · exact hreaches
  · exact mem_entered_of_reaches hending

theorem intact_of_walk {ids : List Nat} (h : g.walk = Except.ok ids) : g.Intact := by
  rcases exhausted_of_walk h with ⟨hending, -⟩
  intro id target hid htarget
  have hmem := mem_entered_of_reaches hending hid
  rcases Search.idle_of_run_exhausted g.covers_walkSearch hending (Or.inr hmem) htarget with
    rfl | ⟨node, hnode, _⟩
  · exact hid.lt_size
  · exact lt_size_of_node? hnode

/-!
# Nodes that list themselves

Every node on the agenda of a walk has been marked when it was put there.  A walk would
therefore pass a target by that names the node it stands in even without asking for it: such
a target is one that has been entered.
-/

def AgendaEntered (g : Graph) (search : Search) : Prop :=
  forall scan : Scan, scan ∈ search.agenda -> scan.id < g.size ∧ scan.id ∈ search.entered

theorem AgendaEntered.look {entered : Marks} {id target : Nat} {pending : List Nat}
    {rest : List Scan} (h : g.AgendaEntered ⟨entered, ⟨id, target :: pending⟩ :: rest⟩) :
    g.AgendaEntered ⟨entered, ⟨id, pending⟩ :: rest⟩ := by
  have hparts := List.forall_mem_cons.mp h
  exact List.forall_mem_cons.mpr ⟨hparts.left, hparts.right⟩

theorem AgendaEntered.step {plan : Plan} {search next : Search}
    (hstep : search.step g plan = Sum.inr next) (h : g.AgendaEntered search) :
    g.AgendaEntered next := by
  have hdoes := search.does_step g plan
  rw [hstep] at hdoes
  cases hdoes with
  | leave entered id rest => exact fun scan hscan => h scan (List.mem_cons_of_mem _ hscan)
  | idle entered id target pending rest hidle => exact h.look
  | enter entered id target node pending rest hne hnode hjudge hnew =>
      intro scan hscan
      rcases Discipline.mem_place_iff.mp hscan with rfl | hold
      · exact ⟨lt_size_of_node? hnode, Marks.mem_add.mpr (Or.inl rfl)⟩
      · rcases h.look scan hold with ⟨hlt, hmem⟩
        exact ⟨hlt, Marks.mem_add.mpr (Or.inr hmem)⟩

theorem agendaEntered_walkSearch (g : Graph) : g.AgendaEntered g.walkSearch := by
  intro scan hscan
  cases List.mem_singleton.mp hscan
  exact ⟨g.startId_lt_size, Marks.mem_add.mpr (Or.inl rfl)⟩

/-- The node that a walk is looking through is itself a target that has been entered. -/
theorem idle_self_of_mem_stages {stage : Search}
    (hstage : stage ∈ g.walkSearch.stages g Plan.walking) {scan : Scan}
    (hscan : scan ∈ stage.agenda) : Search.Idle g Plan.walking stage.entered scan.id := by
  have hentered := Search.forall_mem_stages (fun _ _ => AgendaEntered.step)
    g.agendaEntered_walkSearch stage hstage
  rcases hentered scan hscan with ⟨hlt, hmem⟩
  rcases exists_node?_of_lt hlt with ⟨node, hnode⟩
  exact ⟨node, hnode, Or.inr ⟨rfl, hmem⟩⟩

/-!
# What is laid out
-/

theorem mapM_node_eq_ok_iff {ids : List Nat} {entries : List (Nat × Node)} :
    ids.mapM (fun id => do
        let node <- g.node id
        return (id, node)) = Except.ok entries <->
      ids = entries.map Prod.fst ∧
        forall entry : Nat × Node, entry ∈ entries -> g.node? entry.1 = some entry.2 := by
  induction ids generalizing entries with
  | nil =>
      rw [List.mapM_nil]
      constructor
      · intro h
        cases h
        exact ⟨rfl, nofun⟩
      · intro h
        rw [List.map_eq_nil_iff.mp h.left.symm]
        rfl
  | cons id ids ih =>
      rw [List.mapM_cons]
      constructor
      · intro h
        cases hnode : g.node? id with
        | none =>
            rw [Graph.node, hnode] at h
            cases h
        | some node =>
            rw [node_of_node? hnode] at h
            cases hrest : ids.mapM (fun id => do
                let node <- g.node id
                return (id, node)) with
            | error missing =>
                rw [hrest] at h
                cases h
            | ok rest =>
                rw [hrest] at h
                cases h
                rcases ih.mp hrest with ⟨hids, hnodes⟩
                refine ⟨by rw [hids, List.map_cons], ?_⟩
                exact List.forall_mem_cons.mpr ⟨hnode, hnodes⟩
      · intro h
        rcases h with ⟨hids, hnodes⟩
        rcases List.map_eq_cons_iff.mp hids.symm with ⟨⟨first, node⟩, rest, rfl, rfl, hrest⟩
        rcases List.forall_mem_cons.mp hnodes with ⟨hnode, hnodes⟩
        rw [node_of_node? hnode, ih.mpr ⟨hrest.symm, hnodes⟩]
        rfl

theorem layout_eq_ok_iff {entries : List (Nat × Node)} :
    g.layout = Except.ok entries <->
      g.walk = Except.ok (entries.map Prod.fst) ∧
        forall entry : Nat × Node, entry ∈ entries -> g.node? entry.1 = some entry.2 := by
  unfold layout
  cases hwalk : g.walk with
  | error missing =>
      constructor
      · intro h
        cases h
      · intro h
        cases h.left
  | ok ids =>
      show ids.mapM _ = Except.ok entries <-> _
      rw [mapM_node_eq_ok_iff, Except.ok.injEq]

theorem exists_entries {ids : List Nat}
    (h : forall id : Nat, id ∈ ids -> exists node : Node, g.node? id = some node) :
    exists entries : List (Nat × Node),
      ids = entries.map Prod.fst ∧
        forall entry : Nat × Node, entry ∈ entries -> g.node? entry.1 = some entry.2 := by
  induction ids with
  | nil => exact ⟨[], rfl, nofun⟩
  | cons id ids ih =>
      rcases List.forall_mem_cons.mp h with ⟨⟨node, hnode⟩, hrest⟩
      rcases ih hrest with ⟨entries, rfl, hentries⟩
      exact ⟨(id, node) :: entries, rfl, List.forall_mem_cons.mpr ⟨hnode, hentries⟩⟩

theorem exists_layout_of_walk {ids : List Nat} (h : g.walk = Except.ok ids) :
    exists entries : List (Nat × Node), g.layout = Except.ok entries := by
  have hnodes : forall id : Nat, id ∈ ids -> exists node : Node, g.node? id = some node := by
    intro id hid
    exact exists_node?_of_lt ((mem_iff_reaches_of_walk h id).mp hid).lt_size
  rcases exists_entries hnodes with ⟨entries, rfl, hentries⟩
  exact ⟨entries, layout_eq_ok_iff.mpr ⟨h, hentries⟩⟩

end Graph
end PatternWalk
