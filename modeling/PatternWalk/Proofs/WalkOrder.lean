import PatternWalk.Graph.Gathering
import PatternWalk.Graph.Walked

/-!
# The order of a walk

A walk gathers nodes from the targets of those it has entered: what is pending on its
agenda are, in this order, the targets not looked at yet.  It therefore enters the nodes
of an intact graph in breadth-first order.  In a graph that is not intact it misses the
first target without a node that there is to look at in this order.
-/

namespace PatternWalk

/-!
# Walks under way
-/

/-- A walk has entered the nodes gathered so far in their order, all targets that it has
looked at exist, and the others are pending. -/
structure Search.Gathering (g : Graph) (named seen : List Nat) (search : Search) : Prop where
  gathers : g.Gathers named seen
  order : search.entered.order.reverse = Graph.startId :: named
  ahead : (Graph.startId :: named).flatMap g.targets =
    seen ++ search.agenda.flatMap Scan.pending
  present : forall target : Nat, target ∈ seen -> target < g.size
  scans : forall scan : Scan, scan ∈ search.agenda -> scan.id ∈ search.entered

namespace Search.Gathering

variable {g : Graph} {named seen : List Nat} {search : Search} {entered : Marks}
  {id target : Nat} {node : Node} {pending : List Nat} {rest : List Scan}

theorem mem_entered_iff (h : search.Gathering g named seen) :
    id ∈ search.entered <-> id ∈ Graph.startId :: named := by
  rw [Marks.mem_iff, <- List.mem_reverse, h.order]

theorem present_snoc (h : search.Gathering g named seen) (htarget : target < g.size) :
    forall other : Nat, other ∈ seen ++ [target] -> other < g.size := by
  intro other hother
  rcases List.mem_append.mp hother with hold | hnew
  · exact h.present other hold
  · rw [List.mem_singleton.mp hnew]
    exact htarget

theorem leave (h : Gathering g named seen ⟨entered, ⟨id, []⟩ :: rest⟩) :
    Gathering g named seen ⟨entered, rest⟩ where
  gathers := h.gathers
  order := h.order
  ahead := h.ahead
  present := h.present
  scans scan hscan := h.scans scan (List.mem_cons_of_mem _ hscan)

theorem ahead_cons (h : Gathering g named seen ⟨entered, ⟨id, target :: pending⟩ :: rest⟩) :
    (Graph.startId :: named).flatMap g.targets =
      seen ++ target :: (pending ++ rest.flatMap Scan.pending) :=
  h.ahead

theorem scans_look (h : Gathering g named seen ⟨entered, ⟨id, target :: pending⟩ :: rest⟩) :
    forall scan : Scan, scan ∈ ⟨id, pending⟩ :: rest -> scan.id ∈ entered := by
  intro scan hscan
  rcases List.mem_cons.mp hscan with rfl | hrest
  · exact h.scans ⟨id, target :: pending⟩ List.mem_cons_self
  · exact h.scans scan (List.mem_cons_of_mem _ hrest)

theorem idle (h : Gathering g named seen ⟨entered, ⟨id, target :: pending⟩ :: rest⟩)
    (hidle : target = id ∨ Idle g Plan.walking entered target) :
    Gathering g named (seen ++ [target]) ⟨entered, ⟨id, pending⟩ :: rest⟩ := by
  have hentered : target ∈ entered := by
    rcases hidle with rfl | ⟨node, _, hpass | ⟨_, hmem⟩⟩
    · exact h.scans ⟨target, target :: pending⟩ List.mem_cons_self
    · cases hpass
    · exact hmem
  have hknown := h.mem_entered_iff.mp hentered
  refine ⟨h.gathers.known h.ahead_cons (Or.inl hknown), h.order, ?_,
    h.present_snoc (h.gathers.reaches hknown).lt_size, h.scans_look⟩
  rw [h.ahead_cons, List.append_cons]
  rfl

theorem enter (h : Gathering g named seen ⟨entered, ⟨id, target :: pending⟩ :: rest⟩)
    (hnode : g.node? target = some node) (hnew : ¬ target ∈ entered) :
    Gathering g (named ++ [target]) (seen ++ [target])
      ⟨entered.add target,
        Plan.walking.discipline.place ⟨id, pending⟩ ⟨target, node.targets⟩ rest⟩ := by
  have hlt : target < g.size := Graph.lt_size_of_node? hnode
  have hnamed : ¬ target ∈ Graph.startId :: named := fun hmem => hnew (h.mem_entered_iff.mpr hmem)
  refine ⟨h.gathers.new h.ahead_cons hlt hnamed, ?_, ?_, h.present_snoc hlt, ?_⟩
  · show (target :: entered.order).reverse = _
    have horder : entered.order.reverse = Graph.startId :: named := h.order
    rw [List.reverse_cons, horder]
    rfl
  · show ((Graph.startId :: named) ++ [target]).flatMap g.targets =
      (seen ++ [target]) ++
        (⟨id, pending⟩ :: (rest ++ [⟨target, node.targets⟩])).flatMap Scan.pending
    rw [List.flatMap_append, h.ahead_cons, List.flatMap_singleton, Graph.targets_of_node? hnode,
      List.flatMap_cons, List.flatMap_append, List.flatMap_singleton]
    simp only [List.append_assoc, List.cons_append, List.nil_append]
  · intro scan hscan
    have hplace : scan ∈ Plan.walking.discipline.place ⟨id, pending⟩ ⟨target, node.targets⟩ rest :=
      hscan
    apply Marks.mem_add.mpr
    rcases Discipline.mem_place_iff.mp hplace with rfl | hold
    · exact Or.inl rfl
    · exact Or.inr (h.scans_look scan hold)

/-!
# A whole walk
-/

/-- A walk goes on until it has looked at every target, or at one without a node. -/
theorem run (h : search.Gathering g named seen) :
    exists named seen : List Nat,
      g.Gathers named seen ∧ (forall target : Nat, target ∈ seen -> target < g.size) ∧
        (((search.run g Plan.walking).ending = Ending.exhausted ∧
            (search.run g Plan.walking).entered.order.reverse = Graph.startId :: named ∧
            (Graph.startId :: named).flatMap g.targets = seen) ∨
          exists (target : Nat) (rest : List Nat),
            (search.run g Plan.walking).ending = Ending.missing target ∧
              (Graph.startId :: named).flatMap g.targets = seen ++ target :: rest ∧
              g.size <= target) := by
  induction search using run_induction g Plan.walking generalizing named seen with
  | nil entered =>
      rw [run_nil]
      have hahead := h.ahead
      rw [List.flatMap_nil, List.append_nil] at hahead
      exact ⟨named, seen, h.gathers, h.present, Or.inl ⟨rfl, h.order, hahead⟩⟩
  | leave entered id rest ih =>
      rw [run_leave]
      exact ih h.leave
  | idle entered id target pending rest hidle ih =>
      rw [run_idle hidle]
      exact ih (h.idle hidle)
  | missing entered id target pending rest hne hnode =>
      rw [run_missing hne hnode]
      exact ⟨named, seen, h.gathers, h.present,
        Or.inr ⟨target, _, rfl, h.ahead_cons, Graph.node?_eq_none_iff.mp hnode⟩⟩
  | stop entered id target node pending rest hne hnode hjudge => cases hjudge
  | enter entered id target node pending rest hne hnode hjudge hnew ih =>
      rw [run_enter hne hnode hjudge hnew]
      exact ih (h.enter hnode hnew)

end Search.Gathering

namespace Graph

theorem gathering_walkSearch (g : Graph) : g.walkSearch.Gathering g [] [] where
  gathers := Gathers.start
  order := rfl
  ahead := rfl
  present := nofun
  scans := by
    intro scan hscan
    rw [List.mem_singleton.mp hscan]
    exact Marks.mem_add.mpr (Or.inl rfl)

/-- The first target without a node that there is to look at when going through a row. -/
def firstMissing? (g : Graph) (ids : List Nat) : Option Nat :=
  (ids.flatMap g.targets).find? (fun target => g.size <= target)

variable {g : Graph} {ids named seen rest : List Nat} {target : Nat}

/-- In an intact graph, and only there, going through the nodes in breadth-first order
comes to no target without a node. -/
theorem BreadthFirst.intact_iff (h : g.BreadthFirst ids) :
    g.Intact <-> g.firstMissing? ids = none := by
  unfold firstMissing?
  rw [List.find?_eq_none]
  constructor
  · intro hintact target htarget
    rcases List.mem_flatMap.mp htarget with ⟨id, hid, hlists⟩
    have hlt := hintact id target ((h.mem_iff id).mp hid) hlists
    simpa using hlt
  · intro hpresent id target hid hlists
    have htarget := List.mem_flatMap.mpr ⟨id, (h.mem_iff id).mpr hid, hlists⟩
    simpa using hpresent target htarget

theorem firstMissing?_eq_some
    (hlisted : ids.flatMap g.targets = seen ++ target :: rest)
    (hpresent : forall other : Nat, other ∈ seen -> other < g.size) (htarget : g.size <= target) :
    g.firstMissing? ids = some target := by
  have hseen : seen.find? (fun other => g.size <= other) = none := by
    apply List.find?_eq_none.mpr
    intro other hother
    simpa using hpresent other hother
  unfold firstMissing?
  rw [hlisted, List.find?_append, hseen, Option.none_or, List.find?_cons_of_pos]
  simpa using htarget

theorem firstMissing?_append (h : g.firstMissing? ids = some target) (more : List Nat) :
    g.firstMissing? (ids ++ more) = some target := by
  unfold firstMissing? at h ⊢
  rw [List.flatMap_append, List.find?_append, h, Option.some_or]

/-- A walk of an intact graph names its nodes in breadth-first order, which is the only
order of this kind.  A walk of any other graph fails with the first target without a node
that there is to look at in this order. -/
theorem walk_in_breadthFirst_order (g : Graph) :
    exists ids : List Nat,
      g.BreadthFirst ids ∧ (forall others : List Nat, g.BreadthFirst others -> others = ids) ∧
        (g.Intact -> g.walk = Except.ok ids) ∧
        (¬ g.Intact ->
          exists target : Nat,
            g.firstMissing? ids = some target ∧ g.walk = Except.error ⟨g.size, target⟩) := by
  rcases g.gathering_walkSearch.run with ⟨named, seen, hgathers, hpresent, hending⟩
  rcases hending with ⟨hexhausted, horder, rfl⟩ | ⟨target, rest, hmissing, hlisted, htarget⟩
  · have hbreadth := hgathers.breadthFirst
    have hwalk : g.walk = Except.ok (startId :: named) := by
      unfold walk
      simp only [hexhausted, horder]
    refine ⟨startId :: named, hbreadth, fun _ hothers => hothers.unique hbreadth,
      fun _ => hwalk, fun hbroken => absurd (intact_of_walk hwalk) hbroken⟩
  · have hwalk : g.walk = Except.error ⟨g.size, target⟩ := by
      unfold walk
      simp only [hmissing]
    rcases hgathers.exists_complete with ⟨more, hcomplete⟩
    have hbreadth := hcomplete.breadthFirst
    have hfirst : g.firstMissing? (startId :: (named ++ more)) = some target :=
      firstMissing?_append (firstMissing?_eq_some hlisted hpresent htarget) more
    refine ⟨startId :: (named ++ more), hbreadth, fun _ hothers => hothers.unique hbreadth,
      ?_, fun _ => ⟨target, hfirst, hwalk⟩⟩
    intro hintact
    rw [hbreadth.intact_iff.mp hintact] at hfirst
    cases hfirst

end Graph
end PatternWalk
