import PatternWalk.Graph.Search

/-!
# What a search finds

A search keeps to a set of nodes when it begins in the set and whatever it enters from
a node of the set belongs to the set.  What it ends at is then a target of a node of
the set.  A search that ends of itself has missed nothing: it has looked at every target
of every node it has entered, and none of them was to stop at.
-/

namespace PatternWalk

/-- A set of nodes holds whatever is entered from one of them. -/
def Plan.KeepsTo (plan : Plan) (g : Graph) (inside : Nat -> Prop) : Prop :=
  forall (id target : Nat) (node : Node),
    inside id -> target ∈ g.targets id -> g.node? target = some node ->
      plan.judge node.state = Verdict.enter -> inside target

/-- Everything on the agenda belongs to a set of nodes, and what is pending are targets of
the node they are listed under. -/
def Search.Within (g : Graph) (inside : Nat -> Prop) (search : Search) : Prop :=
  forall scan : Scan, scan ∈ search.agenda ->
    inside scan.id ∧ forall target : Nat, target ∈ scan.pending -> target ∈ g.targets scan.id

structure Finding.Within (g : Graph) (plan : Plan) (inside : Nat -> Prop) (before : Marks)
    (finding : Finding) : Prop where
  entered : forall id : Nat, id ∈ finding.entered -> id ∈ before ∨ inside id
  stopped : forall target : Nat, finding.ending = Ending.stopped target ->
    exists (id : Nat) (node : Node),
      inside id ∧ target ∈ g.targets id ∧ target ≠ id ∧
        g.node? target = some node ∧ plan.judge node.state = Verdict.stop
  missing : forall target : Nat, finding.ending = Ending.missing target ->
    exists id : Nat, inside id ∧ target ∈ g.targets id ∧ g.node? target = none

namespace Search

/-!
# Keeping to a set
-/

namespace Within

variable {g : Graph} {plan : Plan} {inside : Nat -> Prop} {entered : Marks}
  {id target : Nat} {node : Node} {pending : List Nat} {rest : List Scan}

theorem head (h : Within g inside ⟨entered, ⟨id, pending⟩ :: rest⟩) :
    inside id ∧ forall target : Nat, target ∈ pending -> target ∈ g.targets id :=
  h ⟨id, pending⟩ List.mem_cons_self

theorem inside_head (h : Within g inside ⟨entered, ⟨id, target :: pending⟩ :: rest⟩)
    (hclosed : forall id target : Nat, inside id -> target ∈ g.targets id -> inside target) :
    inside target :=
  hclosed id target h.head.left (h.head.right target List.mem_cons_self)

theorem leave (h : Within g inside ⟨entered, ⟨id, []⟩ :: rest⟩) :
    Within g inside ⟨entered, rest⟩ :=
  fun scan hscan => h scan (List.mem_cons_of_mem _ hscan)

theorem pass (h : Within g inside ⟨entered, ⟨id, target :: pending⟩ :: rest⟩) :
    Within g inside ⟨entered, ⟨id, pending⟩ :: rest⟩ := by
  intro scan hscan
  rcases List.mem_cons.mp hscan with rfl | hrest
  · exact ⟨h.head.left, fun other hother => h.head.right other (List.mem_cons_of_mem _ hother)⟩
  · exact h scan (List.mem_cons_of_mem _ hrest)

theorem inside_target (h : Within g inside ⟨entered, ⟨id, target :: pending⟩ :: rest⟩)
    (hkeeps : plan.KeepsTo g inside) (hnode : g.node? target = some node)
    (hjudge : plan.judge node.state = Verdict.enter) : inside target :=
  hkeeps id target node h.head.left (h.head.right target List.mem_cons_self) hnode hjudge

theorem enter (h : Within g inside ⟨entered, ⟨id, target :: pending⟩ :: rest⟩)
    (htarget : inside target) (hnode : g.node? target = some node) :
    Within g inside ⟨entered.add target,
      plan.discipline.place ⟨id, pending⟩ ⟨target, node.targets⟩ rest⟩ := by
  intro scan hscan
  rcases Discipline.mem_place_iff.mp hscan with rfl | hold
  · refine ⟨htarget, fun other hother => ?_⟩
    rw [Graph.targets_of_node? hnode]
    exact hother
  · exact h.pass scan hold

end Within

theorem run_within {g : Graph} {plan : Plan} {inside : Nat -> Prop} {search : Search}
    (hkeeps : plan.KeepsTo g inside) (h : search.Within g inside) :
    (search.run g plan).Within g plan inside search.entered := by
  induction search using run_induction g plan with
  | nil entered =>
      rw [run_nil]
      exact ⟨fun _ => Or.inl, nofun, nofun⟩
  | leave entered id rest ih =>
      rw [run_leave]
      exact ih h.leave
  | idle entered id target pending rest hidle ih =>
      rw [run_idle hidle]
      exact ih h.pass
  | missing entered id target pending rest hne hnode =>
      rw [run_missing hne hnode]
      refine ⟨fun _ => Or.inl, nofun, ?_⟩
      intro other hother
      cases hother
      exact ⟨id, h.head.left, h.head.right target List.mem_cons_self, hnode⟩
  | stop entered id target node pending rest hne hnode hjudge =>
      rw [run_stop hne hnode hjudge]
      refine ⟨fun _ => Or.inl, ?_, nofun⟩
      intro other hother
      cases hother
      exact ⟨id, node, h.head.left, h.head.right target List.mem_cons_self, hne, hnode, hjudge⟩
  | enter entered id target node pending rest hne hnode hjudge hnew ih =>
      rw [run_enter hne hnode hjudge hnew]
      have htarget := h.inside_target hkeeps hnode hjudge
      have hfound := ih (h.enter htarget hnode)
      refine ⟨?_, hfound.stopped, hfound.missing⟩
      intro other hother
      rcases hfound.entered other hother with hmem | hinside
      · rcases Marks.mem_add.mp hmem with rfl | hold
        · exact Or.inr htarget
        · exact Or.inl hold
      · exact Or.inr hinside

/-!
# Searches that end of themselves
-/

/-- Every target of the root and of every entered node has been looked at, or is still to
be looked at. -/
def Covers (g : Graph) (plan : Plan) (root : Nat) (search : Search) : Prop :=
  forall id target : Nat, id = root ∨ id ∈ search.entered -> target ∈ g.targets id ->
    (target = id ∨ Idle g plan search.entered target) ∨
      exists scan : Scan, scan ∈ search.agenda ∧ scan.id = id ∧ target ∈ scan.pending

namespace Covers

variable {g : Graph} {plan : Plan} {root : Nat} {entered : Marks}
  {id target : Nat} {node : Node} {pending : List Nat} {rest : List Scan}

theorem leave (h : Covers g plan root ⟨entered, ⟨id, []⟩ :: rest⟩) :
    Covers g plan root ⟨entered, rest⟩ := by
  intro source other hsource hother
  rcases h source other hsource hother with hidle | ⟨scan, hscan, hid, hpending⟩
  · exact Or.inl hidle
  · rcases List.mem_cons.mp hscan with rfl | hrest
    · cases hpending
    · exact Or.inr ⟨scan, hrest, hid, hpending⟩

theorem idle (h : Covers g plan root ⟨entered, ⟨id, target :: pending⟩ :: rest⟩)
    (hidle : target = id ∨ Idle g plan entered target) :
    Covers g plan root ⟨entered, ⟨id, pending⟩ :: rest⟩ := by
  intro source other hsource hother
  rcases h source other hsource hother with hdone | ⟨scan, hscan, rfl, hpending⟩
  · exact Or.inl hdone
  · rcases List.mem_cons.mp hscan with rfl | hrest
    · rcases List.mem_cons.mp hpending with rfl | hlater
      · exact Or.inl hidle
      · exact Or.inr ⟨⟨id, pending⟩, List.mem_cons_self, rfl, hlater⟩
    · exact Or.inr ⟨scan, List.mem_cons_of_mem _ hrest, rfl, hpending⟩

theorem enter (h : Covers g plan root ⟨entered, ⟨id, target :: pending⟩ :: rest⟩)
    (hnode : g.node? target = some node) (hjudge : plan.judge node.state = Verdict.enter) :
    Covers g plan root ⟨entered.add target,
      plan.discipline.place ⟨id, pending⟩ ⟨target, node.targets⟩ rest⟩ := by
  have htarget : Idle g plan (entered.add target) target := idle_add_self hnode hjudge
  intro source other hsource hother
  by_cases hnewer : source = target
  · subst hnewer
    rw [Graph.targets_of_node? hnode] at hother
    exact Or.inr ⟨_, Discipline.mem_place_iff.mpr (Or.inl rfl), rfl, hother⟩
  · have hold : source = root ∨ source ∈ entered := by
      rcases hsource with hroot | hmem
      · exact Or.inl hroot
      · exact Or.inr ((Marks.mem_add.mp hmem).resolve_left hnewer)
    rcases h source other hold hother with (hself | hidle) | ⟨scan, hscan, rfl, hpending⟩
    · exact Or.inl (Or.inl hself)
    · exact Or.inl (Or.inr (hidle.add target))
    · rcases List.mem_cons.mp hscan with rfl | hrest
      · rcases List.mem_cons.mp hpending with rfl | hlater
        · exact Or.inl (Or.inr htarget)
        · exact Or.inr ⟨⟨id, pending⟩,
            Discipline.mem_place_iff.mpr (Or.inr List.mem_cons_self), rfl, hlater⟩
      · exact Or.inr ⟨scan,
          Discipline.mem_place_iff.mpr (Or.inr (List.mem_cons_of_mem _ hrest)), rfl, hpending⟩

end Covers

theorem mem_entered_run {g : Graph} {plan : Plan} {search : Search} {id : Nat}
    (h : id ∈ search.entered) : id ∈ (search.run g plan).entered := by
  induction search using run_induction g plan with
  | nil entered =>
      rw [run_nil]
      exact h
  | leave entered source rest ih =>
      rw [run_leave]
      exact ih h
  | idle entered source target pending rest hidle ih =>
      rw [run_idle hidle]
      exact ih h
  | missing entered source target pending rest hne hnode =>
      rw [run_missing hne hnode]
      exact h
  | stop entered source target node pending rest hne hnode hjudge =>
      rw [run_stop hne hnode hjudge]
      exact h
  | enter entered source target node pending rest hne hnode hjudge hnew ih =>
      rw [run_enter hne hnode hjudge hnew]
      exact ih (Marks.mem_add.mpr (Or.inr h))

/-- A search that ends of itself leaves no target of an entered node that it would not
pass by now. -/
theorem idle_of_run_exhausted {g : Graph} {plan : Plan} {root : Nat} {search : Search}
    (hcovers : search.Covers g plan root)
    (hending : (search.run g plan).ending = Ending.exhausted) {id target : Nat}
    (hid : id = root ∨ id ∈ (search.run g plan).entered) (htarget : target ∈ g.targets id) :
    target = id ∨ Idle g plan (search.run g plan).entered target := by
  induction search using run_induction g plan with
  | nil entered =>
      rw [run_nil] at hid ⊢
      rcases hcovers id target hid htarget with hdone | ⟨scan, hscan, _⟩
      · exact hdone
      · cases hscan
  | leave entered source rest ih =>
      rw [run_leave] at hending hid ⊢
      exact ih hcovers.leave hending hid
  | idle entered source other pending rest hidle ih =>
      rw [run_idle hidle] at hending hid ⊢
      exact ih (hcovers.idle hidle) hending hid
  | missing entered source other pending rest hne hnode =>
      rw [run_missing hne hnode] at hending
      cases hending
  | stop entered source other node pending rest hne hnode hjudge =>
      rw [run_stop hne hnode hjudge] at hending
      cases hending
  | enter entered source other node pending rest hne hnode hjudge hnew ih =>
      rw [run_enter hne hnode hjudge hnew] at hending hid ⊢
      exact ih (hcovers.enter hnode hjudge) hending hid

end Search

end PatternWalk
