import PatternWalk.Graph.Basic
import PatternWalk.Marks

/-!
# Searching a graph

One search serves every question about a graph.  It keeps an agenda of nodes
whose targets are still being looked at, and a list of the nodes it has entered
already, so that no node is entered twice.  A target that names the node it
stands in is passed by; a target that names no node ends the search.  What else
happens at a target is decided by its state alone.

Searches differ in where an entered node goes on the agenda: at the front, so
that it is looked through before anything else, directly behind the node being
looked at, so that the latest one entered comes next, or at the back, so that
nodes are taken in the order in which they were entered.

The search ends because each step either uses up a target or enters a node for
the first time.
-/

namespace PatternWalk

/-!
# Plans
-/

inductive Verdict where
  | stop
  | enter
  | pass
deriving DecidableEq

inductive Discipline where
  | atOnce
  | latestNext
  | inTurn
deriving DecidableEq

structure Plan where
  discipline : Discipline
  judge : State -> Verdict

/-!
# Searches under way
-/

structure Scan where
  id : Nat
  pending : List Nat
deriving DecidableEq

structure Search where
  entered : Marks
  agenda : List Scan

inductive Ending where
  | stopped (id : Nat)
  | missing (id : Nat)
  | exhausted
deriving DecidableEq

structure Finding where
  entered : Marks
  ending : Ending

def Discipline.place (discipline : Discipline) (scan new : Scan) (rest : List Scan) :
    List Scan :=
  match discipline with
  | atOnce => new :: scan :: rest
  | latestNext => scan :: new :: rest
  | inTurn => scan :: (rest ++ [new])

theorem Discipline.mem_place_iff {discipline : Discipline} {scan new other : Scan}
    {rest : List Scan} :
    other ∈ discipline.place scan new rest <-> other = new ∨ other ∈ scan :: rest := by
  cases discipline with
  | atOnce => exact List.mem_cons
  | latestNext =>
      simp only [place, List.mem_cons]
      exact or_left_comm
  | inTurn =>
      simp only [place, List.mem_cons, List.mem_append, List.mem_nil_iff, or_false]
      rw [<- or_assoc, or_comm]

theorem Discipline.length_place (discipline : Discipline) (scan new : Scan) (rest : List Scan) :
    (discipline.place scan new rest).length = (scan :: rest).length + 1 := by
  cases discipline with
  | atOnce => rfl
  | latestNext => rfl
  | inTurn =>
      rw [place, List.length_cons, List.length_append, List.length_singleton, List.length_cons]

namespace Search

/-!
# One step
-/

def step (g : Graph) (plan : Plan) (search : Search) : Finding ⊕ Search :=
  match search.agenda with
  | [] => Sum.inl ⟨search.entered, Ending.exhausted⟩
  | ⟨_, []⟩ :: rest => Sum.inr ⟨search.entered, rest⟩
  | ⟨id, target :: pending⟩ :: rest =>
      if target = id then
        Sum.inr ⟨search.entered, ⟨id, pending⟩ :: rest⟩
      else
        match g.node? target with
        | none => Sum.inl ⟨search.entered, Ending.missing target⟩
        | some node =>
            match plan.judge node.state with
            | Verdict.stop => Sum.inl ⟨search.entered, Ending.stopped target⟩
            | Verdict.pass => Sum.inr ⟨search.entered, ⟨id, pending⟩ :: rest⟩
            | Verdict.enter =>
                if target ∈ search.entered then
                  Sum.inr ⟨search.entered, ⟨id, pending⟩ :: rest⟩
                else
                  Sum.inr
                    ⟨search.entered.add target,
                      plan.discipline.place ⟨id, pending⟩ ⟨target, node.targets⟩ rest⟩

/-!
# The steps that are left

A node not yet entered counts for the work of entering it and looking through
it; a node on the agenda counts for its pending targets and for leaving it.
-/

def planned : List Scan -> Nat
  | [] => 0
  | scan :: rest => scan.pending.length + 1 + planned rest

def unentered (g : Graph) (entered : Marks) : List Nat -> Nat
  | [] => 0
  | id :: rest =>
      (if id ∈ entered then 0 else (g.targets id).length + 1) + unentered g entered rest

def work (g : Graph) (search : Search) : Nat :=
  unentered g search.entered (List.range g.size) + planned search.agenda

theorem planned_append (agenda rest : List Scan) :
    planned (agenda ++ rest) = planned agenda + planned rest := by
  induction agenda with
  | nil => simp [planned]
  | cons scan agenda ih =>
      simp only [List.cons_append, planned, ih]
      omega

theorem planned_place (discipline : Discipline) (scan new : Scan) (rest : List Scan) :
    planned (discipline.place scan new rest) =
      planned (scan :: rest) + (new.pending.length + 1) := by
  cases discipline with
  | atOnce =>
      simp only [Discipline.place, planned]
      omega
  | latestNext =>
      simp only [Discipline.place, planned]
      omega
  | inTurn =>
      simp only [Discipline.place, planned, planned_append]
      omega

theorem unentered_add_le (g : Graph) (entered : Marks) (id : Nat) (ids : List Nat) :
    unentered g (entered.add id) ids <= unentered g entered ids := by
  induction ids with
  | nil => exact Nat.le_refl _
  | cons other rest ih =>
      have hshare :
          (if other ∈ entered.add id then 0 else (g.targets other).length + 1) <=
            (if other ∈ entered then 0 else (g.targets other).length + 1) := by
        by_cases hmem : other ∈ entered
        · apply Nat.le_of_eq
          rw [if_pos hmem, if_pos (Marks.mem_add.mpr (Or.inr hmem))]
        · rw [if_neg hmem]
          split
          · exact Nat.zero_le _
          · exact Nat.le_refl _
      exact Nat.add_le_add hshare ih

theorem unentered_add_lt {g : Graph} {entered : Marks} {id : Nat} {ids : List Nat}
    (hmem : id ∈ ids) (hnew : ¬ id ∈ entered) :
    unentered g (entered.add id) ids + (g.targets id).length <
      unentered g entered ids := by
  induction ids with
  | nil => cases hmem
  | cons other rest ih =>
      by_cases hid : id = other
      · subst hid
        have hrest := unentered_add_le g entered id rest
        have hadded : id ∈ entered.add id := Marks.mem_add.mpr (Or.inl rfl)
        simp only [unentered, if_neg hnew, if_pos hadded]
        omega
      · have hrest := ih (List.mem_of_ne_of_mem hid hmem)
        have hother : other ∈ entered.add id <-> other ∈ entered := by
          rw [Marks.mem_add]
          exact or_iff_right (fun h => hid h.symm)
        simp only [unentered, hother]
        omega

theorem work_lt_of_step {g : Graph} {plan : Plan} {search next : Search}
    (h : search.step g plan = Sum.inr next) : next.work g < search.work g := by
  rcases search with ⟨entered, _ | ⟨⟨id, _ | ⟨target, pending⟩⟩, rest⟩⟩
  · cases h
  · cases h
    simp only [work, planned]
    omega
  · have hpass :
        work g ⟨entered, ⟨id, pending⟩ :: rest⟩ <
          work g ⟨entered, ⟨id, target :: pending⟩ :: rest⟩ := by
      simp only [work, planned, List.length_cons]
      omega
    simp only [step] at h
    split at h
    · cases h
      exact hpass
    · split at h
      · cases h
      · rename_i node hnode
        split at h
        · cases h
        · cases h
          exact hpass
        · split at h
          · cases h
            exact hpass
          · rename_i hnew
            cases h
            have hrange : target ∈ List.range g.size :=
              List.mem_range.mpr (Graph.lt_size_of_node? hnode)
            have hentered := unentered_add_lt (g := g) hrange hnew
            rw [Graph.targets_of_node? hnode] at hentered
            simp only [work, planned_place, planned, List.length_cons]
            omega

/-!
# The whole search
-/

def run (g : Graph) (plan : Plan) (search : Search) : Finding :=
  match _h : search.step g plan with
  | Sum.inl finding => finding
  | Sum.inr next => next.run g plan
termination_by search.work g
decreasing_by exact work_lt_of_step _h

theorem run_of_step_inl {g : Graph} {plan : Plan} {search : Search} {finding : Finding}
    (h : search.step g plan = Sum.inl finding) : search.run g plan = finding := by
  rw [run]
  split <;> simp_all

theorem run_of_step_inr {g : Graph} {plan : Plan} {search next : Search}
    (h : search.step g plan = Sum.inr next) :
    search.run g plan = next.run g plan := by
  rw [run]
  split <;> simp_all

/-!
# What a search does next
-/

/-- Nothing comes of looking at a target: it is passed by, or it has been entered
already. -/
def Idle (g : Graph) (plan : Plan) (entered : Marks) (target : Nat) : Prop :=
  exists node : Node,
    g.node? target = some node ∧
      (plan.judge node.state = Verdict.pass ∨
        (plan.judge node.state = Verdict.enter ∧ target ∈ entered))

section Next

variable {g : Graph} {plan : Plan} {entered : Marks} {id target : Nat} {node : Node}
  {pending : List Nat} {rest : List Scan}

theorem Idle.add (h : Idle g plan entered target) (other : Nat) :
    Idle g plan (entered.add other) target := by
  rcases h with ⟨node, hnode, hpass | ⟨henter, hmem⟩⟩
  · exact ⟨node, hnode, Or.inl hpass⟩
  · exact ⟨node, hnode, Or.inr ⟨henter, Marks.mem_add.mpr (Or.inr hmem)⟩⟩

theorem idle_add_self (hnode : g.node? target = some node)
    (hjudge : plan.judge node.state = Verdict.enter) :
    Idle g plan (entered.add target) target :=
  ⟨node, hnode, Or.inr ⟨hjudge, Marks.mem_add.mpr (Or.inl rfl)⟩⟩

theorem not_idle_of_missing (hnode : g.node? target = none) :
    ¬ Idle g plan entered target := by
  intro h
  rcases h with ⟨node, hsame, _⟩
  rw [hnode] at hsame
  cases hsame

theorem not_idle_of_stop (hnode : g.node? target = some node)
    (hjudge : plan.judge node.state = Verdict.stop) : ¬ Idle g plan entered target := by
  intro h
  rcases h with ⟨other, hother, hidle⟩
  rw [hnode] at hother
  cases hother
  rw [hjudge] at hidle
  rcases hidle with hpass | ⟨henter, _⟩
  · cases hpass
  · cases henter

theorem not_idle_of_new (hnode : g.node? target = some node)
    (hjudge : plan.judge node.state = Verdict.enter) (hnew : ¬ target ∈ entered) :
    ¬ Idle g plan entered target := by
  intro h
  rcases h with ⟨other, hother, hidle⟩
  rw [hnode] at hother
  cases hother
  rw [hjudge] at hidle
  rcases hidle with hpass | ⟨_, hmem⟩
  · cases hpass
  · exact hnew hmem

theorem step_idle (hidle : target = id ∨ Idle g plan entered target) :
    step g plan ⟨entered, ⟨id, target :: pending⟩ :: rest⟩ =
      Sum.inr ⟨entered, ⟨id, pending⟩ :: rest⟩ := by
  by_cases hself : target = id
  · simp only [step, if_pos hself]
  · rcases hidle.resolve_left hself with ⟨node, hnode, hpass | ⟨henter, hmem⟩⟩
    · simp only [step, if_neg hself, hnode, hpass]
    · simp only [step, if_neg hself, hnode, henter, if_pos hmem]

theorem step_enter (hne : target ≠ id) (hnode : g.node? target = some node)
    (hjudge : plan.judge node.state = Verdict.enter) (hnew : ¬ target ∈ entered) :
    step g plan ⟨entered, ⟨id, target :: pending⟩ :: rest⟩ =
      Sum.inr ⟨entered.add target,
        plan.discipline.place ⟨id, pending⟩ ⟨target, node.targets⟩ rest⟩ := by
  simp only [step, if_neg hne, hnode, hjudge, if_neg hnew]

theorem step_missing (hne : target ≠ id) (hnode : g.node? target = none) :
    step g plan ⟨entered, ⟨id, target :: pending⟩ :: rest⟩ =
      Sum.inl ⟨entered, Ending.missing target⟩ := by
  simp only [step, if_neg hne, hnode]

theorem step_stop (hne : target ≠ id) (hnode : g.node? target = some node)
    (hjudge : plan.judge node.state = Verdict.stop) :
    step g plan ⟨entered, ⟨id, target :: pending⟩ :: rest⟩ =
      Sum.inl ⟨entered, Ending.stopped target⟩ := by
  simp only [step, if_neg hne, hnode, hjudge]

theorem run_nil : run g plan ⟨entered, []⟩ = ⟨entered, Ending.exhausted⟩ :=
  run_of_step_inl rfl

theorem run_leave : run g plan ⟨entered, ⟨id, []⟩ :: rest⟩ = run g plan ⟨entered, rest⟩ :=
  run_of_step_inr rfl

theorem run_idle (hidle : target = id ∨ Idle g plan entered target) :
    run g plan ⟨entered, ⟨id, target :: pending⟩ :: rest⟩ =
      run g plan ⟨entered, ⟨id, pending⟩ :: rest⟩ :=
  run_of_step_inr (step_idle hidle)

theorem run_self :
    run g plan ⟨entered, ⟨id, id :: pending⟩ :: rest⟩ =
      run g plan ⟨entered, ⟨id, pending⟩ :: rest⟩ :=
  run_idle (Or.inl rfl)

theorem run_pass (hnode : g.node? target = some node)
    (hjudge : plan.judge node.state = Verdict.pass) :
    run g plan ⟨entered, ⟨id, target :: pending⟩ :: rest⟩ =
      run g plan ⟨entered, ⟨id, pending⟩ :: rest⟩ :=
  run_idle (Or.inr ⟨node, hnode, Or.inl hjudge⟩)

theorem run_missing (hne : target ≠ id) (hnode : g.node? target = none) :
    run g plan ⟨entered, ⟨id, target :: pending⟩ :: rest⟩ =
      ⟨entered, Ending.missing target⟩ :=
  run_of_step_inl (step_missing hne hnode)

theorem run_stop (hne : target ≠ id) (hnode : g.node? target = some node)
    (hjudge : plan.judge node.state = Verdict.stop) :
    run g plan ⟨entered, ⟨id, target :: pending⟩ :: rest⟩ =
      ⟨entered, Ending.stopped target⟩ :=
  run_of_step_inl (step_stop hne hnode hjudge)

theorem run_enter (hne : target ≠ id) (hnode : g.node? target = some node)
    (hjudge : plan.judge node.state = Verdict.enter) (hnew : ¬ target ∈ entered) :
    run g plan ⟨entered, ⟨id, target :: pending⟩ :: rest⟩ =
      run g plan ⟨entered.add target,
        plan.discipline.place ⟨id, pending⟩ ⟨target, node.targets⟩ rest⟩ :=
  run_of_step_inr (step_enter hne hnode hjudge hnew)

end Next

/-- The six things that a search can do next: it has nothing left to do, it leaves a node,
it passes a target by, it misses a node, it stops at one, or it enters one. -/
inductive Does (g : Graph) (plan : Plan) : Search -> Finding ⊕ Search -> Prop where
  | nil (entered : Marks) :
      Does g plan ⟨entered, []⟩ (Sum.inl ⟨entered, Ending.exhausted⟩)
  | leave (entered : Marks) (id : Nat) (rest : List Scan) :
      Does g plan ⟨entered, ⟨id, []⟩ :: rest⟩ (Sum.inr ⟨entered, rest⟩)
  | idle (entered : Marks) (id target : Nat) (pending : List Nat) (rest : List Scan) :
      target = id ∨ Idle g plan entered target ->
        Does g plan ⟨entered, ⟨id, target :: pending⟩ :: rest⟩
          (Sum.inr ⟨entered, ⟨id, pending⟩ :: rest⟩)
  | missing (entered : Marks) (id target : Nat) (pending : List Nat) (rest : List Scan) :
      target ≠ id -> g.node? target = none ->
        Does g plan ⟨entered, ⟨id, target :: pending⟩ :: rest⟩
          (Sum.inl ⟨entered, Ending.missing target⟩)
  | stop (entered : Marks) (id target : Nat) (node : Node) (pending : List Nat)
      (rest : List Scan) :
      target ≠ id -> g.node? target = some node -> plan.judge node.state = Verdict.stop ->
        Does g plan ⟨entered, ⟨id, target :: pending⟩ :: rest⟩
          (Sum.inl ⟨entered, Ending.stopped target⟩)
  | enter (entered : Marks) (id target : Nat) (node : Node) (pending : List Nat)
      (rest : List Scan) :
      target ≠ id -> g.node? target = some node -> plan.judge node.state = Verdict.enter ->
        ¬ target ∈ entered ->
          Does g plan ⟨entered, ⟨id, target :: pending⟩ :: rest⟩
            (Sum.inr ⟨entered.add target,
              plan.discipline.place ⟨id, pending⟩ ⟨target, node.targets⟩ rest⟩)

theorem does_step (g : Graph) (plan : Plan) (search : Search) :
    Does g plan search (search.step g plan) := by
  rcases search with ⟨entered, _ | ⟨⟨id, _ | ⟨target, pending⟩⟩, rest⟩⟩
  · exact Does.nil entered
  · exact Does.leave entered id rest
  · by_cases hidle : target = id ∨ Idle g plan entered target
    · rw [step_idle hidle]
      exact Does.idle entered id target pending rest hidle
    · have hne : target ≠ id := fun h => hidle (Or.inl h)
      cases hnode : g.node? target with
      | none =>
          rw [step_missing hne hnode]
          exact Does.missing entered id target pending rest hne hnode
      | some node =>
          cases hjudge : plan.judge node.state with
          | stop =>
              rw [step_stop hne hnode hjudge]
              exact Does.stop entered id target node pending rest hne hnode hjudge
          | pass => exact absurd (Or.inr ⟨node, hnode, Or.inl hjudge⟩) hidle
          | enter =>
              have hnew : ¬ target ∈ entered := fun hmem =>
                hidle (Or.inr ⟨node, hnode, Or.inr ⟨hjudge, hmem⟩⟩)
              rw [step_enter hne hnode hjudge hnew]
              exact Does.enter entered id target node pending rest hne hnode hjudge hnew

/-- What holds of a search holds of every search, once each of the six things a
search can do next is accounted for. -/
theorem run_induction {motive : Search -> Prop} (g : Graph) (plan : Plan)
    (nil : forall entered : Marks, motive ⟨entered, []⟩)
    (leave : forall (entered : Marks) (id : Nat) (rest : List Scan),
      motive ⟨entered, rest⟩ -> motive ⟨entered, ⟨id, []⟩ :: rest⟩)
    (idle : forall (entered : Marks) (id target : Nat) (pending : List Nat) (rest : List Scan),
      target = id ∨ Idle g plan entered target ->
        motive ⟨entered, ⟨id, pending⟩ :: rest⟩ ->
          motive ⟨entered, ⟨id, target :: pending⟩ :: rest⟩)
    (missing : forall (entered : Marks) (id target : Nat) (pending : List Nat)
      (rest : List Scan),
      target ≠ id -> g.node? target = none ->
        motive ⟨entered, ⟨id, target :: pending⟩ :: rest⟩)
    (stop : forall (entered : Marks) (id target : Nat) (node : Node) (pending : List Nat)
      (rest : List Scan),
      target ≠ id -> g.node? target = some node -> plan.judge node.state = Verdict.stop ->
        motive ⟨entered, ⟨id, target :: pending⟩ :: rest⟩)
    (enter : forall (entered : Marks) (id target : Nat) (node : Node) (pending : List Nat)
      (rest : List Scan),
      target ≠ id -> g.node? target = some node -> plan.judge node.state = Verdict.enter ->
        ¬ target ∈ entered ->
          motive ⟨entered.add target,
            plan.discipline.place ⟨id, pending⟩ ⟨target, node.targets⟩ rest⟩ ->
            motive ⟨entered, ⟨id, target :: pending⟩ :: rest⟩)
    (search : Search) : motive search := by
  induction hwork : search.work g using Nat.strongRecOn generalizing search with
  | ind n ih =>
      have hnext : forall next : Search,
          search.step g plan = Sum.inr next -> motive next := by
        intro next hstep
        have hlt := work_lt_of_step hstep
        rw [hwork] at hlt
        exact ih _ hlt next rfl
      have hdoes := does_step g plan search
      generalize search.step g plan = result at hdoes hnext
      cases hdoes with
      | nil entered => exact nil entered
      | leave entered id rest => exact leave entered id rest (hnext _ rfl)
      | idle entered id target pending rest hidle =>
          exact idle entered id target pending rest hidle (hnext _ rfl)
      | missing entered id target pending rest hne hnode =>
          exact missing entered id target pending rest hne hnode
      | stop entered id target node pending rest hne hnode hjudge =>
          exact stop entered id target node pending rest hne hnode hjudge
      | enter entered id target node pending rest hne hnode hjudge hnew =>
          exact enter entered id target node pending rest hne hnode hjudge hnew (hnext _ rfl)

end Search

end PatternWalk
