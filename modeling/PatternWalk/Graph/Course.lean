import PatternWalk.Graph.Finding

/-!
# The course of a search

A search goes from stage to stage until it ends.  Along the way its agenda grows by the nodes
that are entered, and shrinks by those that are left.  How often it grows and how often
another node is taken from it can be counted.

Where an entered node is looked through at once, the agenda is a stack of calls: to enter a
node is to call for it to be looked through, with the marks made so far, and whoever called
goes on with the marks that the call leaves.
-/

namespace PatternWalk
namespace Search

def steps (g : Graph) (plan : Plan) (search : Search) : List (Search × Search) :=
  match _h : search.step g plan with
  | Sum.inl _ => []
  | Sum.inr next => (search, next) :: next.steps g plan
termination_by search.work g
decreasing_by exact work_lt_of_step _h

/-- The search itself and all that its steps lead to. -/
def stages (g : Graph) (plan : Plan) (search : Search) : List Search :=
  search :: (search.steps g plan).map Prod.snd

/-- How often a node is put on the agenda. -/
def calls (g : Graph) (plan : Plan) (search : Search) : Nat :=
  (search.steps g plan).countP (fun (before, after) =>
    before.agenda.length < after.agenda.length)

/-- How many nodes are taken from the agenda to be looked at: the first one, and the next one
whenever a node is left. -/
def pops (g : Graph) (plan : Plan) (search : Search) : Nat :=
  min 1 search.agenda.length +
    (search.steps g plan).countP (fun (before, after) =>
      after.agenda.length < before.agenda.length ∧ 0 < after.agenda.length)

section Stages

variable {g : Graph} {plan : Plan} {search next : Search} {finding : Finding}

theorem steps_of_step_inl (h : search.step g plan = Sum.inl finding) :
    search.steps g plan = [] := by
  rw [steps]
  split <;> simp_all

theorem steps_of_step_inr (h : search.step g plan = Sum.inr next) :
    search.steps g plan = (search, next) :: next.steps g plan := by
  rw [steps]
  split <;> simp_all

theorem stages_of_step_inl (h : search.step g plan = Sum.inl finding) :
    search.stages g plan = [search] := by
  rw [stages, steps_of_step_inl h, List.map_nil]

theorem stages_of_step_inr (h : search.step g plan = Sum.inr next) :
    search.stages g plan = search :: next.stages g plan := by
  rw [stages, steps_of_step_inr h, List.map_cons, stages]

/-- What each step preserves holds of all stages. -/
theorem forall_mem_stages {motive : Search -> Prop}
    (hstep : forall search next : Search,
      search.step g plan = Sum.inr next -> motive search -> motive next)
    (h : motive search) : forall stage : Search, stage ∈ search.stages g plan -> motive stage := by
  induction search using steps.induct g plan with
  | case1 search finding hresult =>
      intro stage hstage
      rw [stages_of_step_inl hresult, List.mem_singleton] at hstage
      rw [hstage]
      exact h
  | case2 search next hresult ih =>
      intro stage hstage
      rw [stages_of_step_inr hresult] at hstage
      rcases List.mem_cons.mp hstage with rfl | hlater
      · exact h
      · exact ih (hstep search next hresult h) stage hlater

theorem exists_last_stage (g : Graph) (plan : Plan) (search : Search) :
    exists last : Search,
      (search.stages g plan).getLast? = some last ∧
        last.step g plan = Sum.inl (search.run g plan) := by
  induction search using steps.induct g plan with
  | case1 search finding hresult =>
      exists search
      constructor
      · rw [stages_of_step_inl hresult, List.getLast?_singleton]
      · rw [hresult, run_of_step_inl hresult]
  | case2 search next hresult ih =>
      rcases ih with ⟨last, hlast, hend⟩
      exists last
      constructor
      · rw [stages_of_step_inr hresult, List.getLast?_cons, hlast, Option.getD_some]
      · rw [run_of_step_inr hresult]
        exact hend

/-!
# Counting
-/

theorem calls_of_step_inl (h : search.step g plan = Sum.inl finding) :
    search.calls g plan = 0 := by
  rw [calls, steps_of_step_inl h, List.countP_nil]

theorem calls_of_step_inr (h : search.step g plan = Sum.inr next) :
    search.calls g plan =
      next.calls g plan + if search.agenda.length < next.agenda.length then 1 else 0 := by
  simp only [calls, steps_of_step_inr h, List.countP_cons, decide_eq_true_eq]

theorem calls_of_le (h : search.step g plan = Sum.inr next)
    (hle : next.agenda.length <= search.agenda.length) :
    search.calls g plan = next.calls g plan := by
  rw [calls_of_step_inr h, if_neg (Nat.not_lt.mpr hle), Nat.add_zero]

theorem pops_of_step_inl (h : search.step g plan = Sum.inl finding) :
    search.pops g plan = min 1 search.agenda.length := by
  rw [pops, steps_of_step_inl h, List.countP_nil, Nat.add_zero]

theorem pops_of_le (h : search.step g plan = Sum.inr next) (hpos : 0 < search.agenda.length)
    (hle : search.agenda.length <= next.agenda.length) :
    search.pops g plan = next.pops g plan := by
  have hkept : ¬ (next.agenda.length < search.agenda.length ∧ 0 < next.agenda.length) :=
    fun hshrunk => Nat.not_lt.mpr hle hshrunk.left
  simp only [pops, steps_of_step_inr h, List.countP_cons, decide_eq_true_eq, if_neg hkept]
  omega

end Stages

section Counting

variable {g : Graph} {plan : Plan} {entered : Marks} {id target : Nat} {node : Node}
  {pending : List Nat} {rest : List Scan}

theorem calls_nil : calls g plan ⟨entered, []⟩ = 0 :=
  calls_of_step_inl rfl

theorem calls_leave : calls g plan ⟨entered, ⟨id, []⟩ :: rest⟩ = calls g plan ⟨entered, rest⟩ :=
  calls_of_le rfl (Nat.le_succ _)

theorem calls_idle (hidle : target = id ∨ Idle g plan entered target) :
    calls g plan ⟨entered, ⟨id, target :: pending⟩ :: rest⟩ =
      calls g plan ⟨entered, ⟨id, pending⟩ :: rest⟩ :=
  calls_of_le (step_idle hidle) (Nat.le_refl _)

theorem calls_missing (hne : target ≠ id) (hnode : g.node? target = none) :
    calls g plan ⟨entered, ⟨id, target :: pending⟩ :: rest⟩ = 0 :=
  calls_of_step_inl (step_missing hne hnode)

theorem calls_stop (hne : target ≠ id) (hnode : g.node? target = some node)
    (hjudge : plan.judge node.state = Verdict.stop) :
    calls g plan ⟨entered, ⟨id, target :: pending⟩ :: rest⟩ = 0 :=
  calls_of_step_inl (step_stop hne hnode hjudge)

theorem calls_enter (hne : target ≠ id) (hnode : g.node? target = some node)
    (hjudge : plan.judge node.state = Verdict.enter) (hnew : ¬ target ∈ entered) :
    calls g plan ⟨entered, ⟨id, target :: pending⟩ :: rest⟩ =
      calls g plan ⟨entered.add target,
        plan.discipline.place ⟨id, pending⟩ ⟨target, node.targets⟩ rest⟩ + 1 := by
  have hgrown : (Scan.mk id (target :: pending) :: rest).length <
      (plan.discipline.place ⟨id, pending⟩ ⟨target, node.targets⟩ rest).length := by
    rw [Discipline.length_place]
    exact Nat.lt_succ_self _
  rw [calls_of_step_inr (step_enter hne hnode hjudge hnew), if_pos hgrown]

theorem pops_leave :
    pops g plan ⟨entered, ⟨id, []⟩ :: rest⟩ = pops g plan ⟨entered, rest⟩ + 1 := by
  have hstep : step g plan ⟨entered, ⟨id, []⟩ :: rest⟩ = Sum.inr ⟨entered, rest⟩ := rfl
  simp only [pops, steps_of_step_inr hstep, List.countP_cons, decide_eq_true_eq,
    List.length_cons]
  split <;> omega

end Counting

theorem length_entered_run (g : Graph) (plan : Plan) (search : Search) :
    (search.run g plan).entered.order.length =
      search.entered.order.length + search.calls g plan := by
  induction search using run_induction g plan with
  | nil entered => rw [run_nil, calls_nil, Nat.add_zero]
  | leave entered id rest ih =>
      rw [run_leave, calls_leave]
      exact ih
  | idle entered id target pending rest hidle ih =>
      rw [run_idle hidle, calls_idle hidle]
      exact ih
  | missing entered id target pending rest hne hnode =>
      rw [run_missing hne hnode, calls_missing hne hnode, Nat.add_zero]
  | stop entered id target node pending rest hne hnode hjudge =>
      rw [run_stop hne hnode hjudge, calls_stop hne hnode hjudge, Nat.add_zero]
  | enter entered id target node pending rest hne hnode hjudge hnew ih =>
      rw [run_enter hne hnode hjudge hnew, calls_enter hne hnode hjudge hnew, ih]
      exact Nat.add_right_comm _ 1 _

theorem pops_le (g : Graph) (plan : Plan) (search : Search) :
    search.pops g plan <= search.agenda.length + search.calls g plan := by
  induction search using run_induction g plan with
  | nil entered =>
      rw [pops_of_step_inl rfl]
      exact Nat.zero_le _
  | leave entered id rest ih =>
      rw [pops_leave, calls_leave]
      simp only [List.length_cons] at ih ⊢
      omega
  | idle entered id target pending rest hidle ih =>
      rw [pops_of_le (step_idle hidle) (Nat.succ_pos _) (Nat.le_refl _), calls_idle hidle]
      exact ih
  | missing entered id target pending rest hne hnode =>
      rw [pops_of_step_inl (step_missing hne hnode)]
      omega
  | stop entered id target node pending rest hne hnode hjudge =>
      rw [pops_of_step_inl (step_stop hne hnode hjudge)]
      omega
  | enter entered id target node pending rest hne hnode hjudge hnew ih =>
      have hlength := plan.discipline.length_place ⟨id, pending⟩ ⟨target, node.targets⟩ rest
      rw [pops_of_le (step_enter hne hnode hjudge hnew) (Nat.succ_pos _)
        (hlength ▸ Nat.le_succ _), calls_enter hne hnode hjudge hnew]
      simp only [hlength, List.length_cons] at ih ⊢
      omega

/-!
# Nested calls
-/

/-- A call looks at the pending targets of a node one after the other, and calls for each node
that it enters to be looked through before the next target.  What a call finds ends the call
that made it, and otherwise that one goes on with the marks it gets back. -/
inductive Nested (g : Graph) (plan : Plan) : Marks -> Nat -> List Nat -> Finding -> Nat -> Prop where
  | nil (entered : Marks) (id : Nat) :
      Nested g plan entered id [] ⟨entered, Ending.exhausted⟩ 0
  | idle {entered : Marks} {id target n : Nat} {pending : List Nat} {finding : Finding} :
      target = id ∨ Idle g plan entered target -> Nested g plan entered id pending finding n ->
        Nested g plan entered id (target :: pending) finding n
  | missing {id target : Nat} (entered : Marks) (pending : List Nat) :
      target ≠ id -> g.node? target = none ->
        Nested g plan entered id (target :: pending) ⟨entered, Ending.missing target⟩ 0
  | stop {id target : Nat} {node : Node} (entered : Marks) (pending : List Nat) :
      target ≠ id -> g.node? target = some node -> plan.judge node.state = Verdict.stop ->
        Nested g plan entered id (target :: pending) ⟨entered, Ending.stopped target⟩ 0
  | found {entered : Marks} {id target n : Nat} {node : Node} {finding : Finding}
      (pending : List Nat) :
      target ≠ id -> g.node? target = some node -> plan.judge node.state = Verdict.enter ->
        ¬ target ∈ entered -> Nested g plan (entered.add target) target node.targets finding n ->
          finding.ending ≠ Ending.exhausted ->
            Nested g plan entered id (target :: pending) finding (n + 1)
  | back {entered marks : Marks} {id target n m : Nat} {node : Node} {pending : List Nat}
      {finding : Finding} :
      target ≠ id -> g.node? target = some node -> plan.judge node.state = Verdict.enter ->
        ¬ target ∈ entered ->
          Nested g plan (entered.add target) target node.targets ⟨marks, Ending.exhausted⟩ n ->
            Nested g plan marks id pending finding m ->
              Nested g plan entered id (target :: pending) finding (n + m + 1)

/-- A stack of calls is worked off from the top, until one of them finds something. -/
inductive Unwinds (g : Graph) (plan : Plan) : Marks -> List Scan -> Finding -> Nat -> Prop where
  | nil (entered : Marks) : Unwinds g plan entered [] ⟨entered, Ending.exhausted⟩ 0
  | found {entered : Marks} {id n : Nat} {pending : List Nat} {finding : Finding}
      (rest : List Scan) :
      Nested g plan entered id pending finding n -> finding.ending ≠ Ending.exhausted ->
        Unwinds g plan entered (⟨id, pending⟩ :: rest) finding n
  | back {entered marks : Marks} {id n m : Nat} {pending : List Nat} {rest : List Scan}
      {finding : Finding} :
      Nested g plan entered id pending ⟨marks, Ending.exhausted⟩ n ->
        Unwinds g plan marks rest finding m ->
          Unwinds g plan entered (⟨id, pending⟩ :: rest) finding (n + m)

namespace Unwinds

variable {g : Graph} {plan : Plan} {entered : Marks} {id target n : Nat} {node : Node}
  {pending : List Nat} {rest : List Scan} {finding : Finding}

theorem idle (hidle : target = id ∨ Idle g plan entered target)
    (h : Unwinds g plan entered (⟨id, pending⟩ :: rest) finding n) :
    Unwinds g plan entered (⟨id, target :: pending⟩ :: rest) finding n := by
  cases h with
  | found _ hcall hfound => exact Unwinds.found rest (Nested.idle hidle hcall) hfound
  | back hcall hrest => exact Unwinds.back (Nested.idle hidle hcall) hrest

theorem enter (hne : target ≠ id) (hnode : g.node? target = some node)
    (hjudge : plan.judge node.state = Verdict.enter) (hnew : ¬ target ∈ entered)
    (h : Unwinds g plan (entered.add target) (⟨target, node.targets⟩ :: ⟨id, pending⟩ :: rest)
      finding n) :
    Unwinds g plan entered (⟨id, target :: pending⟩ :: rest) finding (n + 1) := by
  cases h with
  | found _ hcall hfound =>
      exact Unwinds.found rest (Nested.found pending hne hnode hjudge hnew hcall hfound) hfound
  | @back _ _ _ k _ _ _ _ hcall hcaller =>
      cases hcaller with
      | found _ hlater hfound =>
          exact Unwinds.found rest (Nested.back hne hnode hjudge hnew hcall hlater) hfound
      | @back _ _ _ l m _ _ _ hlater hrest =>
          have hcount : k + (l + m) + 1 = k + l + 1 + m := by omega
          rw [hcount]
          exact Unwinds.back (Nested.back hne hnode hjudge hnew hcall hlater) hrest

end Unwinds

/-- Where an entered node is looked through at once, a search works off its agenda as a stack
of nested calls. -/
theorem unwinds_run {g : Graph} {plan : Plan} (hplan : plan.discipline = Discipline.atOnce)
    (search : Search) :
    Unwinds g plan search.entered search.agenda (search.run g plan) (search.calls g plan) := by
  induction search using run_induction g plan with
  | nil entered =>
      rw [run_nil, calls_nil]
      exact Unwinds.nil entered
  | leave entered id rest ih =>
      rw [run_leave, calls_leave, <- Nat.zero_add (calls g plan _)]
      exact Unwinds.back (Nested.nil entered id) ih
  | idle entered id target pending rest hidle ih =>
      rw [run_idle hidle, calls_idle hidle]
      exact ih.idle hidle
  | missing entered id target pending rest hne hnode =>
      rw [run_missing hne hnode, calls_missing hne hnode]
      exact Unwinds.found rest (Nested.missing entered pending hne hnode) nofun
  | stop entered id target node pending rest hne hnode hjudge =>
      rw [run_stop hne hnode hjudge, calls_stop hne hnode hjudge]
      exact Unwinds.found rest (Nested.stop entered pending hne hnode hjudge) nofun
  | enter entered id target node pending rest hne hnode hjudge hnew ih =>
      rw [run_enter hne hnode hjudge hnew, calls_enter hne hnode hjudge hnew]
      rw [hplan] at ih ⊢
      exact ih.enter hne hnode hjudge hnew

theorem nested_run {g : Graph} {plan : Plan} (hplan : plan.discipline = Discipline.atOnce)
    (entered : Marks) (id : Nat) (pending : List Nat) :
    Nested g plan entered id pending (run g plan ⟨entered, [⟨id, pending⟩]⟩)
      (calls g plan ⟨entered, [⟨id, pending⟩]⟩) := by
  have hunwinds := unwinds_run (g := g) hplan ⟨entered, [⟨id, pending⟩]⟩
  generalize run g plan ⟨entered, [⟨id, pending⟩]⟩ = finding at hunwinds ⊢
  generalize calls g plan ⟨entered, [⟨id, pending⟩]⟩ = n at hunwinds ⊢
  cases hunwinds with
  | found _ hcall _ => exact hcall
  | back hcall hrest =>
      cases hrest with
      | nil => exact hcall

end Search
end PatternWalk
