import PatternWalk.Graph.Edit

/-!
# Histories of edits

What becomes of a node in a history of edits can be told from the edits of this node
alone, leaving out those that fail.  Its targets are a stack, which these edits push on
and pop from, and its state is the one that it was given last.  A node is made by an
edit that has no subject, or was there before.
-/

namespace PatternWalk

/-!
# What an edit does to a node
-/

namespace Edit

def added? : Edit -> Option State
  | addState state => some state
  | _ => none

def label? : Edit -> Option State
  | relabel _ state => some state
  | _ => none

/-- What an edit makes of the targets of its subject, the top of the stack being the last
one. -/
def stacked (targets : List Nat) : Edit -> List Nat
  | connect _ target => targets ++ [target]
  | disconnect _ => targets.dropLast
  | _ => targets

def change (node : Node) (e : Edit) : Node :=
  ⟨e.label?.getD node.state, e.stacked node.targets⟩

/-- The state given last and the stack of targets are what is left of a node. -/
theorem foldl_change (history : List Edit) (node : Node) :
    history.foldl change node =
      ⟨(history.filterMap label?).getLast?.getD node.state,
        history.foldl stacked node.targets⟩ := by
  induction history generalizing node with
  | nil => rfl
  | cons e rest ih =>
      rw [List.foldl_cons, ih, List.foldl_cons, List.filterMap_cons]
      cases hlabel : e.label? with
      | none => simp only [change, hlabel, Option.getD_none]
      | some state => simp only [change, hlabel, List.getLast?_cons, Option.getD_some]

theorem added?_eq_none_iff {e : Edit} :
    e.added? = none <-> exists id : Nat, e.subject? = some id := by
  cases e with
  | addState state =>
      constructor
      · intro h
        cases h
      · intro h
        rcases h with ⟨id, hid⟩
        cases hid
  | connect source target => exact iff_of_true rfl ⟨source, rfl⟩
  | disconnect source => exact iff_of_true rfl ⟨source, rfl⟩
  | relabel id state => exact iff_of_true rfl ⟨id, rfl⟩

end Edit

namespace Graph

theorem edited_of_subject {e : Edit} {id : Nat} (h : e.subject? = some id) (g : Graph) :
    g.edited e = g.modify id (fun node => e.change node) := by
  cases e with
  | addState state => cases h
  | connect source target =>
      cases h
      rfl
  | disconnect source =>
      cases h
      rfl
  | relabel source state =>
      cases h
      rfl

theorem edited_of_added {e : Edit} {state : State} (h : e.added? = some state) (g : Graph) :
    g.edited e = g.addState state := by
  cases e <;> cases h
  rfl

/-!
# Edits that succeed
-/

def successes (g : Graph) : List Edit -> List Edit
  | [] => []
  | e :: rest =>
      match g.edit e with
      | Except.ok edited => e :: edited.successes rest
      | Except.error _ => g.successes rest

/-- Those of them that change the node of the given name. -/
def changesOf (g : Graph) (id : Nat) (edits : List Edit) : List Edit :=
  (g.successes edits).filter (fun e => e.subject? = some id)

section Replay

variable {g edited : Graph} {e : Edit} {missing : MissingNode}

theorem replay_cons_of_ok (h : g.edit e = Except.ok edited) (rest : List Edit) :
    g.replay (e :: rest) = edited.replay rest := by
  rw [replay, h]

theorem replay_cons_of_error (h : g.edit e = Except.error missing) (rest : List Edit) :
    g.replay (e :: rest) = g.replay rest := by
  rw [replay, h]

theorem replay_append (g : Graph) (front back : List Edit) :
    g.replay (front ++ back) = (g.replay front).replay back := by
  induction front generalizing g with
  | nil => rfl
  | cons e rest ih =>
      rw [List.cons_append]
      cases hedit : g.edit e with
      | error missing => rw [replay_cons_of_error hedit, replay_cons_of_error hedit, ih]
      | ok edited => rw [replay_cons_of_ok hedit, replay_cons_of_ok hedit, ih]

theorem changesOf_cons_of_error (h : g.edit e = Except.error missing) (id : Nat)
    (rest : List Edit) : g.changesOf id (e :: rest) = g.changesOf id rest := by
  rw [changesOf, successes, h]
  rfl

theorem changesOf_cons_of_subject (h : g.edit e = Except.ok edited) {id : Nat}
    (hsubject : e.subject? = some id) (rest : List Edit) :
    g.changesOf id (e :: rest) = e :: edited.changesOf id rest := by
  rw [changesOf, successes, h]
  exact List.filter_cons_of_pos (decide_eq_true hsubject)

theorem changesOf_cons_of_ne (h : g.edit e = Except.ok edited) {id : Nat}
    (hsubject : e.subject? ≠ some id) (rest : List Edit) :
    g.changesOf id (e :: rest) = edited.changesOf id rest := by
  rw [changesOf, successes, h]
  exact List.filter_cons_of_neg (fun hid => hsubject (of_decide_eq_true hid))

end Replay

end Graph
end PatternWalk
