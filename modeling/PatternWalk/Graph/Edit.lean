import PatternWalk.Graph.Basic

/-!
# Editing a graph

An edit changes a graph by hand.  An edit of a node that does not exist fails,
and a history of edits goes on after a failure as if the edit had not been
asked for.
-/

namespace PatternWalk

inductive Edit where
  | addState (state : State)
  | connect (source target : Nat)
  | disconnect (source : Nat)
  | relabel (id : Nat) (state : State)

/-- The node that an edit changes, when it has to exist beforehand. -/
def Edit.subject? : Edit -> Option Nat
  | addState _ => none
  | connect source _ => some source
  | disconnect source => some source
  | relabel id _ => some id

namespace Graph

def edited (g : Graph) : Edit -> Graph
  | Edit.addState state => g.addState state
  | Edit.connect source target => g.connect source target
  | Edit.disconnect source => g.disconnect source
  | Edit.relabel id state => g.relabel id state

def edit (g : Graph) (e : Edit) : Except MissingNode Graph := do
  match e.subject? with
  | none => return g.edited e
  | some id =>
      let _ <- g.node id
      return g.edited e

/-- What an edit gives back when it succeeds: the name of the last node once a node has been
added, or the target that it takes away, if there is one. -/
def reply (g : Graph) : Edit -> Option Nat
  | Edit.addState state => some ((g.addState state).size - 1)
  | Edit.connect _ _ => none
  | Edit.disconnect source => g.lastTarget? source
  | Edit.relabel _ _ => none

theorem reply_addState (g : Graph) (state : State) :
    g.reply (Edit.addState state) = some g.size := by
  rw [reply, size_addState, Nat.add_sub_cancel]

theorem edit_of_subject {g : Graph} {e : Edit}
    (h : forall id : Nat, e.subject? = some id -> id < g.size) :
    g.edit e = Except.ok (g.edited e) := by
  unfold edit
  cases hsubject : e.subject? with
  | none => rfl
  | some id =>
      rcases exists_node?_of_lt (h id hsubject) with ⟨node, hnode⟩
      simp only [bind, Except.bind, node_of_node? hnode]
      rfl

theorem edit_of_size_le {g : Graph} {e : Edit} {id : Nat} (hsubject : e.subject? = some id)
    (h : g.size <= id) : g.edit e = Except.error ⟨g.size, id⟩ := by
  unfold edit Graph.node
  simp only [hsubject, bind, Except.bind, node?_eq_none_iff.mpr h]

theorem edit_cases (g : Graph) (e : Edit) :
    (exists id : Nat,
      e.subject? = some id ∧ g.size <= id ∧ g.edit e = Except.error ⟨g.size, id⟩) ∨
      ((forall id : Nat, e.subject? = some id -> id < g.size) ∧
        g.edit e = Except.ok (g.edited e)) := by
  by_cases h : exists id : Nat, e.subject? = some id ∧ g.size <= id
  · rcases h with ⟨id, hsubject, hle⟩
    exact Or.inl ⟨id, hsubject, hle, edit_of_size_le hsubject hle⟩
  · have hlt : forall id : Nat, e.subject? = some id -> id < g.size := by
      intro id hsubject
      exact Nat.lt_of_not_le (fun hle => h ⟨id, hsubject, hle⟩)
    exact Or.inr ⟨hlt, edit_of_subject hlt⟩

theorem edit_addState (g : Graph) (state : State) :
    g.edit (Edit.addState state) = Except.ok (g.addState state) :=
  rfl

theorem edit_connect {g : Graph} {source : Nat} (h : source < g.size) (target : Nat) :
    g.edit (Edit.connect source target) = Except.ok (g.connect source target) := by
  apply edit_of_subject
  intro id hid
  cases hid
  exact h

theorem edit_disconnect {g : Graph} {source : Nat} (h : source < g.size) :
    g.edit (Edit.disconnect source) = Except.ok (g.disconnect source) := by
  apply edit_of_subject
  intro id hid
  cases hid
  exact h

theorem edit_relabel {g : Graph} {id : Nat} (h : id < g.size) (state : State) :
    g.edit (Edit.relabel id state) = Except.ok (g.relabel id state) := by
  apply edit_of_subject
  intro subject hsubject
  cases hsubject
  exact h

theorem edited_of_edit {g edited : Graph} {e : Edit} (h : g.edit e = Except.ok edited) :
    edited = g.edited e := by
  unfold edit at h
  cases hsubject : e.subject? with
  | none =>
      rw [hsubject] at h
      exact (Except.ok.inj h).symm
  | some id =>
      rw [hsubject] at h
      rcases exists_node?_of_bind h with ⟨_, _, hedited⟩
      exact (Except.ok.inj hedited).symm

/-- An edit leaves every node alone but its subject. -/
theorem node?_of_edit {g edited : Graph} {e : Edit} (h : g.edit e = Except.ok edited) {id : Nat}
    (hid : id < g.size) (hsubject : e.subject? ≠ some id) : edited.node? id = g.node? id := by
  rw [edited_of_edit h]
  cases e with
  | addState state => exact (node?_addState g state id).trans (if_neg (Nat.ne_of_lt hid))
  | connect source target =>
      exact (node?_modify g source _ id).trans (if_neg (fun heq => hsubject (congrArg some heq)))
  | disconnect source =>
      exact (node?_modify g source _ id).trans (if_neg (fun heq => hsubject (congrArg some heq)))
  | relabel source state =>
      exact (node?_modify g source _ id).trans (if_neg (fun heq => hsubject (congrArg some heq)))

def replay (g : Graph) : List Edit -> Graph
  | [] => g
  | e :: rest =>
      match g.edit e with
      | Except.ok edited => edited.replay rest
      | Except.error _ => g.replay rest

end Graph

end PatternWalk
