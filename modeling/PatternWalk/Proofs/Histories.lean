import PatternWalk.Graph.History

/-!
# Graphs that are made by hand

Whatever history of edits a graph is made by, an edit that succeeds changes its subject
and nothing else, and one that fails changes nothing.  Each node is therefore what the
edits of this node have made of it, in their order, whatever happened in between to other
nodes, and two edits of different nodes can be made in either order.
-/

namespace PatternWalk
namespace Graph

variable {g : Graph} {e : Edit} {id : Nat}

/-!
# One edit
-/

theorem size_edited_of_subject (h : e.subject? = some id) (g : Graph) :
    (g.edited e).size = g.size := by
  rw [edited_of_subject h, size_modify]

theorem size_le_edited (g : Graph) (e : Edit) : g.size <= (g.edited e).size := by
  cases hadded : e.added? with
  | none =>
      rcases Edit.added?_eq_none_iff.mp hadded with ⟨id, hid⟩
      exact Nat.le_of_eq (size_edited_of_subject hid g).symm
  | some state =>
      rw [edited_of_added hadded, size_addState]
      exact Nat.le_succ _

theorem edited_comm {f : Edit} {other : Nat} (he : e.subject? = some id)
    (hf : f.subject? = some other) (hne : id ≠ other) (g : Graph) :
    (g.edited e).edited f = (g.edited f).edited e := by
  rw [edited_of_subject he, edited_of_subject hf, edited_of_subject hf, edited_of_subject he]
  exact g.modify_comm hne _ _

theorem reply_edited {f : Edit} {other : Nat} (he : e.subject? = some id)
    (hf : f.subject? = some other) (hne : id ≠ other) (g : Graph) :
    (g.edited e).reply f = g.reply f := by
  cases f with
  | addState state => cases hf
  | connect source target => rfl
  | disconnect source =>
      cases hf
      have hnode : (g.edited e).node? other = g.node? other := by
        rw [edited_of_subject he, node?_modify, if_neg hne]
      simp only [reply, lastTarget?, targets, hnode]
  | relabel source state => rfl

/-!
# A history
-/

theorem size_replay (g : Graph) (edits : List Edit) :
    (g.replay edits).size = g.size + (edits.filterMap Edit.added?).length := by
  induction edits generalizing g with
  | nil => rfl
  | cons e rest ih =>
      rcases g.edit_cases e with ⟨source, hsubject, _, hedit⟩ | ⟨_, hedit⟩
      · have hadded := Edit.added?_eq_none_iff.mpr ⟨source, hsubject⟩
        rw [replay_cons_of_error hedit, ih, List.filterMap_cons_none hadded]
      · rw [replay_cons_of_ok hedit, ih]
        cases hadded : e.added? with
        | none =>
            rcases Edit.added?_eq_none_iff.mp hadded with ⟨source, hsubject⟩
            rw [size_edited_of_subject hsubject, List.filterMap_cons_none hadded]
        | some state =>
            rw [edited_of_added hadded, size_addState, List.filterMap_cons_some hadded,
              List.length_cons, Nat.add_right_comm]
            rfl

theorem node?_replay_of_lt (h : id < g.size) (edits : List Edit) :
    (g.replay edits).node? id =
      (g.node? id).map (fun node => (g.changesOf id edits).foldl Edit.change node) := by
  induction edits generalizing g with
  | nil => exact Option.map_id'.symm
  | cons e rest ih =>
      rcases g.edit_cases e with ⟨_, _, _, hedit⟩ | ⟨_, hedit⟩
      · rw [replay_cons_of_error hedit, changesOf_cons_of_error hedit, ih h]
      · have hlt : id < (g.edited e).size := Nat.lt_of_lt_of_le h (g.size_le_edited e)
        rw [replay_cons_of_ok hedit, ih hlt]
        by_cases hsubject : e.subject? = some id
        · rw [changesOf_cons_of_subject hedit hsubject, edited_of_subject hsubject, node?_modify,
            if_pos rfl, Option.map_map]
          rfl
        · rw [changesOf_cons_of_ne hedit hsubject, node?_of_edit hedit h hsubject]

/-- A node that does not exist yet is made without targets, and then changed by its own
edits alone. -/
theorem node?_replay_of_size_le (h : g.size <= id) (edits : List Edit) :
    (g.replay edits).node? id =
      (edits.filterMap Edit.added?)[id - g.size]?.map
        (fun made => (g.changesOf id edits).foldl Edit.change ⟨made, []⟩) := by
  induction edits generalizing g with
  | nil => exact node?_eq_none_iff.mpr h
  | cons e rest ih =>
      rcases g.edit_cases e with ⟨source, hsubject, _, hedit⟩ | ⟨hlt, hedit⟩
      · have hadded := Edit.added?_eq_none_iff.mpr ⟨source, hsubject⟩
        rw [replay_cons_of_error hedit, changesOf_cons_of_error hedit, ih h,
          List.filterMap_cons_none hadded]
      · have hother : e.subject? ≠ some id := fun hid => absurd (hlt id hid) (Nat.not_lt.mpr h)
        rw [replay_cons_of_ok hedit, changesOf_cons_of_ne hedit hother]
        cases hadded : e.added? with
        | none =>
            rcases Edit.added?_eq_none_iff.mp hadded with ⟨source, hsubject⟩
            have hsize := size_edited_of_subject hsubject g
            have hle : (g.edited e).size <= id := by
              rw [hsize]
              exact h
            rw [ih hle, hsize, List.filterMap_cons_none hadded]
        | some state =>
            rw [edited_of_added hadded, List.filterMap_cons_some hadded]
            rcases Nat.eq_or_lt_of_le h with rfl | hgt
            · have hlast : g.size < (g.addState state).size := by
                rw [size_addState]
                exact Nat.lt_succ_self _
              rw [node?_replay_of_lt hlast, node?_addState, if_pos rfl, Nat.sub_self]
              rfl
            · have hle : (g.addState state).size <= id := by
                rw [size_addState]
                exact hgt
              have hindex : id - g.size = id - (g.size + 1) + 1 := by omega
              rw [ih hle, size_addState, hindex, List.getElem?_cons_succ]

/-!
# Histories of a fresh graph
-/

/-- The states that nodes were made with, in the order of their names. -/
def statesMade (edits : List Edit) : List State :=
  State.start :: edits.filterMap Edit.added?

theorem node?_replay_lone (edits : List Edit) (id : Nat) :
    (lone.replay edits).node? id =
      (statesMade edits)[id]?.map (fun made =>
        ⟨((lone.changesOf id edits).filterMap Edit.label?).getLast?.getD made,
          (lone.changesOf id edits).foldl Edit.stacked []⟩) := by
  simp only [<- Edit.foldl_change _ (⟨_, []⟩ : Node)]
  cases id with
  | zero => exact node?_replay_of_lt lone.nonempty edits
  | succ n => exact node?_replay_of_size_le (Nat.succ_le_succ (Nat.zero_le n)) edits

theorem exists_edit_comm {f : Edit} {other : Nat} (he : e.subject? = some id)
    (hf : f.subject? = some other) (hne : id ≠ other) (hid : id < g.size)
    (hother : other < g.size) :
    exists first second both : Graph,
      g.edit e = Except.ok first ∧ first.edit f = Except.ok both ∧
        g.edit f = Except.ok second ∧ second.edit e = Except.ok both ∧
        first.reply f = g.reply f ∧ second.reply e = g.reply e := by
  have hedit : forall {h : Graph} {d : Edit} {source : Nat}, d.subject? = some source ->
      source < h.size -> h.edit d = Except.ok (h.edited d) := by
    intro h d source hsubject hlt
    apply edit_of_subject
    intro subject hd
    rw [hsubject] at hd
    cases hd
    exact hlt
  have hfirst : other < (g.edited e).size := by
    rw [size_edited_of_subject he]
    exact hother
  have hsecond : id < (g.edited f).size := by
    rw [size_edited_of_subject hf]
    exact hid
  refine ⟨g.edited e, g.edited f, (g.edited e).edited f, hedit he hid, hedit hf hfirst,
    hedit hf hother, ?_, reply_edited he hf hne g, reply_edited hf he hne.symm g⟩
  rw [edited_comm he hf hne]
  exact hedit he hsecond

/-- In the graph that any history of edits makes, an edit of a missing node reports it and
changes nothing, a node that is added gets the old size for its name, each node is what
its own successful edits have made of it, and edits of different nodes commute. -/
theorem replay_acts_on_each_node (edits : List Edit) :
    exists g : Graph,
      lone.replay edits = g ∧ startId = 0 ∧
        g.size = 1 + (edits.filterMap Edit.added?).length ∧
        (forall state : State,
          exists grown : Graph,
            g.edit (Edit.addState state) = Except.ok grown ∧
              g.reply (Edit.addState state) = some g.size ∧ grown.size = g.size + 1) ∧
        (forall (e : Edit) (id : Nat),
          e.subject? = some id -> g.size <= id ->
            g.edit e = Except.error ⟨g.size, id⟩ ∧ lone.replay (edits ++ [e]) = g) ∧
        (forall id : Nat,
          id < g.size ->
            exists made : State,
              (statesMade edits)[id]? = some made ∧
                g.node? id =
                  some ⟨((lone.changesOf id edits).filterMap Edit.label?).getLast?.getD made,
                    (lone.changesOf id edits).foldl Edit.stacked []⟩) ∧
        forall (e f : Edit) (id other : Nat),
          e.subject? = some id -> f.subject? = some other -> id ≠ other ->
            id < g.size -> other < g.size ->
              exists first second both : Graph,
                g.edit e = Except.ok first ∧ first.edit f = Except.ok both ∧
                  g.edit f = Except.ok second ∧ second.edit e = Except.ok both ∧
                  first.reply f = g.reply f ∧ second.reply e = g.reply e := by
  refine ⟨lone.replay edits, rfl, rfl, size_replay lone edits, ?_, ?_, ?_, ?_⟩
  · intro state
    exact ⟨_, edit_addState _ state, reply_addState _ state, size_addState _ state⟩
  · intro e id hsubject hle
    have hedit := edit_of_size_le hsubject hle
    refine ⟨hedit, ?_⟩
    rw [replay_append, replay_cons_of_error hedit]
    rfl
  · intro id hid
    rcases exists_node?_of_lt hid with ⟨node, hnode⟩
    have hmade := node?_replay_lone edits id
    rw [hnode] at hmade
    rcases Option.map_eq_some_iff.mp hmade.symm with ⟨made, hstate, hmade⟩
    refine ⟨made, hstate, ?_⟩
    rw [hnode, hmade]
  · intro e f id other he hf hne hid hother
    exact exists_edit_comm he hf hne hid hother

example :
    (lone.replay
      [Edit.connect 1 7, Edit.addState (State.single Atom.any), Edit.connect 1 0,
        Edit.relabel 0 State.final, Edit.connect 1 9, Edit.disconnect 1]).node? 1 =
      some ⟨State.single Atom.any, [0]⟩ := by decide

end Graph
end PatternWalk
