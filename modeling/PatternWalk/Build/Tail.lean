import PatternWalk.Build.Draft
import PatternWalk.Graph.Closed

/-!
# Building at the newest node

Building never reaches further back than the newest node.  An atom becomes a new
node behind it, and a quantifier turns it into a looping node, provided that it
is not one yet.  Behind the last symbol comes the final node.  Said in this way a
graph under construction needs no places of its own, and every change of it is
total.
-/

namespace PatternWalk

namespace Graph

/-!
# Growing at the tail
-/

def tail (g : Graph) : Nat :=
  g.size - 1

def append (g : Graph) (state : State) : Graph :=
  let tail := g.tail
  let new := g.size
  (g.addState state).connect tail new

def loopTail (g : Graph) (q : Quantifier) (a : Atom) : Graph :=
  let tail := g.tail
  (g.relabel tail (State.loop q a)).connect tail tail

theorem tail_lt_size (g : Graph) : g.tail < g.size :=
  Nat.sub_lt g.nonempty Nat.one_pos

@[simp] theorem size_append (g : Graph) (state : State) :
    (g.append state).size = g.size + 1 := by
  simp [append]

@[simp] theorem size_loopTail (g : Graph) (q : Quantifier) (a : Atom) :
    (g.loopTail q a).size = g.size := by
  simp [loopTail]

@[simp] theorem tail_append (g : Graph) (state : State) : (g.append state).tail = g.size := by
  rw [tail, size_append]
  rfl

@[simp] theorem tail_loopTail (g : Graph) (q : Quantifier) (a : Atom) :
    (g.loopTail q a).tail = g.tail := by
  rw [tail, size_loopTail, tail]

/-!
# Nodes after growing
-/

theorem node?_append (g : Graph) (state : State) (id : Nat) :
    (g.append state).node? id =
      if id = g.tail then
        (g.node? id).map (fun node => { node with targets := node.targets ++ [g.size] })
      else if id = g.size then some ⟨state, []⟩
      else g.node? id := by
  rw [append, connect, node?_modify, node?_addState]
  by_cases htail : id = g.tail
  · have hold : id ≠ g.size := by
      rw [htail]
      exact Nat.ne_of_lt g.tail_lt_size
    rw [if_pos htail.symm, if_pos htail, if_neg hold]
  · rw [if_neg (fun h => htail h.symm), if_neg htail]

theorem node?_loopTail (g : Graph) (q : Quantifier) (a : Atom) (id : Nat) :
    (g.loopTail q a).node? id =
      if id = g.tail then
        (g.node? id).map (fun node => ⟨State.loop q a, node.targets ++ [g.tail]⟩)
      else g.node? id := by
  rw [loopTail, connect, node?_modify, relabel, node?_modify]
  by_cases htail : id = g.tail
  · rw [if_pos htail.symm, if_pos htail.symm, if_pos htail, Option.map_map]
    rfl
  · have hother : g.tail ≠ id := fun h => htail h.symm
    rw [if_neg hother, if_neg hother, if_neg htail]

theorem Closed.append {g : Graph} (hclosed : g.Closed) (state : State) :
    (g.append state).Closed := by
  apply (hclosed.addState state).connect
  · rw [size_addState]
    exact Nat.lt_succ_of_lt g.tail_lt_size
  · rw [size_addState]
    exact Nat.lt_succ_self _

theorem Closed.loopTail {g : Graph} (hclosed : g.Closed) (q : Quantifier) (a : Atom) :
    (g.loopTail q a).Closed := by
  apply (hclosed.relabel g.tail (State.loop q a)).connect
  · rw [size_relabel]
    exact g.tail_lt_size
  · rw [size_relabel]
    exact g.tail_lt_size

/-!
# Using one symbol
-/

/-- The atom that a quantifier would repeat: that of the tail, unless it is
repeated already. -/
def repeatable? (g : Graph) : Option Atom :=
  match g.state? g.tail with
  | some (State.single a) => some a
  | _ => none

theorem repeatable?_append (g : Graph) (a : Atom) :
    (g.append (State.single a)).repeatable? = some a := by
  unfold repeatable? state?
  rw [tail_append, node?_append, if_neg (Nat.ne_of_gt g.tail_lt_size), if_pos rfl]
  rfl

theorem repeatable?_loopTail (g : Graph) (q : Quantifier) (a : Atom) :
    (g.loopTail q a).repeatable? = none := by
  unfold repeatable? state?
  rw [tail_loopTail, node?_loopTail, if_pos rfl]
  cases g.node? g.tail <;> rfl

def extend (g : Graph) (placed : Placed) : Except Fault (Record × Graph) :=
  match Quantifier.ofSymbol? placed.symbol with
  | some q =>
      match g.repeatable? with
      | some a => Except.ok (Record.wrapped g.tail (State.loop q a), g.loopTail q a)
      | none =>
          Except.error ⟨FaultCause.nothingToRepeat, placed.symbol.char, placed.position⟩
  | none =>
      match Atom.ofSymbol? placed.symbol with
      | some a =>
          Except.ok (Record.appended g.tail g.size (State.single a), g.append (State.single a))
      | none =>
          Except.error ⟨FaultCause.unsupported, placed.symbol.char, placed.position⟩

theorem Closed.extend {g extended : Graph} {placed : Placed} {record : Record}
    (hclosed : g.Closed) (h : g.extend placed = Except.ok (record, extended)) :
    extended.Closed := by
  unfold Graph.extend at h
  split at h
  · split at h
    · cases h
      exact hclosed.loopTail _ _
    · cases h
  · split at h
    · cases h
      exact hclosed.append _
    · cases h

end Graph

/-!
# The whole pattern
-/

namespace Build

def finish (g : Graph) : Build :=
  let complete := g.append State.final
  ⟨[Record.completed complete.size], Except.ok complete⟩

def resume (g : Graph) : List Placed -> Build
  | [] => finish g
  | placed :: rest =>
      match g.extend placed with
      | Except.ok (record, extended) => note record (resume extended rest)
      | Except.error fault => ⟨[], Except.error fault⟩

theorem closed_of_resume {g built : Graph} {symbols : List Placed}
    (hclosed : g.Closed) (h : (resume g symbols).result = Except.ok built) :
    built.Closed := by
  induction symbols generalizing g with
  | nil =>
      cases h
      exact hclosed.append _
  | cons placed rest ih =>
      unfold resume at h
      cases hextend : g.extend placed with
      | error fault =>
          rw [hextend] at h
          cases h
      | ok used =>
          rw [hextend] at h
          exact ih (hclosed.extend hextend) h

end Build

end PatternWalk
