import PatternWalk.Graph.Edit
import PatternWalk.Pattern.Cursor
import PatternWalk.Pattern.Fault
import PatternWalk.Record

/-!
# Drafts

A pattern is built in one pass over its symbols.  A draft is the graph made so
far with two places in it: the tail, behind which the next node goes, and the
predecessor, behind which the tail stands.  An atom becomes a new tail.  A
quantifier takes the last target away from the predecessor, and when that target
is a plain node it comes back as a looping one.

Every symbol that is used leaves exactly one record, and building stops at the
first symbol that cannot be used.  A draft changes by edits alone, so that a draft
whose places name no node would be found out.
-/

namespace PatternWalk

structure Draft where
  graph : Graph
  tail : Nat
  predecessor : Nat

structure Build where
  records : List Record
  result : Except Fault Graph

def Build.note (record : Record) (build : Build) : Build :=
  { build with records := record :: build.records }

namespace Draft

def fresh : Draft :=
  ⟨Graph.lone, Graph.startId, Graph.startId⟩

/-!
# Changing a draft
-/

def append : Draft -> State -> Except MissingNode Draft
  | ⟨graph, tail, _⟩, state => do
      let new := graph.size
      let grown <- graph.edit (Edit.addState state)
      let connected <- grown.edit (Edit.connect tail new)
      return ⟨connected, new, tail⟩

/-- Take the last target away from the predecessor and put it back as a looping
node, its own first target.  Only a plain node can be put back. -/
def splice : Draft -> Quantifier -> Except MissingNode (Option Draft)
  | ⟨graph, _, predecessor⟩, q => do
      let last := graph.lastTarget? predecessor
      let opened <- graph.edit (Edit.disconnect predecessor)
      match last with
      | none => return none
      | some repeated =>
          let node <- opened.node repeated
          match node.state with
          | State.single a =>
              let relabelled <- opened.edit (Edit.relabel repeated (State.loop q a))
              let looped <- relabelled.edit (Edit.connect repeated repeated)
              let closed <- looped.edit (Edit.connect predecessor repeated)
              return some ⟨closed, repeated, predecessor⟩
          | _ => return none

/-!
# Using symbols
-/

def use (draft : Draft) (placed : Placed) :
    Except MissingNode (Except Fault (Record × Draft)) := do
  match Quantifier.ofSymbol? placed.symbol with
  | some q =>
      match <- draft.splice q with
      | some spliced =>
          let wrapper <- spliced.graph.node spliced.tail
          return Except.ok (Record.wrapped spliced.tail wrapper.state, spliced)
      | none =>
          return Except.error ⟨FaultCause.nothingToRepeat, placed.symbol.char, placed.position⟩
  | none =>
      match Atom.ofSymbol? placed.symbol with
      | some a =>
          let tail := draft.tail
          let appended <- draft.append (State.single a)
          return Except.ok (Record.appended tail appended.tail (State.single a), appended)
      | none =>
          return Except.error ⟨FaultCause.unsupported, placed.symbol.char, placed.position⟩

def complete (draft : Draft) : Except MissingNode Build := do
  let completed <- draft.append State.final
  return ⟨[Record.completed completed.graph.size], Except.ok completed.graph⟩

def build (draft : Draft) : List Placed -> Except MissingNode Build
  | [] => draft.complete
  | placed :: rest => do
      match <- draft.use placed with
      | Except.ok (record, used) =>
          let built <- used.build rest
          return built.note record
      | Except.error fault => return ⟨[], Except.error fault⟩

end Draft

end PatternWalk
