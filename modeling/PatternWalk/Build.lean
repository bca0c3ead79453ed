import PatternWalk.Build.Tail

/-!
# Building a graph from a pattern

The places of a draft are always where they are needed: the tail is the newest
node, and the last target of the predecessor is the tail, unless there is nothing
behind the predecessor yet.  A draft of this kind misses no node, and it changes
just as its graph does when it is built at the newest node.
-/

namespace PatternWalk

namespace Graph

/-!
# Splicing at the newest node
-/

theorem connect_spliced {g : Graph} {predecessor : Nat}
    (hlast : g.lastTarget? predecessor = some g.tail) (hne : predecessor ≠ g.tail)
    (q : Quantifier) (a : Atom) :
    (((g.disconnect predecessor).relabel g.tail (State.loop q a)).connect g.tail g.tail).connect
      predecessor g.tail = g.loopTail q a := by
  have hcomm : forall opened : Graph,
      ((opened.relabel g.tail (State.loop q a)).connect g.tail g.tail).connect
          predecessor g.tail =
        ((opened.connect predecessor g.tail).relabel g.tail (State.loop q a)).connect
          g.tail g.tail := by
    intro opened
    unfold relabel connect
    rw [modify_comm _ hne.symm, modify_comm _ hne.symm]
  rw [hcomm, connect_disconnect hlast]
  rfl

theorem exists_edits_spliced {g : Graph} {predecessor : Nat} (hlt : predecessor < g.size)
    (hlast : g.lastTarget? predecessor = some g.tail) (hne : predecessor ≠ g.tail)
    (q : Quantifier) (a : Atom) :
    exists relabelled looped : Graph,
      (g.disconnect predecessor).edit (Edit.relabel g.tail (State.loop q a)) =
          Except.ok relabelled ∧
        relabelled.edit (Edit.connect g.tail g.tail) = Except.ok looped ∧
        looped.edit (Edit.connect predecessor g.tail) = Except.ok (g.loopTail q a) := by
  have hopened : g.tail < (g.disconnect predecessor).size := by
    rw [size_disconnect]
    exact g.tail_lt_size
  have hrelabelled : g.tail <
      ((g.disconnect predecessor).relabel g.tail (State.loop q a)).size := by
    rw [size_relabel]
    exact hopened
  have hlooped : predecessor <
      (((g.disconnect predecessor).relabel g.tail (State.loop q a)).connect
        g.tail g.tail).size := by
    rw [size_connect, size_relabel, size_disconnect]
    exact hlt
  refine ⟨_, _, edit_relabel hopened _, edit_connect hrelabelled _, ?_⟩
  rw [edit_connect hlooped, connect_spliced hlast hne q a]

end Graph

namespace Draft

/-!
# Settled drafts
-/

/-- The tail is the newest node, and it is found behind the predecessor whenever
there is something to repeat. -/
structure Settled (draft : Draft) : Prop where
  tail_eq : draft.tail = draft.graph.tail
  predecessor_lt : draft.predecessor < draft.graph.size
  last :
    (draft.graph.lastTarget? draft.predecessor = none ∧ draft.graph.repeatable? = none) ∨
      (draft.graph.lastTarget? draft.predecessor = some draft.graph.tail ∧
        draft.predecessor ≠ draft.graph.tail)

theorem settled_fresh : fresh.Settled where
  tail_eq := rfl
  predecessor_lt := by decide
  last := Or.inl ⟨rfl, rfl⟩

namespace Settled

theorem tail_lt {draft : Draft} (h : draft.Settled) : draft.tail < draft.graph.size := by
  rw [h.tail_eq]
  exact draft.graph.tail_lt_size

theorem append {draft : Draft} (h : draft.Settled) (state : State) :
    draft.append state =
        Except.ok ⟨draft.graph.append state, draft.graph.size, draft.tail⟩ ∧
      Settled ⟨draft.graph.append state, draft.graph.size, draft.tail⟩ := by
  have htail : draft.tail < (draft.graph.addState state).size := by
    rw [Graph.size_addState]
    exact Nat.lt_succ_of_lt h.tail_lt
  constructor
  · unfold Draft.append
    simp only [bind, Except.bind, Graph.edit_addState, Graph.edit_connect htail]
    rw [h.tail_eq]
    rfl
  · constructor
    · exact (Graph.tail_append draft.graph state).symm
    · show draft.tail < (draft.graph.append state).size
      rw [Graph.size_append]
      exact Nat.lt_succ_of_lt h.tail_lt
    · right
      rw [Graph.tail_append]
      constructor
      · show (draft.graph.append state).lastTarget? draft.tail = some draft.graph.size
        rw [h.tail_eq] at htail ⊢
        exact Graph.lastTarget?_connect htail _
      · exact Nat.ne_of_lt h.tail_lt

theorem splice_eq {draft : Draft} (h : draft.Settled) (q : Quantifier) :
    draft.splice q =
      match draft.graph.repeatable? with
      | some a =>
          Except.ok (some ⟨draft.graph.loopTail q a, draft.graph.tail, draft.predecessor⟩)
      | none => Except.ok none := by
  unfold Draft.splice
  simp only [bind, Except.bind, Graph.edit_disconnect h.predecessor_lt]
  rcases h.last with ⟨hnone, hrepeatable⟩ | ⟨hlast, hne⟩
  · rw [hnone, hrepeatable]
    rfl
  · rcases Graph.exists_node?_of_lt draft.graph.tail_lt_size with ⟨node, hnode⟩
    have hrepeated : (draft.graph.disconnect draft.predecessor).node draft.graph.tail =
        Except.ok node := by
      apply Graph.node_of_node?
      rw [Graph.node?_disconnect_of_ne hne]
      exact hnode
    rw [hlast]
    simp only [hrepeated, Graph.repeatable?, Graph.state?, hnode, Option.map_some]
    cases node.state with
    | start => rfl
    | final => rfl
    | loop r a => rfl
    | single a =>
        rcases Graph.exists_edits_spliced h.predecessor_lt hlast hne q a with
          ⟨relabelled, looped, hrelabel, hloop, hclose⟩
        simp only [hrelabel, hloop, hclose]
        rfl

theorem spliced {draft : Draft} (h : draft.Settled) {a : Atom}
    (hrepeatable : draft.graph.repeatable? = some a) (q : Quantifier) :
    Settled ⟨draft.graph.loopTail q a, draft.graph.tail, draft.predecessor⟩ := by
  constructor
  · exact (Graph.tail_loopTail draft.graph q a).symm
  · show draft.predecessor < (draft.graph.loopTail q a).size
    rw [Graph.size_loopTail]
    exact h.predecessor_lt
  · rcases h.last with ⟨_, hnone⟩ | ⟨hlast, hne⟩
    · rw [hrepeatable] at hnone
      cases hnone
    · right
      rw [Graph.tail_loopTail]
      constructor
      · show (draft.graph.loopTail q a).lastTarget? draft.predecessor = some draft.graph.tail
        have htail_lt : draft.graph.tail <
            (draft.graph.relabel draft.graph.tail (State.loop q a)).size := by
          rw [Graph.size_relabel]
          exact draft.graph.tail_lt_size
        rw [Graph.loopTail, Graph.lastTarget?_connect_of_ne htail_lt hne.symm,
          Graph.lastTarget?, Graph.targets_relabel]
        exact hlast
      · exact hne

/-!
# Building from a settled draft
-/

/-- A symbol has the same effect on a settled draft as on its graph. -/
theorem use_eq {draft : Draft} (h : draft.Settled) (placed : Placed) :
    match draft.graph.extend placed with
    | Except.error fault => draft.use placed = Except.ok (Except.error fault)
    | Except.ok (record, extended) =>
        exists used : Draft,
          draft.use placed = Except.ok (Except.ok (record, used)) ∧
            used.graph = extended ∧ used.Settled := by
  unfold Graph.extend
  cases hquantifier : Quantifier.ofSymbol? placed.symbol with
  | some q =>
      cases hrepeatable : draft.graph.repeatable? with
      | some a =>
          have hsettled := h.spliced hrepeatable q
          refine ⟨_, ?_, rfl, hsettled⟩
          have hsplice := h.splice_eq q
          rw [hrepeatable] at hsplice
          rcases Graph.exists_node?_of_lt draft.graph.tail_lt_size with ⟨node, hnode⟩
          have hwrapper : (draft.graph.loopTail q a).node draft.graph.tail =
              Except.ok ⟨State.loop q a, node.targets ++ [draft.graph.tail]⟩ := by
            apply Graph.node_of_node?
            rw [Graph.node?_loopTail, if_pos rfl, hnode]
            rfl
          simp only [Draft.use, hquantifier, bind, Except.bind, hsplice, hwrapper]
          rfl
      | none =>
          have hsplice := h.splice_eq q
          rw [hrepeatable] at hsplice
          simp only [Draft.use, hquantifier, bind, Except.bind, hsplice]
          rfl
  | none =>
      cases hatom : Atom.ofSymbol? placed.symbol with
      | some a =>
          rcases h.append (State.single a) with ⟨happend, hsettled⟩
          refine ⟨_, ?_, rfl, hsettled⟩
          simp only [Draft.use, hquantifier, hatom, bind, Except.bind, happend]
          rw [h.tail_eq]
          rfl
      | none =>
          simp only [Draft.use, hquantifier, hatom]
          rfl

theorem build_eq {draft : Draft} (h : draft.Settled) (symbols : List Placed) :
    draft.build symbols = Except.ok (Build.resume draft.graph symbols) := by
  induction symbols generalizing draft with
  | nil =>
      rcases h.append State.final with ⟨happend, _⟩
      simp only [Draft.build, Draft.complete, bind, Except.bind, happend]
      rfl
  | cons placed rest ih =>
      have huse := h.use_eq placed
      unfold Draft.build Build.resume
      cases hextend : draft.graph.extend placed with
      | error fault =>
          rw [hextend] at huse
          simp only [huse, bind, Except.bind]
          rfl
      | ok made =>
          rw [hextend] at huse
          rcases huse with ⟨used, huse, hgraph, hsettled⟩
          have hrest := ih hsettled
          rw [hgraph] at hrest
          simp only [huse, hrest, bind, Except.bind]
          rfl

end Settled
end Draft

/-!
# The whole pattern
-/

namespace Build

def drafted (text : String) : Except MissingNode Build :=
  Draft.fresh.build (Cursor.ofText text).symbols

theorem drafted_eq_resume (text : String) :
    drafted text = Except.ok (resume Graph.lone (Cursor.ofText text).symbols) :=
  Draft.settled_fresh.build_eq _

def ofText (text : String) : Build :=
  match h : drafted text with
  | Except.ok build => build
  | Except.error _ => False.elim (by
      rw [drafted_eq_resume] at h
      cases h)

/-- No draft of a pattern misses a node. -/
theorem drafted_eq (text : String) : drafted text = Except.ok (ofText text) := by
  unfold ofText
  split
  · assumption
  · rename_i missing h
    rw [drafted_eq_resume] at h
    cases h

theorem ofText_eq_resume (text : String) :
    ofText text = resume Graph.lone (Cursor.ofText text).symbols := by
  have hdrafted := drafted_eq text
  rw [drafted_eq_resume] at hdrafted
  exact (Except.ok.inj hdrafted).symm

theorem closed_of_ofText {text : String} {built : Graph}
    (h : (ofText text).result = Except.ok built) : built.Closed := by
  rw [ofText_eq_resume] at h
  exact closed_of_resume Graph.closed_lone h

end Build

end PatternWalk
