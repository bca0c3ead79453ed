import PatternWalk.Build
import PatternWalk.Graph.Safety

/-!
# Patterns

A pattern is a text from which a graph can be built, kept together with that
graph.  Such a graph is closed, so that matching against a pattern always has an
answer.
-/

namespace PatternWalk

structure Pattern where
  text : String
  graph : Graph
  built : (Build.ofText text).result = Except.ok graph

namespace Pattern

def parse (text : String) : Except Fault Pattern :=
  match h : (Build.ofText text).result with
  | Except.ok graph => Except.ok ⟨text, graph, h⟩
  | Except.error fault => Except.error fault

/-- A text has at most one pattern, the one that parsing gives. -/
theorem parse_eq_ok_iff {text : String} {pattern : Pattern} :
    parse text = Except.ok pattern <-> pattern.text = text := by
  constructor
  · intro h
    unfold parse at h
    split at h
    · cases h
      rfl
    · cases h
  · intro h
    subst h
    unfold parse
    split
    · rename_i graph hbuilt
      have hgraph : graph = pattern.graph := by
        rw [pattern.built] at hbuilt
        exact (Except.ok.inj hbuilt).symm
      subst hgraph
      rfl
    · rename_i fault hfault
      rw [pattern.built] at hfault
      cases hfault

instance : ToString Pattern where
  toString := Pattern.text

def records (pattern : Pattern) : List Record :=
  (Build.ofText pattern.text).records

/-!
# Matching
-/

theorem intact (pattern : Pattern) : pattern.graph.Intact :=
  (Build.closed_of_ofText pattern.built).intact

def run (pattern : Pattern) (text : String) : Outcome :=
  match h : pattern.graph.run text with
  | Except.ok outcome => outcome
  | Except.error _ => False.elim (by
      rcases pattern.intact.exists_run text with ⟨outcome, houtcome⟩
      rw [houtcome] at h
      cases h)

def isExactMatch (pattern : Pattern) (text : String) : Bool :=
  (pattern.run text).accepted

theorem run_graph (pattern : Pattern) (text : String) :
    pattern.graph.run text = Except.ok (pattern.run text) := by
  unfold run
  split
  · assumption
  · rename_i missing hrun
    rcases pattern.intact.exists_run text with ⟨outcome, houtcome⟩
    rw [houtcome] at hrun
    cases hrun

theorem accepts_graph (pattern : Pattern) (text : String) :
    pattern.graph.accepts text = Except.ok (pattern.isExactMatch text) := by
  unfold Graph.accepts
  rw [run_graph]
  rfl

end Pattern

end PatternWalk
