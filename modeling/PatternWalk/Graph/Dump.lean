import PatternWalk.Graph.Walk

/-!
# Showing a graph

A graph is shown as one line for each reachable node, in the order of the walk:
the name of the node, its state, and its targets in order.  Lines are separated
by line breaks, and no line break follows the last one.  The literals among the
states hide the characters that the caller names; a graph on display hides those
that leave no mark of their own.
-/

namespace PatternWalk

def Node.line (hidden : Char -> Bool) (id : Nat) (node : Node) : String :=
  toString id ++ ": " ++ node.state.label hidden ++
    " -> [" ++ String.intercalate ", " (node.targets.map toString) ++ "]"

namespace Graph

def dump (g : Graph) (hidden : Char -> Bool) : Except MissingNode String := do
  let nodes <- g.layout
  return String.intercalate "\n" (nodes.map (fun entry => entry.2.line hidden entry.1))

def display (g : Graph) : Except MissingNode String :=
  g.dump Text.isNongraphic

theorem dump_of_layout {g : Graph} {entries : List (Nat × Node)}
    (h : g.layout = Except.ok entries) (hidden : Char -> Bool) :
    g.dump hidden =
      Except.ok
        (String.intercalate "\n" (entries.map (fun entry => entry.2.line hidden entry.1))) := by
  rw [dump, h]
  rfl

end Graph

end PatternWalk
