import PatternWalk.Graph.Walk

/-!
# Spelling a graph

The symbols of the states of a graph, written one after the other in the order of the
walk, are its spelling.  A state that takes one character is written as its atom, and a
looping state has its quantifier behind the atom.
-/

namespace PatternWalk

def State.symbols : State -> List Symbol
  | start => []
  | final => []
  | single a => [a.symbol]
  | loop q a => [a.symbol, q.symbol]

@[simp] theorem Item.symbols_state (item : Item) : item.state.symbols = item.symbols := by
  rcases item with ⟨a, _ | q⟩ <;> rfl

def Graph.spelling (g : Graph) : Except MissingNode String := do
  let nodes <- g.layout
  return Symbol.text (nodes.flatMap (fun entry => entry.2.state.symbols))

end PatternWalk
