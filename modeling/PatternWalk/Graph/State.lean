import PatternWalk.Pattern.Item
import PatternWalk.Text.Nongraphic
import PatternWalk.Text.Quoted

/-!
# States

A graph has a state to start from, states that take one character, looping
states that may take further characters of the same kind, and a final state.
What a state takes is decided when it is entered: the start state takes
anything, the final state nothing.
-/

namespace PatternWalk

inductive State where
  | start
  | final
  | single (a : Atom)
  | loop (q : Quantifier) (a : Atom)
deriving DecidableEq

namespace State

def accepts : State -> Char -> Bool
  | start, _ => true
  | final, _ => false
  | single a, c => a.accepts c
  | loop _ a, c => a.accepts c

def isLoop : State -> Bool
  | loop _ _ => true
  | _ => false

def isOptional : State -> Bool
  | loop Quantifier.star _ => true
  | _ => false

def atom? : State -> Option Atom
  | start => none
  | final => none
  | single a => some a
  | loop _ a => some a

/-!
# Labels
-/

end State

def Atom.label (hidden : Char -> Bool) : Atom -> String
  | any => "AnyChar"
  | char c => "Literal(" ++ Text.quoted hidden c ++ ")"

instance : ToString Atom where
  toString := Atom.label Text.isNongraphic

namespace State

def label (hidden : Char -> Bool) : State -> String
  | start => "Start"
  | final => "Termination"
  | single a => a.label hidden
  | loop Quantifier.star a => "RepeatZeroOrMore(" ++ a.label hidden ++ ")"
  | loop Quantifier.plus a => "RepeatOneOrMore(" ++ a.label hidden ++ ")"

end State

instance : ToString State where
  toString := State.label Text.isNongraphic

def Item.state (item : Item) : State :=
  match item.quantifier with
  | none => State.single item.atom
  | some q => State.loop q item.atom

namespace Item

@[simp] theorem accepts_state (item : Item) (c : Char) :
    item.state.accepts c = item.accepts c := by
  rcases item with ⟨a, _ | q⟩ <;> rfl

@[simp] theorem isLoop_state (item : Item) : item.state.isLoop = item.isRepeated := by
  rcases item with ⟨a, _ | q⟩ <;> rfl

@[simp] theorem isOptional_state (item : Item) : item.state.isOptional = item.isStarred := by
  rcases item with ⟨a, _ | _ | _⟩ <;> rfl

theorem state_ne_final (item : Item) : item.state ≠ State.final := by
  rcases item with ⟨a, _ | q⟩ <;> exact State.noConfusion

end Item

end PatternWalk
