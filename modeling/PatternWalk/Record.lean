import PatternWalk.Graph.State

/-!
# Records

Building a graph and running it leave records behind: one for each symbol that
was used, one when a graph is complete, and one when a run is turned away.
-/

namespace PatternWalk

inductive Level where
  | trace
  | debug
deriving DecidableEq

def Level.name : Level -> String
  | trace => "TRACE"
  | debug => "DEBUG"

inductive Record where
  | appended (tail new : Nat) (state : State)
  | wrapped (id : Nat) (state : State)
  | completed (size : Nat)
  | rejected (c : Char) (id : Nat)
deriving DecidableEq

namespace Record

def level : Record -> Level
  | completed _ => Level.debug
  | _ => Level.trace

def text (hidden : Char -> Bool) : Record -> String
  | appended tail new state =>
      toString tail ++ " -> " ++ toString new ++ " (" ++ state.label hidden ++ ")"
  | wrapped id state => toString id ++ " wrapped as " ++ state.label hidden
  | completed size => "compiled automaton with " ++ toString size ++ " states"
  | rejected c id => "rejected " ++ Text.quoted hidden c ++ " in state " ++ toString id

end Record

instance : ToString Record where
  toString := Record.text Text.isNongraphic

end PatternWalk
