/-!
# Faults in a pattern

Building stops at the first symbol that cannot be used.  A fault says why the
symbol cannot be used, which character it is, and how many symbols stand before
it.
-/

namespace PatternWalk

inductive FaultCause where
  | unsupported
  | nothingToRepeat
deriving DecidableEq

structure Fault where
  cause : FaultCause
  char : Char
  position : Nat
deriving DecidableEq

/-- The sentence that reports a fault.  The character stands in it unescaped. -/
def Fault.message (fault : Fault) : String :=
  match fault.cause with
  | FaultCause.unsupported =>
      "unsupported token '" ++ String.singleton fault.char ++
        "' at position " ++ toString fault.position
  | FaultCause.nothingToRepeat =>
      "quantifier '" ++ String.singleton fault.char ++
        "' at position " ++ toString fault.position ++ " has nothing to repeat"

end PatternWalk
