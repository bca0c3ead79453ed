import PatternWalk.Graph.Finding
import PatternWalk.Record

/-!
# Running a graph on a text

A run stands in one node at a time and takes the characters of a text one by
one.  For each character it looks for the first target that accepts it, in the
order of the targets; an optional target that does not accept it is looked
through, its own targets first, before the targets behind it.  Only when no
target takes the character does a looping node take it itself.  A run never
goes back on a choice.

A text is accepted when every character was taken and the final state can be
reached from the last node through optional nodes alone.
-/

namespace PatternWalk

/-!
# Looking ahead
-/

def Plan.selecting (c : Char) : Plan where
  discipline := Discipline.atOnce
  judge state :=
    if state.accepts c then Verdict.stop
    else if state.isOptional then Verdict.enter
    else Verdict.pass

def Plan.finishing : Plan where
  discipline := Discipline.latestNext
  judge state :=
    if state = State.final then Verdict.stop
    else if state.isOptional then Verdict.enter
    else Verdict.pass

namespace Graph

/-- The search that looks ahead from a node, which itself does not count as entered. -/
def aheadSearch (id : Nat) (node : Node) : Search :=
  ⟨Marks.empty, [⟨id, node.targets⟩]⟩

theorem within_aheadSearch {g : Graph} {inside : Nat -> Prop} {id : Nat} {node : Node}
    (hnode : g.node? id = some node) (hid : inside id) :
    (aheadSearch id node).Within g inside := by
  intro scan hscan
  cases List.mem_singleton.mp hscan
  refine ⟨hid, fun target htarget => ?_⟩
  rw [targets_of_node? hnode]
  exact htarget

theorem covers_aheadSearch {g : Graph} {plan : Plan} {id : Nat} {node : Node}
    (hnode : g.node? id = some node) : (aheadSearch id node).Covers g plan id := by
  intro source target hsource htarget
  have hid : source = id := hsource.resolve_right (Marks.not_mem_empty source)
  subst hid
  rw [targets_of_node? hnode] at htarget
  exact Or.inr ⟨_, List.mem_singleton.mpr rfl, rfl, htarget⟩

def select (g : Graph) (id : Nat) (c : Char) : Except MissingNode (Option Nat) := do
  let node <- g.node id
  match ((aheadSearch id node).run g (Plan.selecting c)).ending with
  | Ending.stopped target => return some target
  | Ending.missing target => throw ⟨g.size, target⟩
  | Ending.exhausted => return none

def canFinish (g : Graph) (id : Nat) : Except MissingNode Bool := do
  let node <- g.node id
  match ((aheadSearch id node).run g Plan.finishing).ending with
  | Ending.stopped _ => return true
  | Ending.missing target => throw ⟨g.size, target⟩
  | Ending.exhausted => return false

theorem select_of_node? {g : Graph} {id : Nat} {node : Node} (hnode : g.node? id = some node)
    (c : Char) :
    g.select id c =
      match ((aheadSearch id node).run g (Plan.selecting c)).ending with
      | Ending.stopped target => Except.ok (some target)
      | Ending.missing target => Except.error ⟨g.size, target⟩
      | Ending.exhausted => Except.ok none := by
  rw [select, node_of_node? hnode]
  rfl

theorem canFinish_of_node? {g : Graph} {id : Nat} {node : Node}
    (hnode : g.node? id = some node) :
    g.canFinish id =
      match ((aheadSearch id node).run g Plan.finishing).ending with
      | Ending.stopped _ => Except.ok true
      | Ending.missing target => Except.error ⟨g.size, target⟩
      | Ending.exhausted => Except.ok false := by
  rw [canFinish, node_of_node? hnode]
  rfl

/-!
# Taking characters
-/

/-- The node a run stands in after taking a character.  Targets come before
the repetition of the node itself. -/
def next (g : Graph) (id : Nat) (c : Char) : Except MissingNode (Option Nat) := do
  match <- g.select id c with
  | some target => return some target
  | none =>
      let node <- g.node id
      if node.state.isLoop && node.state.accepts c then
        return some id
      else
        return none

theorem next_of_selected {g : Graph} {id target : Nat} {c : Char}
    (h : g.select id c = Except.ok (some target)) : g.next id c = Except.ok (some target) := by
  rw [next, h]
  rfl

theorem next_of_not_selected {g : Graph} {id : Nat} {node : Node} {c : Char}
    (h : g.select id c = Except.ok none) (hnode : g.node? id = some node) :
    g.next id c =
      Except.ok (if node.state.isLoop && node.state.accepts c then some id else none) := by
  rw [next, h]
  show (g.node id >>= _) = _
  rw [node_of_node? hnode]
  show (if _ then _ else _) = _
  split <;> rfl

end Graph

inductive Arrival where
  | standing (id : Nat)
  | refused (c : Char) (id : Nat)
deriving DecidableEq

structure Outcome where
  records : List Record
  accepted : Bool
deriving DecidableEq

namespace Graph

def follow (g : Graph) (id : Nat) : List Char -> Except MissingNode Arrival
  | [] => return Arrival.standing id
  | c :: rest => do
      match <- g.next id c with
      | some target => g.follow target rest
      | none => return Arrival.refused c id

def run (g : Graph) (text : String) : Except MissingNode Outcome := do
  match <- g.follow startId text.toList with
  | Arrival.refused c id => return ⟨[Record.rejected c id], false⟩
  | Arrival.standing id =>
      let accepted <- g.canFinish id
      return ⟨[], accepted⟩

def accepts (g : Graph) (text : String) : Except MissingNode Bool := do
  let outcome <- g.run text
  return outcome.accepted

/-!
# One character of a run
-/

theorem follow_cons_of_taken {g : Graph} {id target : Nat} {c : Char}
    (h : g.next id c = Except.ok (some target)) (word : List Char) :
    g.follow id (c :: word) = g.follow target word := by
  rw [follow, h]
  rfl

theorem follow_cons_of_refused {g : Graph} {id : Nat} {c : Char}
    (h : g.next id c = Except.ok none) (word : List Char) :
    g.follow id (c :: word) = Except.ok (Arrival.refused c id) := by
  rw [follow, h]
  rfl

theorem follow_cons_cases {g : Graph} {id : Nat} {c : Char} {word : List Char}
    {arrival : Arrival} (h : g.follow id (c :: word) = Except.ok arrival) :
    (exists target : Nat,
      g.next id c = Except.ok (some target) ∧ g.follow target word = Except.ok arrival) ∨
      (g.next id c = Except.ok none ∧ arrival = Arrival.refused c id) := by
  cases hnext : g.next id c with
  | error missing =>
      rw [follow, hnext] at h
      cases h
  | ok choice =>
      cases choice with
      | some target =>
          rw [follow_cons_of_taken hnext] at h
          exact Or.inl ⟨target, rfl, h⟩
      | none =>
          rw [follow_cons_of_refused hnext] at h
          exact Or.inr ⟨rfl, (Except.ok.inj h).symm⟩

/-!
# Words in two parts
-/

theorem follow_append_of_standing {g : Graph} {id last : Nat} {word : List Char}
    (h : g.follow id word = Except.ok (Arrival.standing last)) (rest : List Char) :
    g.follow id (word ++ rest) = g.follow last rest := by
  induction word generalizing id with
  | nil =>
      cases h
      rfl
  | cons c word ih =>
      rcases follow_cons_cases h with ⟨target, hnext, hword⟩ | ⟨_, hrefused⟩
      · rw [List.cons_append, follow_cons_of_taken hnext]
        exact ih hword
      · cases hrefused

theorem follow_append_of_refused {g : Graph} {id last : Nat} {c : Char} {word : List Char}
    (h : g.follow id word = Except.ok (Arrival.refused c last)) (rest : List Char) :
    g.follow id (word ++ rest) = Except.ok (Arrival.refused c last) := by
  induction word generalizing id with
  | nil => cases h
  | cons d word ih =>
      rcases follow_cons_cases h with ⟨target, hnext, hword⟩ | ⟨hnext, hrefused⟩
      · rw [List.cons_append, follow_cons_of_taken hnext]
        exact ih hword
      · rw [List.cons_append, follow_cons_of_refused hnext, hrefused]

theorem exists_front_of_follow_refused {g : Graph} {id last : Nat} {c : Char}
    {word : List Char} (h : g.follow id word = Except.ok (Arrival.refused c last)) :
    exists front back : List Char,
      word = front ++ c :: back ∧
        g.follow id front = Except.ok (Arrival.standing last) ∧
        g.next last c = Except.ok none := by
  induction word generalizing id with
  | nil => cases h
  | cons d word ih =>
      rcases follow_cons_cases h with ⟨target, hnext, hword⟩ | ⟨hnext, hrefused⟩
      · rcases ih hword with ⟨front, back, hsplit, hfront, hlast⟩
        refine ⟨d :: front, back, ?_, ?_, hlast⟩
        · rw [hsplit, List.cons_append]
        · rw [follow_cons_of_taken hnext]
          exact hfront
      · cases hrefused
        exact ⟨[], word, rfl, rfl, hnext⟩

/-!
# Texts
-/

theorem run_of_follow_refused {g : Graph} {text : String} {c : Char} {last : Nat}
    (h : g.follow startId text.toList = Except.ok (Arrival.refused c last)) :
    g.run text = Except.ok ⟨[Record.rejected c last], false⟩ := by
  rw [run, h]
  rfl

theorem run_of_follow_standing {g : Graph} {text : String} {last : Nat} {answer : Bool}
    (h : g.follow startId text.toList = Except.ok (Arrival.standing last))
    (hanswer : g.canFinish last = Except.ok answer) :
    g.run text = Except.ok ⟨[], answer⟩ := by
  rw [run, h]
  show (g.canFinish last >>= fun accepted => pure (⟨[], accepted⟩ : Outcome)) = _
  rw [hanswer]
  rfl

end Graph

end PatternWalk
