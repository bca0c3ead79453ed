import Mathlib.Data.List.Lex
import PatternWalk.Graph.Run

/-!
# Event walks

A way through a graph is given by the positions of its targets in the lists of the nodes it
goes through.  An event walk of a character goes through optional nodes that do not accept
the character, each of them once, and ends where a look ahead must end: at a node that
accepts it or at a target without a node.  Ways are compared position by position, so that
the least event walk turns off to the earliest target that leads to an end.
-/

namespace PatternWalk

/-!
# Positions in order
-/

def Earlier (positions others : List Nat) : Prop :=
  List.Lex (fun k l => k < l) positions others

namespace Earlier

theorem nil_cons (k : Nat) (positions : List Nat) : Earlier [] (k :: positions) :=
  List.Lex.nil

theorem not_nil (positions : List Nat) : ¬ Earlier positions [] :=
  List.not_lex_nil

theorem cons_iff {k l : Nat} {positions others : List Nat} :
    Earlier (k :: positions) (l :: others) <-> k < l ∨ (k = l ∧ Earlier positions others) :=
  List.cons_lex_cons_iff

theorem trans {positions others further : List Nat} (h : Earlier positions others)
    (hothers : Earlier others further) : Earlier positions further :=
  List.lex_trans Nat.lt_trans h hothers

theorem append_iff (front : List Nat) {positions others : List Nat} :
    Earlier (front ++ positions) (front ++ others) <-> Earlier positions others := by
  induction front with
  | nil => exact Iff.rfl
  | cons k front ih =>
      rw [List.cons_append, List.cons_append, cons_iff, ih]
      constructor
      · intro h
        rcases h with hlt | ⟨_, hrest⟩
        · exact absurd hlt (Nat.lt_irrefl k)
        · exact hrest
      · intro h
        exact Or.inr ⟨rfl, h⟩

theorem eq_of_not {positions others : List Nat} (h : ¬ Earlier positions others)
    (hothers : ¬ Earlier others positions) : positions = others :=
  (List.Lex.trichotomous (fun k l : Nat => k < l)).trichotomous positions others h hothers

/-- A way that does not come before another one turns off at the same target, or it does not
come before the ways that turn off at the next one. -/
theorem cases_of_not {front rest positions : List Nat} {k : Nat}
    (h : ¬ Earlier positions (front ++ k :: rest)) :
    (exists others : List Nat, positions = front ++ k :: others ∧ ¬ Earlier others rest) ∨
      ¬ Earlier positions (front ++ [k + 1]) := by
  induction front generalizing positions with
  | nil =>
      cases positions with
      | nil => exact absurd (nil_cons k rest) h
      | cons l others =>
          rw [List.nil_append, cons_iff, not_or] at h
          by_cases hl : l = k
          · subst hl
            exact Or.inl ⟨others, rfl, fun hrest => h.right ⟨rfl, hrest⟩⟩
          · right
            rw [List.nil_append, cons_iff]
            intro hearlier
            rcases hearlier with hlt | ⟨_, hnil⟩
            · exact h.left (Nat.lt_of_le_of_ne (Nat.le_of_lt_succ hlt) hl)
            · exact not_nil others hnil
  | cons j front ih =>
      cases positions with
      | nil => exact absurd (nil_cons j _) h
      | cons l others =>
          rw [List.cons_append, cons_iff, not_or] at h
          by_cases hl : l = j
          · subst hl
            rcases ih (fun hrest => h.right ⟨rfl, hrest⟩) with ⟨further, rfl, hfurther⟩ | hnext
            · exact Or.inl ⟨further, rfl, hfurther⟩
            · right
              rw [List.cons_append, cons_iff, not_or]
              exact ⟨Nat.lt_irrefl l, fun hrest => hnext hrest.right⟩
          · right
            rw [List.cons_append, cons_iff, not_or]
            exact ⟨h.left, fun hrest => hl hrest.left⟩

end Earlier

namespace Graph

/-!
# Ways through a graph
-/

/-- From a node, the targets at the given positions lead over the given names, and no step
stays where it is. -/
inductive Trail (g : Graph) : Nat -> List Nat -> List Nat -> Prop where
  | nil (id : Nat) : Trail g id [] []
  | cons {id next k : Nat} {positions names : List Nat} :
      (g.targets id)[k]? = some next -> next ≠ id -> Trail g next positions names ->
        Trail g id (k :: positions) (next :: names)

namespace Trail

variable {g : Graph} {id : Nat} {positions names : List Nat}

theorem eq_nil (h : g.Trail id [] names) : names = [] := by
  cases h
  rfl

theorem lt_length {k : Nat} (h : g.Trail id (k :: positions) names) :
    k < (g.targets id).length := by
  cases h with
  | cons htarget _ _ =>
      rcases List.getElem?_eq_some_iff.mp htarget with ⟨hlt, _⟩
      exact hlt

theorem unique {others : List Nat} (h : g.Trail id positions names)
    (hothers : g.Trail id positions others) : names = others := by
  induction h generalizing others with
  | nil id =>
      cases hothers
      rfl
  | cons htarget _ _ ih =>
      cases hothers with
      | cons hsame _ hrest =>
          rw [htarget] at hsame
          cases hsame
          rw [ih hrest]

theorem snoc {next k : Nat} (h : g.Trail id positions names)
    (htarget : (g.targets (names.getLastD id))[k]? = some next)
    (hne : next ≠ names.getLastD id) : g.Trail id (positions ++ [k]) (names ++ [next]) := by
  induction h with
  | nil id => exact Trail.cons htarget hne (Trail.nil next)
  | cons hfirst hself _ ih =>
      rw [List.getLastD_cons] at htarget hne
      exact Trail.cons hfirst hself (ih htarget hne)

theorem exists_parts {front back : List Nat} (h : g.Trail id (front ++ back) names) :
    exists before behind : List Nat,
      names = before ++ behind ∧ g.Trail id front before ∧
        g.Trail (before.getLastD id) back behind := by
  induction front generalizing id names with
  | nil => exact ⟨[], names, rfl, Trail.nil id, h⟩
  | cons k front ih =>
      cases h with
      | cons htarget hne hrest =>
          rcases ih hrest with ⟨before, behind, rfl, hfront, hback⟩
          refine ⟨_ :: before, behind, rfl, Trail.cons htarget hne hfront, ?_⟩
          rw [List.getLastD_cons]
          exact hback

end Trail

/-!
# Events
-/

def Skips (g : Graph) (c : Char) (id : Nat) : Prop :=
  exists node : Node,
    g.node? id = some node ∧ node.state.isOptional = true ∧ node.state.accepts c = false

/-- There is no such node, or it accepts the character. -/
def Eventful (g : Graph) (c : Char) (id : Nat) : Prop :=
  g.node? id = none ∨
    exists node : Node, g.node? id = some node ∧ node.state.accepts c = true

/-- Positions lead from a node through different nodes that are skipped to a target that is
not.  The node itself may be among them, once. -/
def EventWalk (g : Graph) (c : Char) (id : Nat) (positions : List Nat) (target : Nat) : Prop :=
  exists passed : List Nat,
    g.Trail id positions (passed ++ [target]) ∧ passed.Nodup ∧
      (forall mid : Nat, mid ∈ passed -> g.Skips c mid) ∧ g.Eventful c target

structure LeastEventWalk (g : Graph) (c : Char) (id : Nat) (positions : List Nat)
    (target : Nat) : Prop where
  walk : g.EventWalk c id positions target
  least : forall (others : List Nat) (other : Nat),
    g.EventWalk c id others other -> ¬ Earlier others positions

section Events

variable {g : Graph} {c : Char} {id target : Nat} {positions : List Nat}

theorem not_eventWalk_nil : ¬ g.EventWalk c id [] target := by
  intro h
  rcases h with ⟨passed, htrail, _⟩
  cases (List.append_eq_nil_iff.mp htrail.eq_nil).right

theorem LeastEventWalk.unique {others : List Nat} {other : Nat}
    (h : g.LeastEventWalk c id positions target) (hother : g.LeastEventWalk c id others other) :
    positions = others ∧ target = other := by
  have hpositions : positions = others :=
    Earlier.eq_of_not (hother.least positions target h.walk) (h.least others other hother.walk)
  subst hpositions
  rcases h.walk with ⟨passed, htrail, _⟩
  rcases hother.walk with ⟨others, hsame, _⟩
  exact ⟨rfl, List.singleton_inj.mp (List.append_inj' (htrail.unique hsame) rfl).right⟩

theorem Skips.judge_eq_enter (h : g.Skips c id) :
    exists node : Node,
      g.node? id = some node ∧ (Plan.selecting c).judge node.state = Verdict.enter := by
  rcases h with ⟨node, hnode, hoptional, haccepts⟩
  refine ⟨node, hnode, ?_⟩
  simp only [Plan.selecting, haccepts, hoptional, if_neg Bool.false_ne_true, if_pos]

theorem skips_of_judge_enter {node : Node} (hnode : g.node? id = some node)
    (hjudge : (Plan.selecting c).judge node.state = Verdict.enter) : g.Skips c id := by
  refine ⟨node, hnode, ?_⟩
  cases haccepts : node.state.accepts c with
  | true =>
      simp only [Plan.selecting, haccepts, if_pos] at hjudge
      cases hjudge
  | false =>
      cases hoptional : node.state.isOptional with
      | true => exact ⟨rfl, rfl⟩
      | false =>
          simp only [Plan.selecting, haccepts, hoptional, if_neg Bool.false_ne_true] at hjudge
          cases hjudge

theorem eventful_of_judge_stop {node : Node} (hnode : g.node? id = some node)
    (hjudge : (Plan.selecting c).judge node.state = Verdict.stop) : g.Eventful c id := by
  refine Or.inr ⟨node, hnode, ?_⟩
  cases haccepts : node.state.accepts c with
  | true => rfl
  | false =>
      simp only [Plan.selecting, haccepts, if_neg Bool.false_ne_true] at hjudge
      split at hjudge <;> cases hjudge

theorem Eventful.not_skips (h : g.Eventful c id) : ¬ g.Skips c id := by
  intro hskips
  rcases hskips with ⟨node, hnode, _, hnot⟩
  rcases h with hnone | ⟨other, hother, haccepts⟩
  · rw [hnode] at hnone
    cases hnone
  · rw [hnode] at hother
    cases hother
    rw [hnot] at haccepts
    cases haccepts

theorem Eventful.not_idle (h : g.Eventful c id) (entered : Marks) :
    ¬ Search.Idle g (Plan.selecting c) entered id := by
  rcases h with hnone | ⟨node, hnode, haccepts⟩
  · exact Search.not_idle_of_missing hnone
  · exact Search.not_idle_of_stop hnode (if_pos haccepts)

theorem Skips.mem_of_idle (h : g.Skips c id) {entered : Marks}
    (hidle : Search.Idle g (Plan.selecting c) entered id) : id ∈ entered := by
  rcases h.judge_eq_enter with ⟨node, hnode, hjudge⟩
  apply Decidable.byContradiction
  intro hnew
  exact Search.not_idle_of_new hnode hjudge hnew hidle

end Events

end Graph
end PatternWalk
