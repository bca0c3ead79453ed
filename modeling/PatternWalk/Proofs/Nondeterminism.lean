import PatternWalk.Graph.Reading
import PatternWalk.Graph.Walked

/-!
# One way of reading and all ways

A run of a graph reads the text in one of the ways the graph can be read, so a text that
is accepted is admitted.  Where a character never leads to more than one node, the run
has no choice to make, and what is admitted is accepted.  Nothing is asked of the graph
but that it can be walked: its wrappers may point at each other, and anything may point
back at the start.
-/

namespace PatternWalk

namespace Graph

variable {g : Graph} {id : Nat} {c : Char}

/-!
# One character
-/

theorem leads_of_next {target : Nat} (h : g.next id c = Except.ok (some target)) :
    g.Leads id c target := by
  rcases next_cases h with ⟨other, hother, hselect⟩ | ⟨_, node, hnode, hchoice⟩
  · cases hother
    rcases ahead_of_select hselect with ⟨hahead, found, hfound, haccepts⟩
    exact ⟨found, hfound, haccepts, Or.inl hahead⟩
  · by_cases hkeeps : (node.state.isLoop && node.state.accepts c) = true
    · rw [if_pos hkeeps] at hchoice
      cases hchoice
      rcases Bool.and_eq_true_iff.mp hkeeps with ⟨hloop, haccepts⟩
      exact ⟨node, hnode, haccepts, Or.inr ⟨rfl, hloop⟩⟩
    · rw [if_neg hkeeps] at hchoice
      cases hchoice

theorem not_leads_of_next_none (h : g.next id c = Except.ok none) (target : Nat) :
    ¬ g.Leads id c target := by
  rcases next_cases h with ⟨other, hother, _⟩ | ⟨hselect, node, hnode, hchoice⟩
  · cases hother
  · intro hleads
    rcases hleads with ⟨found, hfound, haccepts, hahead | ⟨rfl, hloop⟩⟩
    · exact not_accepts_of_select_none hselect hahead hfound haccepts
    · rw [hnode] at hfound
      cases hfound
      rw [hloop, haccepts, Bool.and_self, if_pos rfl] at hchoice
      cases hchoice

/-!
# A whole text
-/

theorem reads_of_follow {word : List Char} {last : Nat}
    (h : g.follow id word = Except.ok (Arrival.standing last)) : g.Reads id word last := by
  induction word generalizing id with
  | nil =>
      cases h
      exact Reads.nil _
  | cons c word ih =>
      rcases follow_cons_cases h with ⟨target, hnext, hword⟩ | ⟨_, hrefused⟩
      · exact Reads.cons (leads_of_next hnext) (ih hword)
      · cases hrefused

/-- Where a character leads to one node at most, there is one way of reading a word, and
the run takes it. -/
theorem follow_of_reads (hintact : g.Intact) (hdeterministic : g.Deterministic)
    {word : List Char} {last : Nat} (h : g.Reads id word last) (hid : g.Reaches startId id) :
    g.follow id word = Except.ok (Arrival.standing last) := by
  induction h with
  | nil id => rfl
  | @cons id mid last c word hleads _ ih =>
      rcases hintact.exists_next hid c with ⟨choice, hnext, _⟩
      cases choice with
      | none => exact absurd hleads (not_leads_of_next_none hnext mid)
      | some target =>
          have htarget : target = mid :=
            hdeterministic id c target mid hid (leads_of_next hnext) hleads
          subst htarget
          rw [follow_cons_of_taken hnext]
          exact ih (hleads.reaches hid)

theorem accepts_of_follow_standing {text : String} {last : Nat} {answer : Bool}
    (h : g.follow startId text.toList = Except.ok (Arrival.standing last))
    (hanswer : g.canFinish last = Except.ok answer) : g.accepts text = Except.ok answer := by
  rw [accepts, run_of_follow_standing h hanswer]
  rfl

theorem accepts_of_follow_refused {text : String} {last : Nat}
    (h : g.follow startId text.toList = Except.ok (Arrival.refused c last)) :
    g.accepts text = Except.ok false := by
  rw [accepts, run_of_follow_refused h]
  rfl

/-- A graph that can be walked has an answer for every text, and accepts only what it
admits.  If no character ever leads to two nodes, it accepts exactly what it admits. -/
theorem admits_of_accepts {ids : List Nat} (hwalk : g.walk = Except.ok ids) (text : String) :
    exists answer : Bool,
      g.accepts text = Except.ok answer ∧
        (answer = true -> g.Admits text) ∧
        (g.Deterministic -> (answer = true <-> g.Admits text)) := by
  have hintact := intact_of_walk hwalk
  have hstart : g.Reaches startId startId := Reaches.refl g.startId_lt_size
  rcases hintact.exists_follow hstart text.toList with ⟨arrival, hfollow, harrival⟩
  cases arrival with
  | refused c last =>
      refine ⟨false, accepts_of_follow_refused hfollow, nofun, ?_⟩
      intro hdeterministic
      refine iff_of_false Bool.false_ne_true ?_
      intro hadmits
      rcases hadmits with ⟨finish, hreads, _⟩
      rw [follow_of_reads hintact hdeterministic hreads hstart] at hfollow
      cases hfollow
  | standing last =>
      rcases hintact.exists_canFinish (harrival last rfl) with ⟨answer, hanswer⟩
      have hadmits : answer = true -> g.Admits text := fun h =>
        ⟨last, reads_of_follow hfollow, (eq_true_iff_finishes hanswer).mp h⟩
      refine ⟨answer, accepts_of_follow_standing hfollow hanswer, hadmits, ?_⟩
      intro hdeterministic
      refine ⟨hadmits, ?_⟩
      intro h
      rcases h with ⟨finish, hreads, hfinishes⟩
      rw [follow_of_reads hintact hdeterministic hreads hstart] at hfollow
      cases hfollow
      exact (eq_true_iff_finishes hanswer).mpr hfinishes

/-- Two wrappers that point at each other, behind the start. -/
def circling : Graph where
  nodes := #[
    ⟨State.start, [1]⟩,
    ⟨State.loop Quantifier.star (Atom.char 'a'), [2, 3]⟩,
    ⟨State.loop Quantifier.star (Atom.char 'b'), [1]⟩,
    ⟨State.final, []⟩]
  nonempty := by decide

theorem startId_not_mem_targets_circling (mid : Nat) : ¬ startId ∈ circling.targets mid := by
  rcases Nat.lt_or_ge mid circling.size with hlt | hge
  · have hmids : forall mid : Nat, mid < 4 -> ¬ startId ∈ circling.targets mid := by decide
    exact hmids mid hlt
  · rw [targets_eq_nil_of_size_le hge]
    exact nofun

theorem eq_of_leads_circling {target : Nat} (h : circling.Leads id c target) :
    (target = 1 ∧ c = 'a') ∨ (target = 2 ∧ c = 'b') := by
  rcases h with ⟨node, hnode, haccepts, hway⟩
  match target with
  | 0 =>
      cases hnode
      rcases hway with ⟨mid, _, hmem, _⟩ | ⟨_, hloop⟩
      · exact absurd hmem (startId_not_mem_targets_circling mid)
      · cases hloop
  | 1 =>
      cases hnode
      exact Or.inl ⟨rfl, (of_decide_eq_true haccepts).symm⟩
  | 2 =>
      cases hnode
      exact Or.inr ⟨rfl, (of_decide_eq_true haccepts).symm⟩
  | 3 =>
      cases hnode
      cases haccepts
  | n + 4 =>
      rw [node?_eq_none_iff.mpr (Nat.le_add_left 4 n)] at hnode
      cases hnode

theorem deterministic_circling : circling.Deterministic := by
  intro id c target other _ htarget hother
  rcases eq_of_leads_circling htarget with ⟨rfl, rfl⟩ | ⟨rfl, rfl⟩
  · rcases eq_of_leads_circling hother with ⟨rfl, _⟩ | ⟨_, hc⟩
    · rfl
    · exact absurd hc (by decide)
  · rcases eq_of_leads_circling hother with ⟨_, hc⟩ | ⟨rfl, _⟩
    · exact absurd hc (by decide)
    · rfl

theorem admits_of_accepts_circling :
    circling.walk = Except.ok [0, 1, 2, 3] ∧ circling.Deterministic ∧
      circling.Admits "abba" ∧ ¬ circling.Admits "abc" := by
  have hwalk : circling.walk = Except.ok [0, 1, 2, 3] := by cbv
  have hturns : circling.accepts "abba" = Except.ok true := by cbv
  have hother : circling.accepts "abc" = Except.ok false := by cbv
  refine ⟨hwalk, deterministic_circling, ?_, ?_⟩
  · rcases admits_of_accepts hwalk "abba" with ⟨answer, hanswer, hadmits, _⟩
    rw [hturns] at hanswer
    cases hanswer
    exact hadmits rfl
  · rcases admits_of_accepts hwalk "abc" with ⟨answer, hanswer, _, hexactly⟩
    rw [hother] at hanswer
    cases hanswer
    intro hadmits
    exact Bool.false_ne_true ((hexactly deterministic_circling).mpr hadmits)

end Graph
end PatternWalk
