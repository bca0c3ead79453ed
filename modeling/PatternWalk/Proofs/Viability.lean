import PatternWalk.Proofs.Simulation

/-!
# Refusing as early as possible

A text is viable for a pattern when it can be completed to a text the pattern accepts.
A run that is refused is refused in the same way however the text goes on, and a run
that is not refused stands in a place of the row from which one character for each item
ahead completes the text.  So a text is refused exactly when it is not viable, and it
is refused at the first character behind which nothing can complete it any more,
although a run never goes back on a choice.
-/

namespace PatternWalk

def Text.upTo (text : String) (k : Nat) : String :=
  String.ofList (text.toList.take (k + 1))

@[simp] theorem Text.toList_upTo (text : String) (k : Nat) :
    (upTo text k).toList = text.toList.take (k + 1) :=
  String.toList_ofList

/-!
# Completing a run
-/

namespace Graph.Stands

variable {g : Graph} {id : Nat} {held : Option Item} {ahead : List Item}

theorem exists_finish_of_fits (h : g.Stands id held ahead) {word : List Char}
    (hfits : Item.fits held ahead word = true) :
    exists last : Nat,
      g.follow id word = Except.ok (Arrival.standing last) ∧
        g.canFinish last = Except.ok true := by
  rcases h.follow word with ⟨last, kept, left, hfollow, hstands, hleft⟩ | ⟨c, last, _, hnot⟩
  · refine ⟨last, hfollow, ?_⟩
    rw [hstands.canFinish, <- hleft, hfits]
  · rw [hfits] at hnot
    cases hnot

/-- A run that has not been refused can be completed. -/
theorem exists_completion (h : g.Stands id held ahead) {word : List Char} {last : Nat}
    (hfollow : g.follow id word = Except.ok (Arrival.standing last)) :
    exists (rest : List Char) (finish : Nat),
      g.follow id (word ++ rest) = Except.ok (Arrival.standing finish) ∧
        g.canFinish finish = Except.ok true := by
  rcases h.follow word with ⟨place, kept, left, hplace, hstands, _⟩ | ⟨c, place, hplace, _⟩
  · rw [hfollow] at hplace
    cases hplace
    rcases hstands.exists_finish_of_fits (Item.fits_samples kept left) with
      ⟨finish, hfinish, hcan⟩
    refine ⟨Item.samples left, finish, ?_, hcan⟩
    rw [follow_append_of_standing hfollow]
    exact hfinish
  · rw [hfollow] at hplace
    cases hplace

end Graph.Stands

namespace Pattern

/-!
# Viable texts
-/

/-- Some extension of the text is accepted. -/
def Viable (pattern : Pattern) (text : String) : Prop :=
  exists rest : String, pattern.graph.accepts (text ++ rest) = Except.ok true

/-- No extension of the text up to this place is accepted, and the place is the first
of this kind. -/
structure DiesAt (pattern : Pattern) (text : String) (k : Nat) : Prop where
  dead : ¬ pattern.Viable (Text.upTo text k)
  first : forall j : Nat, j < k -> pattern.Viable (Text.upTo text j)

theorem viable_of_standing {pattern : Pattern} {text : String} {last : Nat}
    (h : pattern.graph.follow Graph.startId text.toList =
      Except.ok (Arrival.standing last)) : pattern.Viable text := by
  rcases pattern.exists_items with ⟨items, _, hstands⟩
  rcases hstands.exists_completion h with ⟨rest, finish, hfollow, hcan⟩
  refine ⟨String.ofList rest, ?_⟩
  have htext : (text ++ String.ofList rest).toList = text.toList ++ rest := by
    rw [String.toList_append, String.toList_ofList]
  rw [<- htext] at hfollow
  rw [Graph.accepts, Graph.run_of_follow_standing hfollow hcan]
  rfl

theorem run_append_of_refused {pattern : Pattern} {text : String} {c : Char} {last : Nat}
    (h : pattern.graph.follow Graph.startId text.toList =
      Except.ok (Arrival.refused c last)) (rest : String) :
    pattern.graph.run (text ++ rest) = Except.ok ⟨[Record.rejected c last], false⟩ := by
  apply Graph.run_of_follow_refused
  rw [String.toList_append]
  exact Graph.follow_append_of_refused h rest.toList

theorem not_viable_of_refused {pattern : Pattern} {text : String} {c : Char} {last : Nat}
    (h : pattern.graph.follow Graph.startId text.toList =
      Except.ok (Arrival.refused c last)) : ¬ pattern.Viable text := by
  intro hviable
  rcases hviable with ⟨rest, haccepts⟩
  rw [Graph.accepts, run_append_of_refused h] at haccepts
  cases haccepts

theorem follow_cases (pattern : Pattern) (word : List Char) :
    (exists (last : Nat) (answer : Bool),
      pattern.graph.follow Graph.startId word = Except.ok (Arrival.standing last) ∧
        pattern.graph.canFinish last = Except.ok answer) ∨
      exists (c : Char) (last : Nat),
        pattern.graph.follow Graph.startId word = Except.ok (Arrival.refused c last) := by
  rcases pattern.exists_items with ⟨items, _, hstands⟩
  rcases hstands.follow word with ⟨last, _, left, hfollow, hlast, _⟩ | ⟨c, last, hfollow, _⟩
  · exact Or.inl ⟨last, left.all Item.isStarred, hfollow, hlast.canFinish⟩
  · exact Or.inr ⟨c, last, hfollow⟩

/-!
# The place where a text dies
-/

theorem exists_standing_of_prefix {pattern : Pattern} {word rest : List Char} {last : Nat}
    (h : pattern.graph.follow Graph.startId (word ++ rest) =
      Except.ok (Arrival.standing last)) :
    exists place : Nat,
      pattern.graph.follow Graph.startId word = Except.ok (Arrival.standing place) := by
  rcases pattern.follow_cases word with ⟨place, _, hstanding, _⟩ | ⟨c, place, hrefused⟩
  · exact ⟨place, hstanding⟩
  · rw [Graph.follow_append_of_refused hrefused] at h
    cases h

theorem exists_diesAt_of_refused {pattern : Pattern} {text : String} {c : Char} {last : Nat}
    (h : pattern.graph.follow Graph.startId text.toList =
      Except.ok (Arrival.refused c last)) :
    exists k : Nat,
      pattern.DiesAt text k ∧ text.toList[k]? = some c ∧
        pattern.graph.follow Graph.startId (Text.upTo text k).toList =
          Except.ok (Arrival.refused c last) := by
  rcases Graph.exists_front_of_follow_refused h with ⟨front, back, htext, hfront, hnext⟩
  have hupTo : (Text.upTo text front.length).toList = front ++ [c] := by
    rw [Text.toList_upTo, htext, List.take_length_add_append]
    rfl
  have hrefused : pattern.graph.follow Graph.startId (Text.upTo text front.length).toList =
      Except.ok (Arrival.refused c last) := by
    rw [hupTo, Graph.follow_append_of_standing hfront]
    exact Graph.follow_cons_of_refused hnext []
  refine ⟨front.length, ⟨not_viable_of_refused hrefused, ?_⟩, ?_, hrefused⟩
  · intro j hj
    have hparts : front = (Text.upTo text j).toList ++ front.drop (j + 1) := by
      rw [Text.toList_upTo, htext, List.take_append_of_le_length hj, List.take_append_drop]
    rw [hparts] at hfront
    rcases exists_standing_of_prefix hfront with ⟨place, hplace⟩
    exact viable_of_standing hplace
  · rw [htext, List.getElem?_append_right (Nat.le_refl _), Nat.sub_self]
    rfl

/-- A text is turned away exactly when no extension of it is accepted.  It leaves one
record then, of the first character behind which this is so, and every extension of
what stands up to there leaves the same record and is not accepted.  A text that is not
turned away leaves no record. -/
theorem rejected_iff_not_viable (pattern : Pattern) (text : String) :
    exists outcome : Outcome,
      pattern.graph.run text = Except.ok outcome ∧
        ((exists (c : Char) (id : Nat), Record.rejected c id ∈ outcome.records) <->
          ¬ pattern.Viable text) ∧
        ((outcome.records = [] ∧ pattern.Viable text) ∨
          exists (k : Nat) (c : Char) (id : Nat),
            pattern.DiesAt text k ∧ text.toList[k]? = some c ∧
              outcome = ⟨[Record.rejected c id], false⟩ ∧
              forall rest : String,
                pattern.graph.run (Text.upTo text k ++ rest) =
                  Except.ok ⟨[Record.rejected c id], false⟩) := by
  rcases pattern.follow_cases text.toList with
    ⟨last, answer, hstanding, hanswer⟩ | ⟨c, last, hrefused⟩
  · have hviable := viable_of_standing hstanding
    refine ⟨_, Graph.run_of_follow_standing hstanding hanswer, ?_, Or.inl ⟨rfl, hviable⟩⟩
    constructor
    · intro h
      rcases h with ⟨c, id, hmem⟩
      cases hmem
    · intro hnot
      exact absurd hviable hnot
  · have hdead := not_viable_of_refused hrefused
    rcases exists_diesAt_of_refused hrefused with ⟨k, hdies, hc, hupTo⟩
    refine ⟨_, Graph.run_of_follow_refused hrefused, ?_, Or.inr ⟨k, c, last, hdies, hc, rfl, ?_⟩⟩
    · exact iff_of_true ⟨c, last, List.mem_singleton.mpr rfl⟩ hdead
    · exact run_append_of_refused hupTo

end Pattern

end PatternWalk
