import PatternWalk.Graph.Run
import PatternWalk.Pattern.SinglePath
import PatternWalk.Proofs.Row

/-!
# Looking ahead along a row

In a row of nodes there is only one way ahead.  A search that has come to a place
of the row therefore looks at the nodes from there on one after the other, goes on
as long as they are entered, and ends at the first one that is not.  This holds of
every plan, whatever its discipline: what it leaves behind on the agenda has no
target left.
-/

namespace PatternWalk
namespace Search

/-!
# Spent scans
-/

def Spent (agenda : List Scan) : Prop :=
  forall scan : Scan, scan ∈ agenda -> scan.pending = []

theorem spent_nil : Spent [] :=
  List.forall_mem_nil _

theorem Spent.cons {scan : Scan} {agenda : List Scan} (hscan : scan.pending = [])
    (hagenda : Spent agenda) : Spent (scan :: agenda) :=
  List.forall_mem_cons.mpr ⟨hscan, hagenda⟩

theorem run_spent_append {g : Graph} {plan : Plan} {entered : Marks} {agenda : List Scan}
    (hagenda : Spent agenda) (rest : List Scan) :
    run g plan ⟨entered, agenda ++ rest⟩ = run g plan ⟨entered, rest⟩ := by
  induction agenda with
  | nil => rfl
  | cons scan agenda ih =>
      rcases List.forall_mem_cons.mp hagenda with ⟨hscan, hrest⟩
      have hspent : scan = ⟨scan.id, []⟩ := by
        rw [<- hscan]
      rw [hspent, List.cons_append, run_leave]
      exact ih hrest

theorem run_spent {g : Graph} {plan : Plan} {entered : Marks} {agenda : List Scan}
    (hagenda : Spent agenda) :
    run g plan ⟨entered, agenda⟩ = ⟨entered, Ending.exhausted⟩ := by
  have hrun : run g plan ⟨entered, agenda ++ []⟩ = run g plan ⟨entered, []⟩ :=
    run_spent_append hagenda []
  rw [List.append_nil] at hrun
  rw [hrun, run_nil]

theorem exists_place_eq (discipline : Discipline) {rest : List Scan} (hrest : Spent rest)
    (id : Nat) (new : Scan) :
    exists front back : List Scan,
      discipline.place ⟨id, []⟩ new rest = front ++ new :: back ∧ Spent front ∧ Spent back := by
  have hscan : Spent (⟨id, []⟩ :: rest) := hrest.cons rfl
  cases discipline with
  | atOnce => exact ⟨[], ⟨id, []⟩ :: rest, rfl, spent_nil, hscan⟩
  | latestNext => exact ⟨[⟨id, []⟩], rest, rfl, spent_nil.cons rfl, hrest⟩
  | inTurn => exact ⟨⟨id, []⟩ :: rest, [], rfl, hscan, spent_nil⟩

end Search

/-!
# Searching a row
-/

/-- What a search finds that has come to a place of a row, given the items from
that place on. -/
def Plan.along (plan : Plan) : Marks -> Nat -> List Item -> Finding
  | entered, id, [] =>
      match plan.judge State.final with
      | Verdict.stop => ⟨entered, Ending.stopped id⟩
      | Verdict.enter => ⟨entered.add id, Ending.exhausted⟩
      | Verdict.pass => ⟨entered, Ending.exhausted⟩
  | entered, id, item :: rest =>
      match plan.judge item.state with
      | Verdict.stop => ⟨entered, Ending.stopped id⟩
      | Verdict.enter => plan.along (entered.add id) (id + 1) rest
      | Verdict.pass => ⟨entered, Ending.exhausted⟩

namespace Search

theorem run_node_targets {g : Graph} {plan : Plan} {entered : Marks} {rest : List Scan}
    (item : Item) (id : Nat) :
    run g plan ⟨entered, ⟨id, (item.node id).targets⟩ :: rest⟩ =
      run g plan ⟨entered, ⟨id, [id + 1]⟩ :: rest⟩ := by
  unfold Item.node
  cases item.isRepeated with
  | false => rfl
  | true => exact run_self

theorem run_row {g : Graph} {plan : Plan} {items : List Item} {id source : Nat}
    {entered : Marks} {agenda : List Scan} (hrow : g.HasRow id items) (hsource : source < id)
    (hentered : forall other : Nat, other ∈ entered -> other < id) (hagenda : Spent agenda) :
    run g plan ⟨entered, ⟨source, [id]⟩ :: agenda⟩ = plan.along entered id items := by
  have hne : id ≠ source := Nat.ne_of_gt hsource
  have hnew : ¬ id ∈ entered := fun h => Nat.lt_irrefl id (hentered id h)
  have hdone : Spent (⟨source, []⟩ :: agenda) := hagenda.cons rfl
  cases items with
  | nil =>
      have hnode : g.node? id = some ⟨State.final, []⟩ := hrow
      unfold Plan.along
      cases hjudge : plan.judge State.final with
      | stop => exact run_stop hne hnode hjudge
      | pass =>
          rw [run_pass hnode hjudge]
          exact run_spent hdone
      | enter =>
          rcases exists_place_eq plan.discipline hagenda source ⟨id, []⟩ with
            ⟨front, back, hplace, hfront, hback⟩
          rw [run_enter hne hnode hjudge hnew, hplace, run_spent_append hfront]
          exact run_spent (hback.cons rfl)
  | cons item rest =>
      have hnode : g.node? id = some (item.node id) := hrow.left
      unfold Plan.along
      cases hjudge : plan.judge item.state with
      | stop => exact run_stop hne hnode hjudge
      | pass =>
          rw [run_pass hnode hjudge]
          exact run_spent hdone
      | enter =>
          have hadded : forall other : Nat, other ∈ entered.add id -> other < id + 1 := by
            intro other hother
            cases Marks.mem_add.mp hother with
            | inl hid => exact Nat.lt_succ_of_le (Nat.le_of_eq hid)
            | inr hold => exact Nat.lt_succ_of_lt (hentered other hold)
          rcases exists_place_eq plan.discipline hagenda source ⟨id, (item.node id).targets⟩ with
            ⟨front, back, hplace, hfront, hback⟩
          rw [run_enter hne hnode hjudge hnew, hplace, run_spent_append hfront, run_node_targets]
          exact run_row hrow.right (Nat.lt_succ_self id) hadded hback

end Search

/-!
# Standing in a row
-/

def Item.heldNode (held : Option Item) (id : Nat) : Node :=
  match held with
  | none => ⟨State.start, [id + 1]⟩
  | some item => item.node id

namespace Graph

/-- A run stands in the node of what is held, with the row of what is ahead behind it. -/
def Stands (g : Graph) (id : Nat) (held : Option Item) (ahead : List Item) : Prop :=
  g.node? id = some (Item.heldNode held id) ∧ g.HasRow (id + 1) ahead

theorem stands_lay (items : List Item) : (lone.lay items).Stands startId none items := by
  constructor
  · exact node?_lay_tail lone items
  · exact hasRow_lay lone items

namespace Stands

variable {g : Graph} {id : Nat} {held : Option Item} {ahead : List Item}

theorem run_ahead (h : g.Stands id held ahead) (plan : Plan) :
    (aheadSearch id (Item.heldNode held id)).run g plan =
      plan.along Marks.empty (id + 1) ahead := by
  have hrow : Search.run g plan ⟨Marks.empty, [⟨id, [id + 1]⟩]⟩ =
      plan.along Marks.empty (id + 1) ahead := by
    apply Search.run_row h.right (Nat.lt_succ_self id)
    · intro other hother
      exact absurd hother (Marks.not_mem_empty other)
    · exact Search.spent_nil
  cases held with
  | none => exact hrow
  | some item => exact (Search.run_node_targets item id).trans hrow

theorem of_append {item : Item} {front back : List Item}
    (h : g.Stands startId none (front ++ item :: back)) :
    g.Stands (front.length + 1) (some item) back := by
  have hrow := h.right.of_append
  have hplace : startId + 1 + front.length = front.length + 1 :=
    Nat.add_comm 1 front.length
  rw [hplace] at hrow
  exact hrow

end Stands

end Graph

/-!
# Selecting and finishing in a row
-/

namespace Plan

theorem judge_selecting (c : Char) (item : Item) :
    (selecting c).judge item.state =
      if item.accepts c then Verdict.stop
      else if item.isStarred then Verdict.enter
      else Verdict.pass := by
  simp only [selecting, Item.accepts_state, Item.isOptional_state]

theorem judge_finishing (item : Item) :
    finishing.judge item.state = if item.isStarred then Verdict.enter else Verdict.pass := by
  simp only [finishing, if_neg item.state_ne_final, Item.isOptional_state]

/-- Selecting along a row finds the item that takes the character. -/
theorem ending_along_selecting {g : Graph} {c : Char} {items : List Item} {id : Nat}
    (hrow : g.HasRow id items) (entered : Marks) :
    match Item.taker? c items with
    | some (item, behind) =>
        exists target : Nat,
          ((selecting c).along entered id items).ending = Ending.stopped target ∧
            g.Stands target (some item) behind
    | none => ((selecting c).along entered id items).ending = Ending.exhausted := by
  induction items generalizing id entered with
  | nil => rfl
  | cons item rest ih =>
      unfold along Item.taker?
      rw [judge_selecting]
      cases item.accepts c with
      | true => exact ⟨id, rfl, hrow⟩
      | false =>
          cases item.isStarred with
          | true => exact ih hrow.right (entered.add id)
          | false => rfl

theorem ending_along_finishing (items : List Item) (entered : Marks) (id : Nat) :
    (finishing.along entered id items).ending =
      if items.all Item.isStarred then Ending.stopped (id + items.length)
      else Ending.exhausted := by
  induction items generalizing id entered with
  | nil => rfl
  | cons item rest ih =>
      unfold along
      rw [judge_finishing, List.all_cons]
      cases item.isStarred with
      | false => rfl
      | true =>
          have hrest := ih (entered.add id) (id + 1)
          rw [Nat.add_assoc, Nat.add_comm 1] at hrest
          exact hrest

end Plan

end PatternWalk
