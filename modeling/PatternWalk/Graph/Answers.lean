import PatternWalk.Graph.Mirror
import PatternWalk.Graph.Run
import PatternWalk.Graph.Walk

/-!
# The answers of a mirror

Whatever a graph is asked, a graph that mirrors it gives the same answer under the other
names.  If the one misses a node, so does the other, and what it misses is the same
target under its other name.
-/

namespace PatternWalk

/-!
# Other names
-/

def Record.rename (rename : Nat -> Nat) : Record -> Record
  | appended tail new state => appended (rename tail) (rename new) state
  | wrapped id state => wrapped (rename id) state
  | completed size => completed size
  | rejected c id => rejected c (rename id)

def Arrival.rename (rename : Nat -> Nat) : Arrival -> Arrival
  | standing id => standing (rename id)
  | refused c id => refused c (rename id)

def Outcome.rename (rename : Nat -> Nat) (outcome : Outcome) : Outcome where
  records := outcome.records.map (Record.rename rename)
  accepted := outcome.accepted

@[simp] theorem Record.rename_id (record : Record) : record.rename id = record := by
  cases record <;> rfl

@[simp] theorem Outcome.rename_id (outcome : Outcome) : outcome.rename id = outcome := by
  have hrecords : outcome.records.map (Record.rename id) = outcome.records :=
    List.map_id'' Record.rename_id outcome.records
  rw [Outcome.rename, hrecords]

namespace Graph

/-!
# Related answers
-/

/-- Two graphs give related values, or both of them miss a node, the second one what the
first one misses under its other name. -/
inductive Answers (g h : Graph) (rename : Nat -> Nat) {α β : Type} (related : α -> β -> Prop) :
    Except MissingNode α -> Except MissingNode β -> Prop where
  | value {a : α} {b : β} : related a b -> Answers g h rename related (Except.ok a) (Except.ok b)
  | missing (id : Nat) :
      Answers g h rename related (Except.error ⟨g.size, id⟩) (Except.error ⟨h.size, rename id⟩)

theorem Answers.bind {g h : Graph} {rename : Nat -> Nat} {α β γ δ : Type}
    {related : α -> β -> Prop} {next : γ -> δ -> Prop} {answer : Except MissingNode α}
    {image : Except MissingNode β} {use : α -> Except MissingNode γ}
    {useImage : β -> Except MissingNode δ} (hanswer : Answers g h rename related answer image)
    (huse : forall (a : α) (b : β), related a b -> Answers g h rename next (use a) (useImage b)) :
    Answers g h rename next (answer >>= use) (image >>= useImage) := by
  cases hanswer with
  | value hrelated => exact huse _ _ hrelated
  | missing id => exact Answers.missing id

theorem Answers.eq {g h : Graph} {α : Type} {answer image : Except MissingNode α}
    (hanswer : Answers g h id (fun a b => b = a) answer image) (hsize : h.size = g.size) :
    image = answer := by
  cases hanswer with
  | value heq => rw [heq]
  | missing target => rw [hsize, id_eq]

theorem Answers.exists_image {g h : Graph} {rename : Nat -> Nat} {α β : Type}
    {related : α -> β -> Prop} {a : α} {image : Except MissingNode β}
    (hanswer : Answers g h rename related (Except.ok a) image) :
    exists b : β, image = Except.ok b ∧ related a b := by
  cases hanswer with
  | value hrelated => exact ⟨_, rfl, hrelated⟩

namespace Mirror

variable {g h : Graph} {rename : Nat -> Nat} {inside : Nat -> Prop} {id : Nat}

def Named (rename : Nat -> Nat) (inside : Nat -> Prop) (id image : Nat) : Prop :=
  inside id ∧ image = rename id

theorem node (hmirror : g.Mirror h rename inside) (hid : inside id) :
    Answers g h rename
      (fun node image => g.node? id = some node ∧ h.node? (rename id) = some image)
      (g.node id) (h.node (rename id)) := by
  unfold Graph.node
  cases hnode : g.node? id with
  | none =>
      rw [(hmirror.node?_eq_none_iff hid).mpr hnode]
      exact Answers.missing id
  | some node =>
      rcases hmirror.exists_node? hid hnode with ⟨image, himage, _⟩
      rw [himage]
      exact Answers.value ⟨rfl, rfl⟩

/-!
# Looking ahead
-/

theorem aheadSearch (hmirror : g.Mirror h rename inside) (plan : Plan) (hid : inside id)
    {node image : Node} (hnode : g.node? id = some node)
    (himage : h.node? (rename id) = some image) :
    ((aheadSearch id node).run g plan).Mirrors rename
      ((Graph.aheadSearch (rename id) image).run h plan) := by
  rcases hmirror.exists_node? hid hnode with ⟨other, hother, _, htargets⟩
  rw [himage] at hother
  cases hother
  apply Search.run_mirrors hmirror (within_aheadSearch hnode hid)
  refine ⟨fun other hother => absurd hother (Marks.not_mem_empty other), rfl, ?_⟩
  exact List.Forall₂.cons ⟨rfl, htargets.mono (fun _ => Or.inl)⟩ List.Forall₂.nil

theorem select (hmirror : g.Mirror h rename inside) (hid : inside id) (c : Char) :
    Answers g h rename (Option.Rel (Named rename inside)) (g.select id c)
      (h.select (rename id) c) := by
  unfold Graph.select
  apply (hmirror.node hid).bind
  intro node image hnodes
  rcases hnodes with ⟨hnode, himage⟩
  have hfinding := hmirror.aheadSearch (Plan.selecting c) hid hnode himage
  rw [hfinding.ending]
  cases hending : ((Graph.aheadSearch id node).run g (Plan.selecting c)).ending with
  | stopped target =>
      have hwithin := Search.run_within (hmirror.keepsTo (Plan.selecting c))
        (within_aheadSearch hnode hid)
      rcases hwithin.stopped target hending with ⟨mid, _, hmid, htarget, _⟩
      exact Answers.value (Option.Rel.some ⟨hmirror.closed mid target hmid htarget, rfl⟩)
  | missing target => exact Answers.missing target
  | exhausted => exact Answers.value Option.Rel.none

theorem canFinish (hmirror : g.Mirror h rename inside) (hid : inside id) :
    Answers g h rename (fun answer image => image = answer) (g.canFinish id)
      (h.canFinish (rename id)) := by
  unfold Graph.canFinish
  apply (hmirror.node hid).bind
  intro node image hnodes
  rcases hnodes with ⟨hnode, himage⟩
  have hfinding := hmirror.aheadSearch Plan.finishing hid hnode himage
  rw [hfinding.ending]
  cases ((Graph.aheadSearch id node).run g Plan.finishing).ending with
  | stopped target => exact Answers.value rfl
  | missing target => exact Answers.missing target
  | exhausted => exact Answers.value rfl

/-!
# Runs
-/

theorem next (hmirror : g.Mirror h rename inside) (hid : inside id) (c : Char) :
    Answers g h rename (Option.Rel (Named rename inside)) (g.next id c)
      (h.next (rename id) c) := by
  unfold Graph.next
  apply (hmirror.select hid c).bind
  intro choice image hchoice
  cases hchoice with
  | some hnamed => exact Answers.value (Option.Rel.some hnamed)
  | none =>
      apply (hmirror.node hid).bind
      intro node image hnodes
      rcases hmirror.exists_node? hid hnodes.left with ⟨other, hother, hstate, _⟩
      rw [hnodes.right] at hother
      cases hother
      rw [hstate]
      split
      · exact Answers.value (Option.Rel.some ⟨hid, rfl⟩)
      · exact Answers.value Option.Rel.none

theorem follow (hmirror : g.Mirror h rename inside) (hid : inside id) (word : List Char) :
    Answers g h rename
      (fun arrival image => image = arrival.rename rename ∧
        forall last : Nat, arrival = Arrival.standing last -> inside last)
      (g.follow id word) (h.follow (rename id) word) := by
  induction word generalizing id with
  | nil =>
      refine Answers.value ⟨rfl, fun last hlast => ?_⟩
      cases hlast
      exact hid
  | cons c word ih =>
      unfold Graph.follow
      apply (hmirror.next hid c).bind
      intro choice image hchoice
      cases hchoice with
      | some hnamed =>
          rcases hnamed with ⟨htarget, rfl⟩
          exact ih htarget
      | none =>
          refine Answers.value ⟨rfl, fun last hlast => ?_⟩
          cases hlast

/-- A run of a mirror has the same outcome. -/
theorem run (hmirror : g.Mirror h rename inside) (text : String) :
    Answers g h rename (fun outcome image => image = outcome.rename rename) (g.run text)
      (h.run text) := by
  have hfollow := hmirror.follow hmirror.start text.toList
  rw [hmirror.rename_start] at hfollow
  unfold Graph.run
  apply hfollow.bind
  intro arrival image harrival
  rcases harrival with ⟨rfl, hstanding⟩
  cases arrival with
  | refused c last => exact Answers.value rfl
  | standing last =>
      apply (hmirror.canFinish (hstanding last rfl)).bind
      intro answer image hanswer
      rw [hanswer]
      exact Answers.value rfl

/-!
# Walks
-/

theorem walk (hmirror : g.Mirror h rename inside) :
    Answers g h rename (fun ids images => images = ids.map rename) g.walk h.walk := by
  have hwithin : g.walkSearch.Within g inside := by
    intro scan hscan
    cases List.mem_singleton.mp hscan
    exact ⟨hmirror.start, fun _ htarget => htarget⟩
  have hlike : Search.Mirrors h Plan.walking rename inside g.walkSearch h.walkSearch := by
    have htargets := hmirror.targets startId hmirror.start
    rw [hmirror.rename_start] at htargets
    constructor
    · intro id hid
      rw [(Marks.mem_add.mp hid).resolve_right (Marks.not_mem_empty id)]
      exact hmirror.start
    · show [startId] = [rename startId]
      rw [hmirror.rename_start]
    · exact List.Forall₂.cons
        ⟨hmirror.rename_start.symm, htargets.mono (fun _ => Or.inl)⟩ List.Forall₂.nil
  have hfinding := Search.run_mirrors hmirror hwithin hlike
  have horder : (h.walkSearch.run h Plan.walking).entered.order.reverse =
      ((g.walkSearch.run g Plan.walking).entered.order.reverse).map rename := by
    rw [hfinding.entered, List.map_reverse]
  unfold Graph.walk
  simp only [hfinding.ending]
  cases (g.walkSearch.run g Plan.walking).ending with
  | stopped target => exact Answers.value horder
  | missing target => exact Answers.missing target
  | exhausted => exact Answers.value horder

end Mirror
end Graph
end PatternWalk
