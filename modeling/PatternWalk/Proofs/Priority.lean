import PatternWalk.Graph.EventWalk

/-!
# The target of highest priority

Selecting looks through nodes one inside the other, in the order of the targets, and what
is on the agenda is the way it has come down from where it began.  A node that it has left
is never looked through again.  Nothing is lost by this, although the same marks serve all
branches: from such a node no event can be come to but through a node that is on the way
down, and an event walk goes through that only once.

So no event walk ever comes before the place a look ahead has got to, and what it ends at is
the end of the least event walk.
-/

namespace PatternWalk
namespace Graph

variable {g : Graph} {c : Char} {root id target k : Nat} {positions passed pending : List Nat}
  {entered : Marks} {scan : Scan} {rest : List Scan}

/-!
# The way down
-/

/-- The agenda is the way down from a node: every scan on it but the last stands for a
target of the one behind it, at the position looked at last there.  Given are the positions
taken, the number of targets looked at in the first scan, and the nodes entered. -/
inductive Descent (g : Graph) (root : Nat) : List Scan -> List Nat -> Nat -> List Nat -> Prop where
  | root (k : Nat) : Descent g root [⟨root, (g.targets root).drop k⟩] [] k []
  | deeper {id mid k : Nat} {rest : List Scan} {positions passed : List Nat} (l : Nat) :
      Descent g root (⟨id, (g.targets id).drop (k + 1)⟩ :: rest) positions (k + 1) passed ->
        (g.targets id)[k]? = some mid -> mid ≠ id ->
          Descent g root
            (⟨mid, (g.targets mid).drop l⟩ :: ⟨id, (g.targets id).drop (k + 1)⟩ :: rest)
            (positions ++ [k]) l (passed ++ [mid])

namespace Descent

theorem pending_eq (h : g.Descent root (⟨id, pending⟩ :: rest) positions k passed) :
    pending = (g.targets id).drop k := by
  cases h <;> rfl

theorem getElem?_eq (h : g.Descent root (⟨id, target :: pending⟩ :: rest) positions k passed) :
    (g.targets id)[k]? = some target := by
  rw [<- List.head?_drop, <- h.pending_eq]
  rfl

theorem relook (h : g.Descent root (scan :: rest) positions k passed) (l : Nat) :
    g.Descent root (⟨scan.id, (g.targets scan.id).drop l⟩ :: rest) positions l passed := by
  cases h with
  | root k => exact Descent.root l
  | deeper _ hway htarget hne => exact Descent.deeper l hway htarget hne

theorem look (h : g.Descent root (⟨id, target :: pending⟩ :: rest) positions k passed) :
    g.Descent root (⟨id, pending⟩ :: rest) positions (k + 1) passed := by
  have hpending : pending = (g.targets id).drop (k + 1) := by
    rw [<- List.tail_drop, <- h.pending_eq]
    rfl
  rw [hpending]
  exact h.relook (k + 1)

theorem enter (h : g.Descent root (⟨id, target :: pending⟩ :: rest) positions k passed)
    (hne : target ≠ id) :
    g.Descent root (⟨target, g.targets target⟩ :: ⟨id, pending⟩ :: rest)
      (positions ++ [k]) 0 (passed ++ [target]) := by
  have hlook := h.look
  have hpending := hlook.pending_eq
  rw [hpending] at hlook ⊢
  exact Descent.deeper 0 hlook h.getElem?_eq hne

theorem behind_cases (h : g.Descent root (scan :: rest) positions k passed) :
    (rest = [] ∧ scan.id = root ∧ positions = [] ∧ passed = []) ∨
      exists (source : Scan) (below : List Scan) (j : Nat) (front names : List Nat),
        rest = source :: below ∧ positions = front ++ [j] ∧ passed = names ++ [scan.id] ∧
          (g.targets source.id)[j]? = some scan.id ∧
          g.Descent root (source :: below) front (j + 1) names := by
  cases h with
  | root k => exact Or.inl ⟨rfl, rfl, rfl, rfl⟩
  | deeper l hway htarget _ => exact Or.inr ⟨_, _, _, _, _, rfl, rfl, rfl, htarget, hway⟩

theorem trail (h : g.Descent root (scan :: rest) positions k passed) :
    g.Trail root positions passed ∧ passed.getLastD root = scan.id := by
  generalize hagenda : scan :: rest = agenda at h
  induction h generalizing scan rest with
  | root k =>
      cases hagenda
      exact ⟨Trail.nil root, rfl⟩
  | deeper l _ htarget hne ih =>
      cases hagenda
      rcases ih rfl with ⟨htrail, hlast⟩
      refine ⟨htrail.snoc ?_ ?_, List.getLastD_concat⟩
      · rw [hlast]
        exact htarget
      · rw [hlast]
        exact hne

theorem exists_behind (h : g.Descent root (scan :: rest) positions k passed) {j last : Nat}
    {others : List Nat} (htarget : (g.targets scan.id)[j]? = some target)
    (hwalk : g.EventWalk c root (positions ++ j :: others) last) :
    target ≠ scan.id ∧ g.Eventful c last ∧
      exists beyond more : List Nat,
        g.Trail target others beyond ∧ target :: beyond = more ++ [last] ∧
          forall mid : Nat, mid ∈ more -> g.Skips c mid ∧ ¬ mid ∈ passed := by
  rcases h.trail with ⟨htrail, hlast⟩
  rcases hwalk with ⟨walked, hwalked, hnodup, hskips, heventful⟩
  rcases hwalked.exists_parts with ⟨before, behind, hnames, hbefore, hbehind⟩
  cases htrail.unique hbefore
  rw [hlast] at hbehind
  cases hbehind with
  | cons hnext hne hbeyond =>
      rw [htarget] at hnext
      cases hnext
      refine ⟨hne, heventful, ?_⟩
      rename_i beyond
      rcases List.eq_nil_or_concat (target :: beyond) with hnil | ⟨more, final, hmore⟩
      · cases hnil
      · rw [List.concat_eq_append] at hmore
        rw [hmore, <- List.append_assoc] at hnames
        rcases List.append_inj' hnames rfl with ⟨rfl, hfinal⟩
        cases List.singleton_inj.mp hfinal
        refine ⟨beyond, more, hbeyond, hmore, ?_⟩
        intro mid hmid
        refine ⟨hskips mid (List.mem_append.mpr (Or.inr hmid)), ?_⟩
        intro hpassed
        exact (List.nodup_append.mp hnodup).right.right mid hpassed mid hmid rfl

theorem eventful_of_walk (h : g.Descent root (scan :: rest) positions k passed) {j last : Nat}
    (htarget : (g.targets scan.id)[j]? = some target)
    (hwalk : g.EventWalk c root (positions ++ [j]) last) : g.Eventful c target := by
  rcases h.exists_behind htarget hwalk with ⟨_, heventful, beyond, more, htrail, hnames, _⟩
  rw [htrail.eq_nil] at hnames
  have hend := congrArg List.getLast? hnames
  rw [List.getLast?_concat] at hend
  cases hend
  exact heventful

end Descent

/-!
# Looking ahead along the way down
-/

/-- A look ahead that has come down from a node, and nothing has been lost by it: what has
been looked at in a scan is idle, so is every target of a node that has been left, and no
event walk comes before the next target. -/
structure Descends (g : Graph) (c : Char) (root : Nat) (search : Search)
    (positions : List Nat) (k : Nat) (passed : List Nat) : Prop where
  way : g.Descent root search.agenda positions k passed
  nodup : passed.Nodup
  entered : forall mid : Nat, mid ∈ passed -> mid ∈ search.entered
  skips : forall mid : Nat, mid ∈ passed -> g.Skips c mid
  looked : forall scan : Scan, scan ∈ search.agenda ->
    forall target : Nat, target ∈ g.targets scan.id ->
      (target = scan.id ∨ Search.Idle g (Plan.selecting c) search.entered target) ∨
        target ∈ scan.pending
  left : forall id : Nat, id ∈ search.entered -> ¬ id ∈ passed ->
    forall target : Nat, target ∈ g.targets id ->
      target = id ∨ Search.Idle g (Plan.selecting c) search.entered target
  ahead : forall (others : List Nat) (target : Nat),
    g.EventWalk c root others target -> ¬ Earlier others (positions ++ [k])

namespace Descends

theorem aheadSearch {node : Node} (hnode : g.node? root = some node) :
    g.Descends c root (aheadSearch root node) [] 0 [] where
  way := by
    have hway : g.Descent root [⟨root, (g.targets root).drop 0⟩] [] 0 [] := Descent.root 0
    rw [targets_of_node? hnode] at hway
    exact hway
  nodup := List.nodup_nil
  entered := nofun
  skips := nofun
  looked scan hscan target htarget := by
    cases List.mem_singleton.mp hscan
    rw [targets_of_node? hnode] at htarget
    exact Or.inr htarget
  left id hid := absurd hid (Marks.not_mem_empty id)
  ahead others target hwalk := by
    cases others with
    | nil => exact absurd hwalk not_eventWalk_nil
    | cons j others =>
        rw [List.nil_append, Earlier.cons_iff, not_or]
        exact ⟨Nat.not_lt_zero j, fun h => Earlier.not_nil others h.right⟩

/-- A way on from an idle target, through nodes that are not on the way down, comes to no
event: each node on it has been entered and left, so that the next one is idle as well. -/
theorem not_eventful_of_idle {agenda : List Scan}
    (h : g.Descends c root ⟨entered, agenda⟩ positions k passed)
    (hidle : Search.Idle g (Plan.selecting c) entered target) {others beyond more : List Nat}
    {last : Nat} (htrail : g.Trail target others beyond)
    (hnames : target :: beyond = more ++ [last])
    (hmore : forall mid : Nat, mid ∈ more -> g.Skips c mid ∧ ¬ mid ∈ passed) :
    ¬ g.Eventful c last := by
  intro heventful
  induction more generalizing target others beyond with
  | nil =>
      cases hnames
      exact heventful.not_idle entered hidle
  | cons mid more ih =>
      rw [List.cons_append, List.cons.injEq] at hnames
      rcases hnames with ⟨rfl, hbeyond⟩
      rcases List.forall_mem_cons.mp hmore with ⟨⟨hskips, hnot⟩, hrest⟩
      cases htrail with
      | nil => cases (List.append_eq_nil_iff.mp hbeyond.symm).right
      | cons hnext hne hfurther =>
          have hleft := h.left _ (hskips.mem_of_idle hidle) hnot _ (List.mem_of_getElem? hnext)
          exact ih (hleft.resolve_left hne) hfurther hbeyond hrest

theorem pass (h : g.Descends c root ⟨entered, ⟨id, target :: pending⟩ :: rest⟩ positions k passed)
    (hidle : target = id ∨ Search.Idle g (Plan.selecting c) entered target) :
    g.Descends c root ⟨entered, ⟨id, pending⟩ :: rest⟩ positions (k + 1) passed where
  way := h.way.look
  nodup := h.nodup
  entered := h.entered
  skips := h.skips
  looked scan hscan other hother := by
    rcases List.mem_cons.mp hscan with rfl | hrest
    · rcases h.looked _ List.mem_cons_self other hother with hdone | hpending
      · exact Or.inl hdone
      · rcases List.mem_cons.mp hpending with rfl | hlater
        · exact Or.inl hidle
        · exact Or.inr hlater
    · exact h.looked scan (List.mem_cons_of_mem _ hrest) other hother
  left := h.left
  ahead others last hwalk := by
    rcases Earlier.cases_of_not (h.ahead others last hwalk) with ⟨others, rfl, _⟩ | hnext
    · rcases h.way.exists_behind h.way.getElem?_eq hwalk with
        ⟨hne, heventful, beyond, more, htrail, hnames, hmore⟩
      exact absurd heventful
        (h.not_eventful_of_idle (hidle.resolve_left hne) htrail hnames hmore)
    · exact hnext

theorem enter {node : Node}
    (h : g.Descends c root ⟨entered, ⟨id, target :: pending⟩ :: rest⟩ positions k passed)
    (hne : target ≠ id) (hnode : g.node? target = some node)
    (hjudge : (Plan.selecting c).judge node.state = Verdict.enter) (hnew : ¬ target ∈ entered) :
    g.Descends c root
      ⟨entered.add target, ⟨target, node.targets⟩ :: ⟨id, pending⟩ :: rest⟩
      (positions ++ [k]) 0 (passed ++ [target]) where
  way := by
    rw [<- targets_of_node? hnode]
    exact h.way.enter hne
  nodup := by
    refine List.nodup_append.mpr ⟨h.nodup, List.pairwise_singleton _ target, ?_⟩
    intro mid hmid other hother heq
    rw [heq, List.mem_singleton.mp hother] at hmid
    exact hnew (h.entered target hmid)
  entered mid hmid := by
    rcases List.mem_append.mp hmid with hold | htarget
    · exact Marks.mem_add.mpr (Or.inr (h.entered mid hold))
    · exact Marks.mem_add.mpr (Or.inl (List.mem_singleton.mp htarget))
  skips mid hmid := by
    rcases List.mem_append.mp hmid with hold | htarget
    · exact h.skips mid hold
    · rw [List.mem_singleton.mp htarget]
      exact skips_of_judge_enter hnode hjudge
  looked scan hscan other hother := by
    have hmono : forall {id other : Nat},
        other = id ∨ Search.Idle g (Plan.selecting c) entered other ->
          other = id ∨ Search.Idle g (Plan.selecting c) (entered.add target) other :=
      fun h => h.imp_right (fun hidle => hidle.add target)
    rcases List.mem_cons.mp hscan with rfl | hold
    · rw [targets_of_node? hnode] at hother
      exact Or.inr hother
    · rcases List.mem_cons.mp hold with rfl | hrest
      · rcases h.looked _ List.mem_cons_self other hother with hdone | hpending
        · exact Or.inl (hmono hdone)
        · rcases List.mem_cons.mp hpending with rfl | hlater
          · exact Or.inl (Or.inr (Search.idle_add_self hnode hjudge))
          · exact Or.inr hlater
      · exact (h.looked scan (List.mem_cons_of_mem _ hrest) other hother).imp_left hmono
  left mid hmid hnot other hother := by
    rw [List.mem_append, List.mem_singleton, not_or] at hnot
    have hold := (Marks.mem_add.mp hmid).resolve_left hnot.right
    exact (h.left mid hold hnot.left other hother).imp_right (fun hidle => hidle.add target)
  ahead others last hwalk := by
    rcases Earlier.cases_of_not (h.ahead others last hwalk) with ⟨others, rfl, _⟩ | hnext
    · cases others with
      | nil =>
          have hskips := skips_of_judge_enter hnode hjudge
          exact absurd hskips (h.way.eventful_of_walk h.way.getElem?_eq hwalk).not_skips
      | cons j others =>
          rw [List.append_assoc, Earlier.append_iff, List.singleton_append, Earlier.cons_iff,
            Earlier.cons_iff]
          intro hearlier
          rcases hearlier with hlt | ⟨_, hlt | ⟨_, hnil⟩⟩
          · exact Nat.lt_irrefl k hlt
          · exact Nat.not_lt_zero j hlt
          · exact Earlier.not_nil others hnil
    · intro hearlier
      refine hnext (hearlier.trans ?_)
      rw [List.append_assoc, Earlier.append_iff, List.singleton_append, Earlier.cons_iff]
      exact Or.inl (Nat.lt_succ_self k)

theorem leave {source : Scan} {mid j : Nat} (h : g.Descends c root
      ⟨entered, ⟨mid, []⟩ :: source :: rest⟩ (positions ++ [j]) k (passed ++ [mid]))
    (hway : g.Descent root (source :: rest) positions (j + 1) passed)
    (htarget : (g.targets source.id)[j]? = some mid) :
    g.Descends c root ⟨entered, source :: rest⟩ positions (j + 1) passed where
  way := hway
  nodup := (List.nodup_append.mp h.nodup).left
  entered other hother := h.entered other (List.mem_append.mpr (Or.inl hother))
  skips other hother := h.skips other (List.mem_append.mpr (Or.inl hother))
  looked scan hscan := h.looked scan (List.mem_cons_of_mem _ hscan)
  left other hmem hnot next hnext := by
    by_cases hmid : other = mid
    · subst hmid
      exact (h.looked _ List.mem_cons_self next hnext).resolve_right List.not_mem_nil
    · refine h.left other hmem ?_ next hnext
      rw [List.mem_append, List.mem_singleton, not_or]
      exact ⟨hnot, hmid⟩
  ahead others last hwalk := by
    have hahead := h.ahead others last hwalk
    rw [List.append_assoc, List.singleton_append] at hahead
    rcases Earlier.cases_of_not hahead with ⟨others, rfl, hnot⟩ | hnext
    · cases others with
      | nil =>
          have hskips := h.skips mid (List.mem_append.mpr (Or.inr List.mem_cons_self))
          exact absurd hskips (hway.eventful_of_walk htarget hwalk).not_skips
      | cons l others =>
          rcases hway.exists_behind htarget hwalk with ⟨_, _, beyond, _, htrail, _⟩
          have hlength : (g.targets mid).length <= k :=
            List.drop_eq_nil_iff.mp h.way.pending_eq.symm
          rw [Earlier.cons_iff, not_or] at hnot
          exact absurd (Nat.lt_of_lt_of_le htrail.lt_length hlength) hnot.left
    · exact hnext

theorem not_eventWalk_of_left (h : g.Descends c root ⟨entered, [⟨root, []⟩]⟩ [] k [])
    (others : List Nat) (last : Nat) : ¬ g.EventWalk c root others last := by
  intro hwalk
  cases others with
  | nil => exact not_eventWalk_nil hwalk
  | cons l others =>
      have hahead := h.ahead (l :: others) last hwalk
      rw [List.nil_append, Earlier.cons_iff, not_or] at hahead
      have hlength : (g.targets root).length <= k :=
        List.drop_eq_nil_iff.mp h.way.pending_eq.symm
      rcases hwalk with ⟨walked, htrail, _⟩
      exact hahead.left (Nat.lt_of_lt_of_le htrail.lt_length hlength)

theorem leastEventWalk
    (h : g.Descends c root ⟨entered, ⟨id, target :: pending⟩ :: rest⟩ positions k passed)
    (hne : target ≠ id) (heventful : g.Eventful c target) :
    g.LeastEventWalk c root (positions ++ [k]) target := by
  rcases h.way.trail with ⟨htrail, hlast⟩
  constructor
  · refine ⟨passed, htrail.snoc ?_ ?_, h.nodup, h.skips, heventful⟩
    · rw [hlast]
      exact h.way.getElem?_eq
    · rw [hlast]
      exact hne
  · exact h.ahead

/-- What a look ahead ends at is the end of the least event walk, and without an end there is
no event walk. -/
theorem ending_run {search : Search} (h : g.Descends c root search positions k passed) :
    match (search.run g (Plan.selecting c)).ending with
    | Ending.stopped target =>
        (exists node : Node, g.node? target = some node) ∧
          exists others : List Nat, g.LeastEventWalk c root others target
    | Ending.missing target =>
        g.node? target = none ∧
          exists others : List Nat, g.LeastEventWalk c root others target
    | Ending.exhausted =>
        forall (others : List Nat) (target : Nat), ¬ g.EventWalk c root others target := by
  induction search using Search.run_induction g (Plan.selecting c)
      generalizing positions k passed with
  | nil entered => cases h.way
  | leave entered id rest ih =>
      rw [Search.run_leave]
      rcases h.way.behind_cases with
        ⟨rfl, rfl, rfl, rfl⟩ | ⟨source, below, j, front, names, rfl, rfl, rfl, htarget, hway⟩
      · rw [Search.run_nil]
        exact h.not_eventWalk_of_left
      · exact ih (h.leave hway htarget)
  | idle entered id target pending rest hidle ih =>
      rw [Search.run_idle hidle]
      exact ih (h.pass hidle)
  | missing entered id target pending rest hne hnode =>
      rw [Search.run_missing hne hnode]
      exact ⟨hnode, _, h.leastEventWalk hne (Or.inl hnode)⟩
  | stop entered id target node pending rest hne hnode hjudge =>
      rw [Search.run_stop hne hnode hjudge]
      exact ⟨⟨node, hnode⟩, _, h.leastEventWalk hne (eventful_of_judge_stop hnode hjudge)⟩
  | enter entered id target node pending rest hne hnode hjudge hnew ih =>
      rw [Search.run_enter hne hnode hjudge hnew]
      exact ih (h.enter hne hnode hjudge hnew)

end Descends

/-!
# Selecting
-/

theorem select_cases (hid : id < g.size) (c : Char) :
    (g.select id c = Except.ok none ∧
        forall (positions : List Nat) (target : Nat), ¬ g.EventWalk c id positions target) ∨
      exists (positions : List Nat) (target : Nat),
        g.select id c =
            (if target < g.size then Except.ok (some target)
            else Except.error ⟨g.size, target⟩) ∧
          g.LeastEventWalk c id positions target := by
  rcases exists_node?_of_lt hid with ⟨node, hnode⟩
  have hanswer := select_of_node? hnode c
  have hwalks := (Descends.aheadSearch (c := c) hnode).ending_run
  cases hending : ((Graph.aheadSearch id node).run g (Plan.selecting c)).ending with
  | stopped target =>
      rw [hending] at hanswer hwalks
      rcases hwalks with ⟨⟨_, hother⟩, positions, hleast⟩
      have hlt := lt_size_of_node? hother
      exact Or.inr ⟨positions, target, hanswer.trans (if_pos hlt).symm, hleast⟩
  | missing target =>
      rw [hending] at hanswer hwalks
      rcases hwalks with ⟨hnone, positions, hleast⟩
      have hnot := Nat.not_lt.mpr (node?_eq_none_iff.mp hnone)
      exact Or.inr ⟨positions, target, hanswer.trans (if_neg hnot).symm, hleast⟩
  | exhausted =>
      rw [hending] at hanswer hwalks
      exact Or.inl ⟨hanswer, hwalks⟩

/-- Nothing is selected exactly when there is no event walk.  When there is one, there is a
least one, and this decides: its end is selected if it has a node and is missed if not. -/
theorem select_of_leastEventWalk (hid : id < g.size) (c : Char) :
    (g.select id c = Except.ok none <->
        forall (positions : List Nat) (target : Nat), ¬ g.EventWalk c id positions target) ∧
      ((exists (positions : List Nat) (target : Nat), g.EventWalk c id positions target) ->
        exists (positions : List Nat) (target : Nat), g.LeastEventWalk c id positions target) ∧
      forall (positions : List Nat) (target : Nat),
        g.LeastEventWalk c id positions target ->
          g.select id c =
            if target < g.size then Except.ok (some target)
            else Except.error ⟨g.size, target⟩ := by
  rcases select_cases hid c with ⟨hanswer, hnone⟩ | ⟨positions, target, hanswer, hleast⟩
  · refine ⟨iff_of_true hanswer hnone, ?_, ?_⟩
    · intro hwalk
      rcases hwalk with ⟨positions, target, hwalk⟩
      exact absurd hwalk (hnone positions target)
    · intro positions target hleast
      exact absurd hleast.walk (hnone positions target)
  · refine ⟨iff_of_false ?_ ?_, fun _ => ⟨positions, target, hleast⟩, ?_⟩
    · rw [hanswer]
      split <;> nofun
    · intro hnone
      exact hnone positions target hleast.walk
    · intro others other hother
      rw [<- (hleast.unique hother).right]
      exact hanswer

/-- A wrapper lists another one and a literal, and the other one lists the wrapper, a target
without a node and the literal. -/
def reentered : Graph where
  nodes := #[
    ⟨State.start, [1]⟩,
    ⟨State.loop Quantifier.star (Atom.char 'a'), [2, 3]⟩,
    ⟨State.loop Quantifier.star (Atom.char 'b'), [1, 9, 3]⟩,
    ⟨State.single (Atom.char 'c'), []⟩]
  nonempty := by decide

theorem select_of_leastEventWalk_reentered :
    1 < reentered.size ∧ reentered.EventWalk 'c' 1 [0, 1] 9 ∧
      reentered.select 1 'c' = Except.ok (some 3) ∧
        exists positions : List Nat, reentered.LeastEventWalk 'c' 1 positions 3 := by
  have hlt : 1 < reentered.size := by decide
  have hwalk : reentered.EventWalk 'c' 1 [0, 1] 9 := by
    refine ⟨[2], ?_, List.pairwise_singleton _ 2, ?_, Or.inl rfl⟩
    · exact Trail.cons rfl (by decide) (Trail.cons rfl (by decide) (Trail.nil 9))
    · intro mid hmid
      cases List.mem_singleton.mp hmid
      exact ⟨⟨State.loop Quantifier.star (Atom.char 'b'), [1, 9, 3]⟩, rfl, rfl, rfl⟩
  have hselect : reentered.select 1 'c' = Except.ok (some 3) := by cbv
  rcases select_of_leastEventWalk hlt 'c' with ⟨_, hexists, hdecides⟩
  rcases hexists ⟨[0, 1], 9, hwalk⟩ with ⟨positions, target, hleast⟩
  have hanswer := hdecides positions target hleast
  rw [hselect] at hanswer
  split at hanswer <;> cases hanswer
  exact ⟨hlt, hwalk, hselect, positions, hleast⟩

end Graph
end PatternWalk
