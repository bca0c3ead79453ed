import Mathlib.Data.List.Forall2
import PatternWalk.Graph.Finding

/-!
# Graphs that mirror each other

A graph mirrors another one on a set of nodes when its nodes are theirs under other
names: the states are the same, and so are the targets in order, but that idle targets
may have been put in.  A target is idle in a list when nothing comes of looking at it
there, because the node lists itself or has listed the same target before.

Every search of the one graph is then a search of the other, under the other names and
with some more steps that change nothing.  Hence the two graphs give the same answers.
-/

namespace PatternWalk

/-!
# Lists with idle targets put in
-/

/-- The second list is the first with idle targets put in.  What stands in the list is
idle from there on. -/
inductive Padded : (Nat -> Prop) -> List Nat -> List Nat -> Prop where
  | nil {idle : Nat -> Prop} : Padded idle [] []
  | keep {idle : Nat -> Prop} {target : Nat} {targets padded : List Nat} :
      Padded (fun other => other = target ∨ idle other) targets padded ->
        Padded idle (target :: targets) (target :: padded)
  | put {idle : Nat -> Prop} {target : Nat} {targets padded : List Nat} :
      idle target -> Padded idle targets padded -> Padded idle targets (target :: padded)

namespace Padded

variable {idle : Nat -> Prop} {target : Nat} {targets padded : List Nat}

theorem mono (h : Padded idle targets padded) {wider : Nat -> Prop}
    (hwider : forall target : Nat, idle target -> wider target) :
    Padded wider targets padded := by
  induction h generalizing wider with
  | nil => exact nil
  | keep _ ih => exact keep (ih (fun other => Or.imp_right (hwider other)))
  | put hidle _ ih => exact put (hwider _ hidle) (ih hwider)

theorem refl (idle : Nat -> Prop) (targets : List Nat) : Padded idle targets targets := by
  induction targets generalizing idle with
  | nil => exact nil
  | cons target targets ih => exact keep (ih _)

theorem insert {front back : List Nat} (h : idle target ∨ target ∈ front) :
    Padded idle (front ++ back) (front ++ target :: back) := by
  induction front generalizing idle with
  | nil => exact put (h.resolve_right List.not_mem_nil) (refl idle back)
  | cons first front ih =>
      apply keep
      apply ih
      rcases h with hidle | hmem
      · exact Or.inl (Or.inr hidle)
      · rcases List.mem_cons.mp hmem with hfirst | hfront
        · exact Or.inl (Or.inl hfirst)
        · exact Or.inr hfront

theorem eq_nil (h : Padded idle targets []) : targets = [] := by
  cases h
  rfl

theorem cons_cases (h : Padded idle targets (target :: padded)) :
    (idle target ∧ Padded idle targets padded) ∨
      exists rest : List Nat,
        targets = target :: rest ∧ Padded (fun other => other = target ∨ idle other) rest padded := by
  cases h with
  | keep hrest => exact Or.inr ⟨_, rfl, hrest⟩
  | put hidle hrest => exact Or.inl ⟨hidle, hrest⟩

end Padded

/-!
# Mirrors
-/

namespace Graph

/-- The second graph has the nodes of the first that belong to a set, under other names
and with idle targets put in.  No target leads out of the set. -/
structure Mirror (g h : Graph) (rename : Nat -> Nat) (inside : Nat -> Prop) : Prop where
  start : inside startId
  rename_start : rename startId = startId
  injective : forall id other : Nat,
    inside id -> inside other -> rename id = rename other -> id = other
  closed : forall id target : Nat, inside id -> target ∈ g.targets id -> inside target
  state : forall id : Nat, inside id -> h.state? (rename id) = g.state? id
  targets : forall id : Nat, inside id ->
    Padded (fun target => target = rename id) ((g.targets id).map rename)
      (h.targets (rename id))

namespace Mirror

variable {g h : Graph} {rename : Nat -> Nat} {inside : Nat -> Prop} {id : Nat} {node : Node}

theorem keepsTo (hmirror : Mirror g h rename inside) (plan : Plan) : plan.KeepsTo g inside :=
  fun id target _ hid htarget _ _ => hmirror.closed id target hid htarget

theorem node?_eq_none_iff (hmirror : Mirror g h rename inside) (hid : inside id) :
    h.node? (rename id) = none <-> g.node? id = none := by
  have hstate := hmirror.state id hid
  unfold state? at hstate
  rw [<- Option.map_eq_none_iff, hstate, Option.map_eq_none_iff]

theorem exists_node? (hmirror : Mirror g h rename inside) (hid : inside id)
    (hnode : g.node? id = some node) :
    exists image : Node,
      h.node? (rename id) = some image ∧ image.state = node.state ∧
        Padded (fun target => target = rename id) (node.targets.map rename) image.targets := by
  have hstate := hmirror.state id hid
  unfold state? at hstate
  rw [hnode] at hstate
  rcases Option.map_eq_some_iff.mp hstate with ⟨image, himage, hsame⟩
  refine ⟨image, himage, hsame, ?_⟩
  have htargets := hmirror.targets id hid
  rw [targets_of_node? hnode, targets_of_node? himage] at htargets
  exact htargets

theorem exists_node?_of_image (hmirror : Mirror g h rename inside) (hid : inside id)
    {image : Node} (himage : h.node? (rename id) = some image) :
    exists node : Node,
      g.node? id = some node ∧ image.state = node.state ∧
        Padded (fun target => target = rename id) (node.targets.map rename) image.targets := by
  cases hnode : g.node? id with
  | none =>
      rw [(hmirror.node?_eq_none_iff hid).mpr hnode] at himage
      cases himage
  | some node =>
      rcases hmirror.exists_node? hid hnode with ⟨other, hother, hstate, htargets⟩
      rw [himage] at hother
      cases hother
      exact ⟨node, rfl, hstate, htargets⟩

end Mirror
end Graph

/-!
# Searches under other names
-/

structure Scan.Mirrors (rename : Nat -> Nat) (idle : Nat -> Prop) (scan image : Scan) :
    Prop where
  id : image.id = rename scan.id
  pending : Padded (fun target => target = image.id ∨ idle target)
    (scan.pending.map rename) image.pending

theorem Scan.Mirrors.mono {rename : Nat -> Nat} {idle wider : Nat -> Prop} {scan image : Scan}
    (h : Scan.Mirrors rename idle scan image)
    (hwider : forall target : Nat, idle target -> wider target) :
    Scan.Mirrors rename wider scan image where
  id := h.id
  pending := h.pending.mono (fun target => Or.imp_right (hwider target))

theorem Discipline.forall₂_place (discipline : Discipline) {related : Scan -> Scan -> Prop}
    {scan image new newImage : Scan} {rest restImage : List Scan} (hscan : related scan image)
    (hnew : related new newImage) (hrest : List.Forall₂ related rest restImage) :
    List.Forall₂ related (discipline.place scan new rest)
      (discipline.place image newImage restImage) := by
  cases discipline with
  | atOnce => exact List.Forall₂.cons hnew (List.Forall₂.cons hscan hrest)
  | latestNext => exact List.Forall₂.cons hscan (List.Forall₂.cons hnew hrest)
  | inTurn =>
      exact List.Forall₂.cons hscan
        (List.rel_append hrest (List.Forall₂.cons hnew List.Forall₂.nil))

def Ending.rename (rename : Nat -> Nat) : Ending -> Ending
  | stopped id => stopped (rename id)
  | missing id => missing (rename id)
  | exhausted => exhausted

structure Finding.Mirrors (rename : Nat -> Nat) (finding image : Finding) : Prop where
  entered : image.entered.order = finding.entered.order.map rename
  ending : image.ending = finding.ending.rename rename

namespace Search

structure Mirrors (h : Graph) (plan : Plan) (rename : Nat -> Nat) (inside : Nat -> Prop)
    (search image : Search) : Prop where
  inside : forall id : Nat, id ∈ search.entered -> inside id
  entered : image.entered.order = search.entered.order.map rename
  agenda : List.Forall₂ (Scan.Mirrors rename (Idle h plan image.entered))
    search.agenda image.agenda

section Mirror

variable {g h : Graph} {plan : Plan} {rename : Nat -> Nat} {inside : Nat -> Prop}
  {entered marks : Marks} {id target : Nat}

theorem mem_image_iff (hmirror : g.Mirror h rename inside)
    (hinside : forall id : Nat, id ∈ entered -> inside id)
    (hmarks : marks.order = entered.order.map rename) (htarget : inside target) :
    rename target ∈ marks <-> target ∈ entered := by
  rw [Marks.mem_iff, hmarks, List.mem_map]
  constructor
  · intro hmem
    rcases hmem with ⟨other, hother, heq⟩
    rw [<- hmirror.injective other target (hinside other hother) htarget heq]
    exact hother
  · intro hmem
    exact ⟨target, hmem, rfl⟩

theorem idle_image_iff (hmirror : g.Mirror h rename inside)
    (hinside : forall id : Nat, id ∈ entered -> inside id)
    (hmarks : marks.order = entered.order.map rename) (hid : inside id)
    (htarget : inside target) :
    (rename target = rename id ∨ Idle h plan marks (rename target)) <->
      (target = id ∨ Idle g plan entered target) := by
  have hmem := mem_image_iff hmirror hinside hmarks htarget
  constructor
  · intro hidle
    rcases hidle with hself | ⟨image, himage, hjudge⟩
    · exact Or.inl (hmirror.injective target id htarget hid hself)
    · rcases hmirror.exists_node?_of_image htarget himage with ⟨node, hnode, hstate, _⟩
      rw [hstate, hmem] at hjudge
      exact Or.inr ⟨node, hnode, hjudge⟩
  · intro hidle
    rcases hidle with rfl | ⟨node, hnode, hjudge⟩
    · exact Or.inl rfl
    · rcases hmirror.exists_node? htarget hnode with ⟨image, himage, hstate, _⟩
      rw [<- hstate, <- hmem] at hjudge
      exact Or.inr ⟨image, himage, hjudge⟩

namespace Mirrors

variable {imageId imageTarget : Nat} {pending imagePending : List Nat}
  {rest imageRest : List Scan}

theorem nil {agenda : List Scan}
    (hlike : Mirrors h plan rename inside ⟨entered, agenda⟩ ⟨marks, []⟩) : agenda = [] :=
  List.forall₂_nil_right_iff.mp hlike.agenda

theorem leave {agenda : List Scan}
    (hlike : Mirrors h plan rename inside ⟨entered, agenda⟩ ⟨marks, ⟨imageId, []⟩ :: imageRest⟩) :
    exists (id : Nat) (rest : List Scan),
      agenda = ⟨id, []⟩ :: rest ∧
        Mirrors h plan rename inside ⟨entered, rest⟩ ⟨marks, imageRest⟩ := by
  rcases List.forall₂_cons_right_iff.mp hlike.agenda with ⟨⟨id, pending⟩, rest, hscan, hrest, rfl⟩
  have hpending : pending = [] := List.map_eq_nil_iff.mp hscan.pending.eq_nil
  subst hpending
  exact ⟨id, rest, rfl, hlike.inside, hlike.entered, hrest⟩

/-- When the image passes by an idle target, it was put in, or the search passes by the same
target under its own name. -/
theorem idle {agenda : List Scan}
    (hlike : Mirrors h plan rename inside ⟨entered, agenda⟩
      ⟨marks, ⟨imageId, imageTarget :: imagePending⟩ :: imageRest⟩)
    (hidle : imageTarget = imageId ∨ Idle h plan marks imageTarget) :
    Mirrors h plan rename inside ⟨entered, agenda⟩
        ⟨marks, ⟨imageId, imagePending⟩ :: imageRest⟩ ∨
      exists (id target : Nat) (pending : List Nat) (rest : List Scan),
        agenda = ⟨id, target :: pending⟩ :: rest ∧
          imageId = rename id ∧ imageTarget = rename target ∧
            Mirrors h plan rename inside ⟨entered, ⟨id, pending⟩ :: rest⟩
              ⟨marks, ⟨imageId, imagePending⟩ :: imageRest⟩ := by
  rcases List.forall₂_cons_right_iff.mp hlike.agenda with ⟨⟨id, pending⟩, rest, hscan, hrest, rfl⟩
  rcases hscan.pending.cons_cases with ⟨_, hpadded⟩ | ⟨later, hpending, hpadded⟩
  · exact Or.inl ⟨hlike.inside, hlike.entered, List.Forall₂.cons ⟨hscan.id, hpadded⟩ hrest⟩
  · rcases List.map_eq_cons_iff.mp hpending with ⟨target, pending, rfl, rfl, rfl⟩
    refine Or.inr ⟨id, target, pending, rest, rfl, hscan.id, rfl, hlike.inside, hlike.entered, ?_⟩
    refine List.Forall₂.cons ⟨hscan.id, hpadded.mono ?_⟩ hrest
    intro other hother
    rcases hother with rfl | hother
    · exact hidle
    · exact hother

theorem exists_head {agenda : List Scan}
    (hlike : Mirrors h plan rename inside ⟨entered, agenda⟩
      ⟨marks, ⟨imageId, imageTarget :: imagePending⟩ :: imageRest⟩)
    (hne : imageTarget ≠ imageId) (hlive : ¬ Idle h plan marks imageTarget) :
    exists (id target : Nat) (pending : List Nat) (rest : List Scan),
      agenda = ⟨id, target :: pending⟩ :: rest ∧
        imageId = rename id ∧ imageTarget = rename target ∧
          Padded (fun other =>
            other = imageTarget ∨ other = imageId ∨ Idle h plan marks other)
            (pending.map rename) imagePending ∧
            List.Forall₂ (Scan.Mirrors rename (Idle h plan marks)) rest imageRest := by
  rcases List.forall₂_cons_right_iff.mp hlike.agenda with ⟨⟨id, pending⟩, rest, hscan, hrest, rfl⟩
  rcases hscan.pending.cons_cases with ⟨hself | hidle, _⟩ | ⟨later, hpending, hpadded⟩
  · exact absurd hself hne
  · exact absurd hidle hlive
  · rcases List.map_eq_cons_iff.mp hpending with ⟨target, pending, rfl, rfl, rfl⟩
    exact ⟨id, target, pending, rest, rfl, hscan.id, rfl, hpadded, hrest⟩

theorem enter {agenda imageAgenda : List Scan}
    (hlike : Mirrors h plan rename inside ⟨entered, agenda⟩ ⟨marks, imageAgenda⟩)
    (htarget : inside target) {targets imageTargets : List Nat}
    (hidle : Idle h plan (marks.add (rename target)) (rename target))
    (hpadded : Padded (fun other =>
      other = rename target ∨ other = rename id ∨ Idle h plan marks other)
      (pending.map rename) imagePending)
    (htargets : Padded (fun other => other = rename target) (targets.map rename) imageTargets)
    (hrest : List.Forall₂ (Scan.Mirrors rename (Idle h plan marks)) rest imageRest) :
    Mirrors h plan rename inside
      ⟨entered.add target, plan.discipline.place ⟨id, pending⟩ ⟨target, targets⟩ rest⟩
      ⟨marks.add (rename target),
        plan.discipline.place ⟨rename id, imagePending⟩ ⟨rename target, imageTargets⟩
          imageRest⟩ := by
  constructor
  · intro other hother
    rcases Marks.mem_add.mp hother with rfl | hold
    · exact htarget
    · exact hlike.inside other hold
  · rw [Marks.order_add, Marks.order_add, hlike.entered, List.map_cons]
  · apply Discipline.forall₂_place
    · refine ⟨rfl, hpadded.mono ?_⟩
      intro other hother
      rcases hother with rfl | rfl | hold
      · exact Or.inr hidle
      · exact Or.inl rfl
      · exact Or.inr (hold.add (rename target))
    · exact ⟨rfl, htargets.mono (fun other => Or.inl)⟩
    · exact hrest.imp (fun _ _ hscan => hscan.mono (fun other hold => hold.add (rename target)))

end Mirrors

/-- The search of a mirror makes every step of the search, and idle ones besides, and finds
the same under the other names. -/
theorem run_mirrors (hmirror : g.Mirror h rename inside) {search image : Search}
    (hwithin : search.Within g inside) (hlike : Mirrors h plan rename inside search image) :
    (search.run g plan).Mirrors rename (image.run h plan) := by
  induction image using run_induction h plan generalizing search with
  | nil marks =>
      rcases search with ⟨entered, agenda⟩
      cases hlike.nil
      rw [run_nil, run_nil]
      exact ⟨hlike.entered, rfl⟩
  | leave marks imageId imageRest ih =>
      rcases search with ⟨entered, agenda⟩
      rcases hlike.leave with ⟨id, rest, rfl, hrest⟩
      rw [run_leave, run_leave]
      exact ih hwithin.leave hrest
  | idle marks imageId imageTarget imagePending imageRest hidle ih =>
      rcases search with ⟨entered, agenda⟩
      rw [run_idle hidle]
      rcases hlike.idle hidle with hput | ⟨id, target, pending, rest, rfl, rfl, rfl, hpass⟩
      · exact ih hwithin hput
      · have htarget : inside target := hwithin.inside_head hmirror.closed
        have hsame : target = id ∨ Idle g plan entered target :=
          (idle_image_iff hmirror hlike.inside hlike.entered hwithin.head.left htarget).mp hidle
        rw [run_idle hsame]
        exact ih hwithin.pass hpass
  | missing marks imageId imageTarget imagePending imageRest hne hnode =>
      rcases search with ⟨entered, agenda⟩
      rcases hlike.exists_head hne (not_idle_of_missing hnode) with
        ⟨id, target, pending, rest, rfl, rfl, rfl, _⟩
      have htarget : inside target := hwithin.inside_head hmirror.closed
      have hself : target ≠ id := fun h => hne (congrArg rename h)
      rw [run_missing hne hnode, run_missing hself ((hmirror.node?_eq_none_iff htarget).mp hnode)]
      exact ⟨hlike.entered, rfl⟩
  | stop marks imageId imageTarget image imagePending imageRest hne himage hjudge =>
      rcases search with ⟨entered, agenda⟩
      rcases hlike.exists_head hne (not_idle_of_stop himage hjudge) with
        ⟨id, target, pending, rest, rfl, rfl, rfl, _⟩
      have htarget : inside target := hwithin.inside_head hmirror.closed
      have hself : target ≠ id := fun h => hne (congrArg rename h)
      rcases hmirror.exists_node?_of_image htarget himage with ⟨node, hnode, hstate, _⟩
      rw [run_stop hne himage hjudge, run_stop hself hnode (hstate ▸ hjudge)]
      exact ⟨hlike.entered, rfl⟩
  | enter marks imageId imageTarget image imagePending imageRest hne himage hjudge hnew ih =>
      rcases search with ⟨entered, agenda⟩
      rcases hlike.exists_head hne (not_idle_of_new himage hjudge hnew) with
        ⟨id, target, pending, rest, rfl, rfl, rfl, hpadded, hrest⟩
      have htarget : inside target := hwithin.inside_head hmirror.closed
      have hself : target ≠ id := fun h => hne (congrArg rename h)
      rcases hmirror.exists_node?_of_image htarget himage with ⟨node, hnode, hstate, htargets⟩
      have hfresh : ¬ target ∈ entered := by
        rw [<- mem_image_iff hmirror hlike.inside hlike.entered htarget]
        exact hnew
      have hidle : Idle h plan (marks.add (rename target)) (rename target) :=
        idle_add_self himage hjudge
      rw [run_enter hne himage hjudge hnew, run_enter hself hnode (hstate ▸ hjudge) hfresh]
      exact ih (hwithin.enter htarget hnode) (hlike.enter htarget hidle hpadded htargets hrest)

end Mirror
end Search
end PatternWalk
