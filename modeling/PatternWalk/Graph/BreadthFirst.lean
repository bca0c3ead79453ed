import Mathlib.Data.List.Nodup
import PatternWalk.Graph.Distance

/-!
# Breadth-first order

In breadth-first order come the nodes that can be reached from the start, nearer ones
before those further away.  Nodes equally far away are listed at nodes that come before
them, and their order is that of the places where they are listed first.

There is just one such order of a graph.
-/

namespace PatternWalk
namespace Graph

/-- Where a target is listed first: the place of the first node of a row that lists it,
and its place among the targets of that node. -/
def listing (g : Graph) (ids : List Nat) (target : Nat) : Nat × Nat :=
  let place := ids.findIdx (fun id => target ∈ g.targets id)
  (place, (g.targets (ids.getD place 0)).idxOf target)

structure BreadthFirst (g : Graph) (ids : List Nat) : Prop where
  head : ids.head? = some startId
  nodup : ids.Nodup
  mem_iff : forall id : Nat, id ∈ ids <-> g.Reaches startId id
  nearer : forall id other m n : Nat,
    id ∈ ids -> other ∈ ids -> ids.idxOf id < ids.idxOf other ->
      g.Distance startId id m -> g.Distance startId other n -> m <= n
  listed : forall id other n : Nat,
    g.Distance startId id n -> g.Distance startId other n ->
      (ids.idxOf id < ids.idxOf other <->
        Prod.Lex (· < ·) (· < ·) (g.listing ids id) (g.listing ids other))

variable {g : Graph} {ids others : List Nat} {id target n : Nat}

/-!
# Where targets are listed
-/

theorem listing_cons_of_mem (h : target ∈ g.targets id) (ids : List Nat) :
    g.listing (id :: ids) target = (0, (g.targets id).idxOf target) := by
  simp [listing, List.findIdx_cons, h]

theorem listing_cons_of_not_mem (h : ¬ target ∈ g.targets id) (ids : List Nat) :
    g.listing (id :: ids) target =
      ((g.listing ids target).1 + 1, (g.listing ids target).2) := by
  simp [listing, List.findIdx_cons, h]

theorem exists_lister (h : target ∈ ids.flatMap g.targets) :
    exists source : Nat,
      source ∈ ids ∧ target ∈ g.targets source ∧
        g.listing ids target = (ids.idxOf source, (g.targets source).idxOf target) ∧
        forall other : Nat,
          other ∈ ids -> target ∈ g.targets other -> ids.idxOf source <= ids.idxOf other := by
  induction ids with
  | nil => cases h
  | cons id rest ih =>
      by_cases hhere : target ∈ g.targets id
      · refine ⟨id, List.mem_cons_self, hhere, ?_, ?_⟩
        · rw [listing_cons_of_mem hhere, List.idxOf_cons_self]
        · intro other _ _
          rw [List.idxOf_cons_self]
          exact Nat.zero_le _
      · have hbehind : forall {other : Nat}, target ∈ g.targets other ->
            (id :: rest).idxOf other = rest.idxOf other + 1 := by
          intro other hother
          have hne : id ≠ other := fun heq => hhere (heq ▸ hother)
          exact List.idxOf_cons_ne rest hne
        rw [List.flatMap_cons] at h
        rcases ih ((List.mem_append.mp h).resolve_left hhere) with
          ⟨source, hsource, htarget, hlisting, hfirst⟩
        refine ⟨source, List.mem_cons_of_mem _ hsource, htarget, ?_, ?_⟩
        · rw [listing_cons_of_not_mem hhere, hlisting, hbehind htarget]
        · intro other hother hlists
          rw [hbehind htarget, hbehind hlists]
          have hne : other ≠ id := fun heq => hhere (heq ▸ hlists)
          exact Nat.succ_le_succ (hfirst other (List.mem_of_ne_of_mem hne hother) hlists)

/-- Targets are listed in the order in which they occur when the lists of all nodes of the
row are put together. -/
theorem idxOf_flatMap_lt_iff {other : Nat} (h : target ∈ ids.flatMap g.targets)
    (hother : other ∈ ids.flatMap g.targets) :
    (ids.flatMap g.targets).idxOf target < (ids.flatMap g.targets).idxOf other <->
      Prod.Lex (· < ·) (· < ·) (g.listing ids target) (g.listing ids other) := by
  induction ids with
  | nil => cases h
  | cons id rest ih =>
      rw [List.flatMap_cons, List.mem_append] at h hother
      rw [List.flatMap_cons, Prod.lex_def]
      by_cases hhere : target ∈ g.targets id
      · rw [List.idxOf_append_of_mem hhere, listing_cons_of_mem hhere]
        by_cases hthere : other ∈ g.targets id
        · rw [List.idxOf_append_of_mem hthere, listing_cons_of_mem hthere]
          simp
        · have hlt := List.idxOf_lt_length_of_mem hhere
          rw [List.idxOf_append_of_notMem hthere, listing_cons_of_not_mem hthere]
          refine iff_of_true ?_ (Or.inl (Nat.succ_pos _))
          omega
      · rw [List.idxOf_append_of_notMem hhere, listing_cons_of_not_mem hhere]
        by_cases hthere : other ∈ g.targets id
        · have hlt := List.idxOf_lt_length_of_mem hthere
          rw [List.idxOf_append_of_mem hthere, listing_cons_of_mem hthere]
          refine iff_of_false (by omega) ?_
          simp
        · have hrest := ih (h.resolve_left hhere) (hother.resolve_left hthere)
          rw [Prod.lex_def] at hrest
          rw [List.idxOf_append_of_notMem hthere, listing_cons_of_not_mem hthere,
            Nat.add_lt_add_iff_left, hrest, Nat.add_lt_add_iff_right, Nat.add_right_cancel_iff]

namespace BreadthFirst

/-!
# The only order
-/

theorem exists_first_lister (h : g.BreadthFirst ids)
    (htarget : g.Distance startId target (n + 1)) :
    exists source : Nat,
      source ∈ ids ∧ target ∈ g.targets source ∧ g.Distance startId source n ∧
        g.listing ids target = (ids.idxOf source, (g.targets source).idxOf target) ∧
        forall other : Nat,
          other ∈ ids -> target ∈ g.targets other -> ids.idxOf source <= ids.idxOf other := by
  rcases htarget.exists_nearer with ⟨mid, hmid, hlists⟩
  have hmem : mid ∈ ids := (h.mem_iff mid).mpr hmid.reaches
  rcases exists_lister (List.mem_flatMap.mpr ⟨mid, hmem, hlists⟩) with
    ⟨source, hsource, hsourcelists, hlisting, hfirst⟩
  rcases ((h.mem_iff source).mp hsource).exists_distance with ⟨k, hk⟩
  have hle : k <= n := by
    rcases Nat.lt_or_eq_of_le (hfirst mid hmem hlists) with hlt | heq
    · exact h.nearer source mid k n hsource hmem hlt hk hmid
    · rw [(List.idxOf_inj hsource).mp heq] at hk
      exact Nat.le_of_eq (hk.unique hmid)
  have hge : n <= k := Nat.le_of_succ_le_succ (hk.le_succ htarget hsourcelists)
  rw [Nat.le_antisymm hle hge] at hk
  exact ⟨source, hsource, hsourcelists, hk, hlisting, hfirst⟩

theorem eq_of_not_before {id other : Nat} (hid : id ∈ ids)
    (hsame : ids.idxOf id < ids.idxOf other <-> others.idxOf id < others.idxOf other)
    (hle : ids.idxOf id <= ids.idxOf other) (hge : others.idxOf other <= others.idxOf id) :
    id = other := by
  rcases Nat.lt_or_eq_of_le hle with hlt | heq
  · exact absurd (hsame.mp hlt) (Nat.not_lt.mpr hge)
  · exact (List.idxOf_inj hid).mp heq

theorem exists_common_lister (h : g.BreadthFirst ids) (hothers : g.BreadthFirst others)
    (hsame : forall id other : Nat,
      g.Distance startId id n -> g.Distance startId other n ->
        (ids.idxOf id < ids.idxOf other <-> others.idxOf id < others.idxOf other))
    (htarget : g.Distance startId target (n + 1)) :
    exists source : Nat,
      source ∈ ids ∧ source ∈ others ∧ g.Distance startId source n ∧
        g.listing ids target = (ids.idxOf source, (g.targets source).idxOf target) ∧
        g.listing others target = (others.idxOf source, (g.targets source).idxOf target) := by
  rcases h.exists_first_lister htarget with ⟨source, hmem, hlists, hdistance, hlisting, hfirst⟩
  rcases hothers.exists_first_lister htarget with
    ⟨source', hmem', hlists', hdistance', hlisting', hfirst'⟩
  have heq : source = source' := by
    apply eq_of_not_before hmem (hsame source source' hdistance hdistance')
    · exact hfirst source' ((h.mem_iff source').mpr hdistance'.reaches) hlists'
    · exact hfirst' source ((hothers.mem_iff source).mpr hdistance.reaches) hlists
  rw [<- heq] at hmem' hlisting'
  exact ⟨source, hmem, hmem', hdistance, hlisting, hlisting'⟩

/-- In two orders, nodes equally far away come in the same order. -/
theorem idxOf_lt_iff (h : g.BreadthFirst ids) (hothers : g.BreadthFirst others) {other : Nat}
    (htarget : g.Distance startId target n) (hother : g.Distance startId other n) :
    ids.idxOf target < ids.idxOf other <-> others.idxOf target < others.idxOf other := by
  induction n generalizing target other with
  | zero =>
      rw [htarget.eq_of_zero, hother.eq_of_zero]
      exact iff_of_false (Nat.lt_irrefl _) (Nat.lt_irrefl _)
  | succ n ih =>
      rcases h.exists_common_lister hothers (fun _ _ => ih) htarget with
        ⟨source, hmem, hmem', hdistance, hlisting, hlisting'⟩
      rcases h.exists_common_lister hothers (fun _ _ => ih) hother with
        ⟨source', _, _, hdistance', hlists, hlists'⟩
      rw [h.listed target other _ htarget hother, hothers.listed target other _ htarget hother,
        hlisting, hlisting', hlists, hlists', Prod.lex_def, Prod.lex_def,
        ih hdistance hdistance', List.idxOf_inj hmem, List.idxOf_inj hmem']

theorem idxOf_le_of_lt (h : g.BreadthFirst ids) (hothers : g.BreadthFirst others) {other : Nat}
    (htarget : target ∈ others) (hother : other ∈ others)
    (hlt : others.idxOf target < others.idxOf other) : ids.idxOf target <= ids.idxOf other := by
  have hreaches := (hothers.mem_iff target).mp htarget
  have hotherreaches := (hothers.mem_iff other).mp hother
  rcases hreaches.exists_distance with ⟨m, hm⟩
  rcases hotherreaches.exists_distance with ⟨n, hn⟩
  rcases Nat.lt_or_eq_of_le (hothers.nearer target other m n htarget hother hlt hm hn) with
    hnearer | rfl
  · apply Nat.le_of_not_lt
    intro hbefore
    have hle := h.nearer other target n m ((h.mem_iff other).mpr hotherreaches)
      ((h.mem_iff target).mpr hreaches) hbefore hn hm
    exact absurd hnearer (Nat.not_lt.mpr hle)
  · exact Nat.le_of_lt ((h.idxOf_lt_iff hothers hm hn).mpr hlt)

/-- A graph has no two breadth-first orders. -/
theorem unique (h : g.BreadthFirst ids) (hothers : g.BreadthFirst others) : ids = others := by
  have hperm : ids.Perm others := by
    apply (List.perm_ext_iff_of_nodup h.nodup hothers.nodup).mpr
    intro id
    rw [h.mem_iff id, hothers.mem_iff id]
  have hids : ids.Pairwise (fun id other => ids.idxOf id <= ids.idxOf other) := by
    apply List.pairwise_iff_getElem.mpr
    intro i j hi hj hij
    rw [h.nodup.idxOf_getElem i hi, h.nodup.idxOf_getElem j hj]
    exact Nat.le_of_lt hij
  have hrow : others.Pairwise (fun id other => ids.idxOf id <= ids.idxOf other) := by
    apply List.pairwise_iff_getElem.mpr
    intro i j hi hj hij
    apply h.idxOf_le_of_lt hothers (List.getElem_mem hi) (List.getElem_mem hj)
    rw [hothers.nodup.idxOf_getElem i hi, hothers.nodup.idxOf_getElem j hj]
    exact hij
  apply List.Perm.eq_of_pairwise _ hids hrow hperm
  intro id other hid _ hle hge
  exact (List.idxOf_inj hid).mp (Nat.le_antisymm hle hge)

end BreadthFirst

end Graph
end PatternWalk
