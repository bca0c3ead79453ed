import PatternWalk.Graph.BreadthFirst

/-!
# Gathering nodes in breadth-first order

The nodes of a graph are gathered by looking at the targets of those gathered so far, in
the order in which these were gathered.  A target that has a node and is new is gathered
next.  When there are no more targets to look at, the nodes have been gathered in
breadth-first order.  Gathering goes on to this end from wherever it has got to.
-/

namespace PatternWalk
namespace Graph

/-- The nodes gathered behind the start, and the targets that have been looked at. -/
inductive Gathers (g : Graph) : List Nat -> List Nat -> Prop where
  | start : Gathers g [] []
  | known {named seen rest : List Nat} {target : Nat} :
      Gathers g named seen ->
        (startId :: named).flatMap g.targets = seen ++ target :: rest ->
          target ∈ startId :: named ∨ g.size <= target ->
            Gathers g named (seen ++ [target])
  | new {named seen rest : List Nat} {target : Nat} :
      Gathers g named seen ->
        (startId :: named).flatMap g.targets = seen ++ target :: rest ->
          target < g.size -> ¬ target ∈ startId :: named ->
            Gathers g (named ++ [target]) (seen ++ [target])

namespace Gathers

variable {g : Graph} {named seen rest : List Nat} {id other target : Nat}

/-!
# What has been gathered
-/

theorem known_of_mem_seen (h : g.Gathers named seen) (hid : id ∈ seen) :
    id ∈ startId :: named ∨ g.size <= id := by
  induction h with
  | start => cases hid
  | known _ _ hknown ih =>
      rcases List.mem_append.mp hid with hold | hnew
      · exact ih hold
      · rw [List.mem_singleton.mp hnew]
        exact hknown
  | new _ _ _ _ ih =>
      rcases List.mem_append.mp hid with hold | hnew
      · exact (ih hold).imp_left (fun hmem => List.mem_append_left _ hmem)
      · exact Or.inl (List.mem_append_right (startId :: _) hnew)

theorem mem_seen (h : g.Gathers named seen) (hid : id ∈ named) : id ∈ seen := by
  induction h with
  | start => cases hid
  | known _ _ _ ih => exact List.mem_append_left _ (ih hid)
  | new _ _ _ _ ih =>
      rcases List.mem_append.mp hid with hold | hnew
      · exact List.mem_append_left _ (ih hold)
      · exact List.mem_append_right _ hnew

theorem reaches (h : g.Gathers named seen) (hid : id ∈ startId :: named) :
    g.Reaches startId id := by
  induction h generalizing id with
  | start =>
      cases List.mem_singleton.mp hid
      exact Reaches.refl g.startId_lt_size
  | known _ _ _ ih => exact ih hid
  | @new named seen rest target _ hlisted hlt _ ih =>
      have hparts : id ∈ (startId :: named) ++ [target] := hid
      rcases List.mem_append.mp hparts with hold | hnew
      · exact ih hold
      · have hmem : target ∈ (startId :: named).flatMap g.targets := by
          rw [hlisted]
          exact List.mem_append_right seen List.mem_cons_self
        rcases List.mem_flatMap.mp hmem with ⟨mid, hmid, htarget⟩
        rw [List.mem_singleton.mp hnew]
        exact Reaches.step (ih hmid) htarget hlt

theorem nodup (h : g.Gathers named seen) : (startId :: named).Nodup := by
  induction h with
  | start => exact List.nodup_singleton startId
  | known _ _ _ ih => exact ih
  | @new named _ _ target _ _ _ hnew ih =>
      have hconcat := ih.concat hnew
      rw [List.concat_eq_append] at hconcat
      exact hconcat

theorem length_lt_size (h : g.Gathers named seen) : named.length < g.size := by
  have hsubset : startId :: named ⊆ List.range g.size := by
    intro id hid
    exact List.mem_range.mpr (h.reaches hid).lt_size
  have hle := h.nodup.length_le_of_subset hsubset
  rw [List.length_cons, List.length_range] at hle
  exact hle

theorem pairwise_append (h : g.Gathers named seen)
    (hpairs : named.Pairwise (fun id other => seen.idxOf id < seen.idxOf other))
    (more : List Nat) :
    named.Pairwise (fun id other => (seen ++ more).idxOf id < (seen ++ more).idxOf other) := by
  apply hpairs.imp_of_mem
  intro id other hid hother hlt
  rw [List.idxOf_append_of_mem (h.mem_seen hid), List.idxOf_append_of_mem (h.mem_seen hother)]
  exact hlt

/-- Nodes have been gathered in the order in which they were looked at first. -/
theorem pairwise (h : g.Gathers named seen) :
    named.Pairwise (fun id other => seen.idxOf id < seen.idxOf other) := by
  induction h with
  | start => exact List.Pairwise.nil
  | known hold _ _ ih => exact hold.pairwise_append ih _
  | @new named seen _ target hold _ hlt hnew ih =>
      have hunseen : ¬ target ∈ seen := by
        intro hseen
        rcases hold.known_of_mem_seen hseen with hmem | hmissing
        · exact hnew hmem
        · exact absurd hlt (Nat.not_lt.mpr hmissing)
      apply List.pairwise_append.mpr
      refine ⟨hold.pairwise_append ih _, List.pairwise_singleton _ target, ?_⟩
      intro id hid other hother
      cases List.mem_singleton.mp hother
      have hlength := List.idxOf_lt_length_of_mem (hold.mem_seen hid)
      rw [List.idxOf_append_of_mem (hold.mem_seen hid), List.idxOf_append_of_notMem hunseen]
      omega

/-!
# Gathering to the end
-/

theorem look (h : g.Gathers named seen)
    (hlisted : (startId :: named).flatMap g.targets = seen ++ rest) :
    g.Gathers named (seen ++ rest) ∨
      exists (target : Nat) (looked : List Nat), g.Gathers (named ++ [target]) looked := by
  induction rest generalizing seen with
  | nil =>
      rw [List.append_nil]
      exact Or.inl h
  | cons target rest ih =>
      by_cases hknown : target ∈ startId :: named ∨ g.size <= target
      · have hseen : (startId :: named).flatMap g.targets = (seen ++ [target]) ++ rest := by
          rw [hlisted, List.append_assoc]
          rfl
        have hrest := ih (h.known hlisted hknown) hseen
        rw [List.append_assoc] at hrest
        exact hrest
      · rcases not_or.mp hknown with ⟨hnew, hlt⟩
        exact Or.inr ⟨target, _, h.new hlisted (Nat.not_le.mp hlt) hnew⟩

theorem exists_rest (h : g.Gathers named seen) :
    exists rest : List Nat, (startId :: named).flatMap g.targets = seen ++ rest := by
  cases h with
  | start => exact ⟨_, rfl⟩
  | @known _ _ rest _ _ hlisted _ =>
      refine ⟨rest, ?_⟩
      rw [hlisted, List.append_assoc]
      rfl
  | @new named _ rest target _ hlisted _ _ =>
      refine ⟨rest ++ g.targets target, ?_⟩
      show ((startId :: named) ++ [target]).flatMap g.targets = _
      rw [List.flatMap_append, hlisted, List.flatMap_singleton, List.append_assoc,
        List.append_assoc]
      rfl

/-- Gathering can go on to the end, as there are only so many nodes. -/
theorem exists_complete (h : g.Gathers named seen) :
    exists more : List Nat,
      g.Gathers (named ++ more) ((startId :: (named ++ more)).flatMap g.targets) := by
  induction hleft : g.size - named.length generalizing named seen with
  | zero =>
      have hlt := h.length_lt_size
      omega
  | succ n ih =>
      rcases h.exists_rest with ⟨rest, hlisted⟩
      rcases h.look hlisted with hdone | ⟨target, looked, hnext⟩
      · refine ⟨[], ?_⟩
        rw [List.append_nil, hlisted]
        exact hdone
      · have hlength : g.size - (named ++ [target]).length = n := by
          rw [List.length_append, List.length_singleton]
          omega
        rcases ih hnext hlength with ⟨more, hmore⟩
        rw [List.append_assoc] at hmore
        exact ⟨target :: more, hmore⟩

/-!
# The order at the end
-/

theorem mem_of_reaches (h : g.Gathers named ((startId :: named).flatMap g.targets))
    (hid : g.Reaches startId id) : id ∈ startId :: named := by
  induction hid with
  | refl _ => exact List.mem_cons_self
  | step _ htarget hlt ih =>
      have hseen := List.mem_flatMap.mpr ⟨_, ih, htarget⟩
      exact (h.known_of_mem_seen hseen).resolve_right (Nat.not_le.mpr hlt)

theorem idxOf_of_mem (h : g.Gathers named seen) (hid : id ∈ named) :
    (startId :: named).idxOf id = named.idxOf id + 1 := by
  have hne : startId ≠ id := fun heq => (List.nodup_cons.mp h.nodup).left (heq ▸ hid)
  exact List.idxOf_cons_ne named hne

theorem idxOf_lt_of_lt (h : g.Gathers named seen) (hid : id ∈ named) (hother : other ∈ named)
    (hlt : named.idxOf id < named.idxOf other) : seen.idxOf id < seen.idxOf other := by
  have hpair := List.pairwise_iff_getElem.mp h.pairwise _ _
    (List.idxOf_lt_length_of_mem hid) (List.idxOf_lt_length_of_mem hother) hlt
  rw [List.getElem_idxOf, List.getElem_idxOf] at hpair
  exact hpair

theorem idxOf_lt_iff (h : g.Gathers named seen) (hid : id ∈ named) (hother : other ∈ named) :
    (startId :: named).idxOf id < (startId :: named).idxOf other <->
      seen.idxOf id < seen.idxOf other := by
  rw [h.idxOf_of_mem hid, h.idxOf_of_mem hother, Nat.add_lt_add_iff_right]
  constructor
  · exact h.idxOf_lt_of_lt hid hother
  · intro hlt
    rcases Nat.lt_trichotomy (named.idxOf id) (named.idxOf other) with hearlier | heq | hlater
    · exact hearlier
    · rw [(List.idxOf_inj hid).mp heq] at hlt
      exact absurd hlt (Nat.lt_irrefl _)
    · exact absurd hlt (Nat.lt_asymm (h.idxOf_lt_of_lt hother hid hlater))

theorem mem_of_distance (h : g.Gathers named ((startId :: named).flatMap g.targets)) {n : Nat}
    (hid : g.Distance startId id (n + 1)) : id ∈ named := by
  have hne : id ≠ startId := by
    intro heq
    rw [heq] at hid
    cases hid.eq_zero
  exact List.mem_of_ne_of_mem hne (h.mem_of_reaches hid.reaches)

theorem exists_lister_up_to (h : g.Gathers named ((startId :: named).flatMap g.targets))
    (hid : id ∈ named) (hother : other ∈ named)
    (hlt : (startId :: named).idxOf id < (startId :: named).idxOf other) {mid : Nat}
    (hmid : mid ∈ startId :: named) (hlists : other ∈ g.targets mid) :
    exists source : Nat,
      source ∈ startId :: named ∧ id ∈ g.targets source ∧
        (startId :: named).idxOf source <= (startId :: named).idxOf mid := by
  have hseen := h.mem_seen hid
  have hotherseen := h.mem_seen hother
  have hlex := (idxOf_flatMap_lt_iff hseen hotherseen).mp ((h.idxOf_lt_iff hid hother).mp hlt)
  rcases exists_lister hseen with ⟨source, hsource, htarget, hlisting, _⟩
  rcases exists_lister hotherseen with ⟨first, _, _, hfirstlisting, hfirst⟩
  rw [hlisting, hfirstlisting, Prod.lex_def] at hlex
  refine ⟨source, hsource, htarget, Nat.le_trans ?_ (hfirst mid hmid hlists)⟩
  rcases hlex with hbefore | ⟨hsame, _⟩
  · exact Nat.le_of_lt hbefore
  · exact Nat.le_of_eq hsame

theorem nearer (h : g.Gathers named ((startId :: named).flatMap g.targets)) {m n : Nat}
    (hid : id ∈ startId :: named)
    (hlt : (startId :: named).idxOf id < (startId :: named).idxOf other)
    (hm : g.Distance startId id m) (hn : g.Distance startId other n) : m <= n := by
  induction n generalizing id other m with
  | zero =>
      rw [hn.eq_of_zero, List.idxOf_cons_self] at hlt
      cases hlt
  | succ n ih =>
      rcases List.mem_cons.mp hid with rfl | hnamed
      · rw [hm.eq_zero]
        exact Nat.zero_le _
      · rcases hn.exists_nearer with ⟨mid, hmid, hlists⟩
        rcases h.exists_lister_up_to hnamed (h.mem_of_distance hn) hlt
          (h.mem_of_reaches hmid.reaches) hlists with ⟨source, hsource, htarget, hle⟩
        rcases (h.reaches hsource).exists_distance with ⟨k, hk⟩
        have hnearer : k <= n := by
          rcases Nat.lt_or_eq_of_le hle with hbefore | hsame
          · exact ih hsource hbefore hk hmid
          · rw [(List.idxOf_inj hsource).mp hsame] at hk
            exact Nat.le_of_eq (hk.unique hmid)
        exact Nat.le_trans (hk.le_succ hm htarget) (Nat.succ_le_succ hnearer)

/-- At the end, the nodes have been gathered in breadth-first order. -/
theorem breadthFirst (h : g.Gathers named ((startId :: named).flatMap g.targets)) :
    g.BreadthFirst (startId :: named) where
  head := rfl
  nodup := h.nodup
  mem_iff _ := ⟨h.reaches, h.mem_of_reaches⟩
  nearer _ _ _ _ hid _ hlt hm hn := h.nearer hid hlt hm hn
  listed id other n hid hother := by
    cases n with
    | zero =>
        rw [hid.eq_of_zero, hother.eq_of_zero, Prod.lex_def]
        exact iff_of_false (Nat.lt_irrefl _) (by simp)
    | succ n =>
        have hnamed := h.mem_of_distance hid
        have hothernamed := h.mem_of_distance hother
        rw [h.idxOf_lt_iff hnamed hothernamed]
        exact idxOf_flatMap_lt_iff (h.mem_seen hnamed) (h.mem_seen hothernamed)

end Gathers

end Graph
end PatternWalk
