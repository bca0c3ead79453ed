import PatternWalk.Graph.Dump
import PatternWalk.Graph.Renaming
import PatternWalk.Text.Readable

/-!
# Faithfulness of the shown graph

A shown graph can be read.  No name, label or list of targets can be taken for another
one, whatever characters the literals hold, whichever of them are hidden and whatever
follows, so the text gives back the lines and with them every node that can be reached from
the start.  Graphs that look the same therefore answer the same.
-/

namespace PatternWalk

open Text (Readable Anything NoDigit Separator)

variable (hidden : Char -> Bool)

/-!
# Labels
-/

namespace Atom

theorem readable_label : Readable (fun a : Atom => (a.label hidden).toList) Anything := by
  intro a b rest other _ _ heq
  rcases a with _ | c <;> rcases b with _ | d <;> dsimp only [label] at heq
  · exact ⟨rfl, List.append_cancel_left heq⟩
  · simp at heq
  · simp at heq
  · simp only [String.toList_append, List.append_assoc] at heq
    have hquoted := List.append_cancel_left heq
    rcases Text.readable_quoted hidden c d _ _ trivial trivial hquoted with ⟨rfl, htail⟩
    exact ⟨rfl, List.append_cancel_left htail⟩

end Atom

namespace State

def form : State -> Nat
  | start => 0
  | final => 1
  | single _ => 2
  | loop _ _ => 3

/-- The form of the states whose labels begin with the character. -/
def formOf (c : Char) : Nat :=
  if c = 'S' then 0 else if c = 'T' then 1 else if c = 'R' then 3 else 2

theorem formOf_label (s : State) (rest : List Char) :
    ((s.label hidden).toList ++ rest).head?.map formOf = some s.form := by
  rcases s with _ | _ | (_ | c) | ⟨_ | _, a⟩ <;> dsimp only [label, Atom.label, form] <;>
    simp [formOf]

theorem loop_label_eq {word : String} {a b : Atom} {rest other : List Char}
    (heq : (word ++ a.label hidden ++ ")").toList ++ rest =
      (word ++ b.label hidden ++ ")").toList ++ other) :
    a = b ∧ rest = other := by
  simp only [String.toList_append, List.append_assoc] at heq
  rcases Atom.readable_label hidden a b _ _ trivial trivial (List.append_cancel_left heq) with
    ⟨rfl, htail⟩
  exact ⟨rfl, List.append_cancel_left htail⟩

theorem readable_label : Readable (fun s : State => (s.label hidden).toList) Anything := by
  intro s t rest other _ _ heq
  have hform : s.form = t.form := by
    have hsome := s.formOf_label hidden rest
    rw [heq, formOf_label] at hsome
    exact (Option.some.inj hsome).symm
  match s, t, hform with
  | start, start, _ => exact ⟨rfl, List.append_cancel_left heq⟩
  | final, final, _ => exact ⟨rfl, List.append_cancel_left heq⟩
  | single a, single b, _ =>
      rcases Atom.readable_label hidden a b rest other trivial trivial heq with ⟨rfl, htail⟩
      exact ⟨rfl, htail⟩
  | loop q a, loop r b, _ =>
      rcases q with _ | _ <;> rcases r with _ | _ <;> dsimp only [label] at heq
      · rcases loop_label_eq hidden heq with ⟨rfl, htail⟩
        exact ⟨rfl, htail⟩
      · simp at heq
      · simp at heq
      · rcases loop_label_eq hidden heq with ⟨rfl, htail⟩
        exact ⟨rfl, htail⟩

end State

/-!
# Lines
-/

theorem readable_decimal : Readable (Nat.toDigits 10) NoDigit :=
  Text.readable_toDigits (by decide) (by decide)

theorem toList_toString (n : Nat) : (toString n).toList = Nat.toDigits 10 n := by
  rw [Nat.toString_eq_ofList_toDigits, String.toList_ofList]

def ClosesTargets (rest : List Char) : Prop :=
  exists tail : List Char, rest = ']' :: tail

theorem ClosesTargets.noDigit {rest : List Char} (h : ClosesTargets rest) : NoDigit rest := by
  rcases h with ⟨tail, rfl⟩
  exact Text.noDigit_cons rfl tail

theorem separator_targets : Separator ", ".toList NoDigit ClosesTargets where
  follows rest := Text.noDigit_cons rfl (' ' :: rest)
  ends _ := ClosesTargets.noDigit
  stops := by
    rintro rest other ⟨tail, rfl⟩
    simp

theorem readable_targets :
    Readable (fun targets : List Nat => "[".toList ++
      (List.intercalate ", ".toList (targets.map (Nat.toDigits 10)) ++ "]".toList)) Anything := by
  have hjoined : Readable (fun targets : List Nat =>
      List.intercalate ", ".toList (targets.map (Nat.toDigits 10))) ClosesTargets := by
    refine readable_decimal.joined separator_targets ?_
    intro n rest other hrest
    exact Text.ne_toDigits_append (by decide) (by decide) n hrest.noDigit other
  exact hjoined.between (fun rest => ⟨rest, rfl⟩)

namespace Node

theorem toList_line (id : Nat) (node : Node) :
    (node.line hidden id).toList =
      Nat.toDigits 10 id ++ (": ".toList ++ ((node.state.label hidden).toList ++ (" -> ".toList ++
        ("[".toList ++ (List.intercalate ", ".toList (node.targets.map (Nat.toDigits 10)) ++
          "]".toList))))) := by
  have hopening : " -> [".toList = " -> ".toList ++ "[".toList := by decide
  have hdecimals : String.toList ∘ toString = Nat.toDigits 10 := funext toList_toString
  simp only [line, String.toList_append, String.toList_intercalate, List.map_map, hdecimals,
    toList_toString, hopening, List.append_assoc]

theorem eq_of_parts : forall node other : Node,
    (node.state, node.targets) = (other.state, other.targets) -> node = other := by
  rintro ⟨state, targets⟩ ⟨state', targets'⟩ h
  cases h
  rfl

theorem readable_line :
    Readable (fun entry : Nat × Node => (entry.2.line hidden entry.1).toList) Anything := by
  have hparts :=
    (State.readable_label hidden).pair " -> ".toList (fun _ => trivial) readable_targets
  have hnode := hparts.comp (fun node : Node => (node.state, node.targets)) eq_of_parts
  simp only [toList_line]
  exact readable_decimal.pair ": ".toList (fun _ => Text.noDigit_cons rfl _) hnode

theorem line_ne_nil (id : Nat) (node : Node) : (node.line hidden id).toList ≠ [] := by
  rw [toList_line]
  exact List.append_ne_nil_of_left_ne_nil Nat.toDigits_ne_nil _

end Node

/-!
# Graphs
-/

namespace Graph

theorem separator_lines : Separator "\n".toList Anything (fun rest => rest = []) where
  follows _ := trivial
  ends _ _ := trivial
  stops := by
    rintro rest other rfl
    simp

theorem readable_lines :
    Readable (fun entries : List (Nat × Node) => List.intercalate "\n".toList
      (entries.map (fun entry => (entry.2.line hidden entry.1).toList)))
      (fun rest => rest = []) := by
  refine (Node.readable_line hidden).joined separator_lines ?_
  rintro ⟨id, node⟩ rest other rfl heq
  exact Node.line_ne_nil hidden id node (List.append_eq_nil_iff.mp heq.symm).left

theorem eq_of_lines_eq {entries others : List (Nat × Node)}
    (h : String.intercalate "\n" (entries.map (fun entry => entry.2.line hidden entry.1)) =
      String.intercalate "\n" (others.map (fun entry => entry.2.line hidden entry.1))) :
    entries = others := by
  have hlists := congrArg String.toList h
  simp only [String.toList_intercalate, List.map_map] at hlists
  exact (readable_lines hidden).injective rfl hlists

/-- Graphs that are shown in the same way are laid out in the same way. -/
theorem layout_eq_of_dump_eq {g h : Graph} {ids others : List Nat}
    (hg : g.walk = Except.ok ids) (hh : h.walk = Except.ok others)
    (hdump : g.dump hidden = h.dump hidden) :
    exists entries : List (Nat × Node),
      g.layout = Except.ok entries ∧ h.layout = Except.ok entries := by
  rcases exists_layout_of_walk hg with ⟨entries, hentries⟩
  rcases exists_layout_of_walk hh with ⟨entries', hentries'⟩
  rw [dump_of_layout hentries, dump_of_layout hentries'] at hdump
  rw [<- eq_of_lines_eq hidden (Except.ok.inj hdump)] at hentries'
  exact ⟨entries, hentries, hentries'⟩

/-- Graphs that can be walked and are shown in the same way, whichever characters are hidden,
have the same nodes under the same names wherever a run can get to, and accept the same
texts. -/
theorem nodes_and_accepts_of_dump_eq {g h : Graph} {ids others : List Nat}
    (hg : g.walk = Except.ok ids) (hh : h.walk = Except.ok others)
    (hdump : g.dump hidden = h.dump hidden) :
    (exists shown : String, g.dump hidden = Except.ok shown) ∧
      others = ids ∧
      (forall id : Nat, h.Reaches startId id <-> g.Reaches startId id) ∧
      (forall id : Nat, g.Reaches startId id ->
        exists node : Node, g.node? id = some node ∧ h.node? id = some node) ∧
      forall text : String,
        exists answer : Bool,
          g.accepts text = Except.ok answer ∧ h.accepts text = Except.ok answer := by
  rcases layout_eq_of_dump_eq hidden hg hh hdump with ⟨entries, hentries, hentries'⟩
  rcases layout_eq_ok_iff.mp hentries with ⟨hwalk, hnodes⟩
  rcases layout_eq_ok_iff.mp hentries' with ⟨hwalk', hnodes'⟩
  have hids : others = ids :=
    (Except.ok.inj (hh.symm.trans hwalk')).trans (Except.ok.inj (hwalk.symm.trans hg))
  have hreached : forall id : Nat, g.Reaches startId id ->
      exists node : Node, g.node? id = some node ∧ h.node? id = some node := by
    intro id hid
    rcases List.mem_map.mp ((mem_iff_reaches_of_walk hwalk id).mpr hid) with
      ⟨⟨name, node⟩, hentry, rfl⟩
    exact ⟨node, hnodes _ hentry, hnodes' _ hentry⟩
  refine ⟨⟨_, dump_of_layout hentries hidden⟩, hids, ?_, hreached, ?_⟩
  · intro id
    rw [<- mem_iff_reaches_of_walk hh, hids, mem_iff_reaches_of_walk hg]
  · have hrename : g.Renaming h id := by
      refine Renaming.of_node? ?_
      intro name hname
      rcases hreached name hname with ⟨node, hnode, hnode'⟩
      rw [hnode, hnode']
    exact hrename.exists_accepts (intact_of_walk hg)

/-- Literals that are also punctuation, and a node that nothing leads to. -/
def punctuated : Graph where
  nodes := #[
    ⟨State.start, [2]⟩,
    ⟨State.final, []⟩,
    ⟨State.loop Quantifier.plus (Atom.char ','), [3, 2]⟩,
    ⟨State.single (Atom.char '\''), [4]⟩,
    ⟨State.final, []⟩]
  nonempty := by decide

def punctuatedLittered : Graph where
  nodes := #[
    ⟨State.start, [2]⟩,
    ⟨State.loop Quantifier.star Atom.any, [7, 0]⟩,
    ⟨State.loop Quantifier.plus (Atom.char ','), [3, 2]⟩,
    ⟨State.single (Atom.char '\''), [4]⟩,
    ⟨State.final, []⟩,
    ⟨State.single (Atom.char ']'), [4]⟩]
  nonempty := by decide

def punctuatedEntries : List (Nat × Node) := [
  (0, ⟨State.start, [2]⟩),
  (2, ⟨State.loop Quantifier.plus (Atom.char ','), [3, 2]⟩),
  (3, ⟨State.single (Atom.char '\''), [4]⟩),
  (4, ⟨State.final, []⟩)]

theorem nodes_and_accepts_of_dump_eq_punctuated :
    punctuated.walk = Except.ok [0, 2, 3, 4] ∧
      punctuatedLittered.walk = Except.ok [0, 2, 3, 4] ∧
        punctuated.dump Text.isNongraphic = punctuatedLittered.dump Text.isNongraphic ∧
          forall text : String,
            exists answer : Bool,
              punctuated.accepts text = Except.ok answer ∧
                punctuatedLittered.accepts text = Except.ok answer := by
  have hwalk : punctuated.walk = Except.ok [0, 2, 3, 4] := by cbv
  have hwalk' : punctuatedLittered.walk = Except.ok [0, 2, 3, 4] := by cbv
  have hlayout : punctuated.layout = Except.ok punctuatedEntries := by cbv
  have hlayout' : punctuatedLittered.layout = Except.ok punctuatedEntries := by cbv
  have hdump :
      punctuated.dump Text.isNongraphic = punctuatedLittered.dump Text.isNongraphic := by
    rw [dump_of_layout hlayout, dump_of_layout hlayout']
  rcases nodes_and_accepts_of_dump_eq Text.isNongraphic hwalk hwalk' hdump with
    ⟨_, _, _, _, haccepts⟩
  exact ⟨hwalk, hwalk', hdump, haccepts⟩

end Graph
end PatternWalk
