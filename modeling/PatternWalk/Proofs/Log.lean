import PatternWalk.Proofs.FirstFault
import PatternWalk.Proofs.Shape

/-!
# What building leaves behind

Each symbol that is used leaves one record, and the numbers in it are the places of items in
the row: an item appears behind the one before it, and a quantifier turns the node of its own
item into what it is in the graph of the pattern.  Building that stops at a fault has left
the records of all symbols before it and no other, so that they are the records of the text
in front of the fault, without the one that says that the graph is complete.
-/

namespace PatternWalk

/-!
# Lines
-/

variable (hidden : Char -> Bool)

def Record.line (record : Record) : Level × String :=
  (record.level, record.text hidden)

def Item.lines (before : Nat) (item : Item) : List (Symbol × String) :=
  (item.atom.symbol,
      toString before ++ " -> " ++ toString (before + 1) ++
        " (" ++ item.atom.label hidden ++ ")") ::
    (item.quantifier.map (fun q =>
      (q.symbol, toString (before + 1) ++ " wrapped as " ++ item.state.label hidden))).toList

/-- The symbols of a row behind a number of other items, each with the sentence it leaves. -/
def Item.log : Nat -> List Item -> List (Symbol × String)
  | _, [] => []
  | before, item :: rest => item.lines hidden before ++ log (before + 1) rest

theorem Item.map_fst_log (before : Nat) (items : List Item) :
    (log hidden before items).map Prod.fst = spell items := by
  induction items generalizing before with
  | nil => rfl
  | cons item rest ih =>
      have hlines : (item.lines hidden before).map Prod.fst = item.symbols := by
        rcases item with ⟨a, _ | q⟩ <;> rfl
      rw [log, List.map_append, ih, hlines]
      rfl

namespace Graph

theorem tail_add_one (g : Graph) : g.tail + 1 = g.size :=
  Nat.sub_add_cancel g.nonempty

theorem level_of_extend {g extended : Graph} {placed : Placed} {record : Record}
    (h : g.extend placed = Except.ok (record, extended)) : record.level = Level.trace := by
  unfold extend at h
  split at h
  · split at h <;> cases h
    rfl
  · split at h <;> cases h
    rfl

theorem position_of_extend {g : Graph} {placed : Placed} {fault : Fault}
    (h : g.extend placed = Except.error fault) : fault.position = placed.position := by
  unfold extend at h
  split at h
  · split at h <;> cases h
    rfl
  · split at h <;> cases h
    rfl

end Graph

namespace Build

/-!
# Records of a row
-/

/-- The records of a row tell of its items in their order, and of the complete graph. -/
theorem lines_resume {g : Graph} {symbols : List Symbol} {items : List Item}
    (hread : Item.read? symbols = some items) (n : Nat) :
    (resume g (Cursor.symbols ⟨n, symbols⟩)).records.map (Record.line hidden) =
      (Item.log hidden g.tail items).map (fun entry => (Level.trace, entry.2)) ++
        [(Level.debug,
          "compiled automaton with " ++ toString (g.tail + items.length + 2) ++ " states")] := by
  fun_induction Item.read? symbols generalizing g n items with
  | case1 =>
      cases hread
      rw [Cursor.symbols_nil, resume, finish, Graph.size_append, <- g.tail_add_one]
      rfl
  | case2 s rest hatom => cases hread
  | case3 s a hatom =>
      cases hread
      rw [Cursor.symbols_cons, resume, Graph.extend_atom hatom, Cursor.symbols_nil]
      show _ :: [(Level.debug, _)] = _
      rw [Graph.size_append, Graph.size_append, <- g.tail_add_one]
      rfl
  | case4 s a hatom q rest quantifier hquantifier ih =>
      rcases Option.map_eq_some_iff.mp hread with ⟨behind, hbehind, rfl⟩
      have hrest := ih (g := (g.append (State.single a)).loopTail quantifier a) hbehind (n + 1 + 1)
      have hextend := Graph.extend_quantifier hquantifier (Graph.repeatable?_append g a) (n + 1)
      rw [Graph.tail_loopTail, Graph.tail_append, <- g.tail_add_one,
        Nat.add_right_comm g.tail 1] at hrest
      rw [Cursor.symbols_cons, Cursor.symbols_cons, resume, Graph.extend_atom hatom]
      show _ :: List.map (Record.line hidden) (resume _ (_ :: _)).records = _
      rw [resume, hextend]
      show _ :: _ :: List.map (Record.line hidden) (resume _ _).records = _
      rw [hrest, Graph.tail_append, <- g.tail_add_one]
      rfl
  | case5 s a hatom q rest hquantifier ih =>
      rcases Option.map_eq_some_iff.mp hread with ⟨behind, hbehind, rfl⟩
      have hrest := ih (g := g.append (State.single a)) hbehind (n + 1)
      rw [Graph.tail_append, <- g.tail_add_one, Nat.add_right_comm g.tail 1] at hrest
      rw [Cursor.symbols_cons, resume, Graph.extend_atom hatom]
      show _ :: List.map (Record.line hidden) (resume _ _).records = _
      rw [hrest, <- g.tail_add_one]
      rfl

/-!
# Records before a fault
-/

/-- Symbols are used one after the other, and each leaves one record. -/
inductive Uses : Graph -> List Placed -> List Record -> Graph -> Prop where
  | nil (g : Graph) : Uses g [] [] g
  | cons {g extended last : Graph} {placed : Placed} {rest : List Placed} {record : Record}
      {records : List Record} :
      g.extend placed = Except.ok (record, extended) -> Uses extended rest records last ->
        Uses g (placed :: rest) (record :: records) last

namespace Uses

variable {g last : Graph} {front : List Placed} {records : List Record}

theorem length_eq (h : Uses g front records last) : records.length = front.length := by
  induction h with
  | nil g => rfl
  | cons _ _ ih => rw [List.length_cons, List.length_cons, ih]

theorem level_eq (h : Uses g front records last) {record : Record} (hrecord : record ∈ records) :
    record.level = Level.trace := by
  induction h with
  | nil g => cases hrecord
  | cons hextend _ ih =>
      rcases List.mem_cons.mp hrecord with rfl | hrest
      · exact Graph.level_of_extend hextend
      · exact ih hrest

theorem resume_append (h : Uses g front records last) (rest : List Placed) :
    resume g (front ++ rest) =
      ⟨records ++ (resume last rest).records, (resume last rest).result⟩ := by
  induction h with
  | nil g => rfl
  | cons hextend _ ih =>
      rw [List.cons_append, resume, hextend]
      show note _ (resume _ _) = _
      rw [ih]
      rfl

end Uses

theorem exists_uses_of_fault {g : Graph} {symbols : List Placed} {fault : Fault}
    (h : (resume g symbols).result = Except.error fault) :
    exists (front : List Placed) (placed : Placed) (rest : List Placed)
        (records : List Record) (last : Graph),
      symbols = front ++ placed :: rest ∧ Uses g front records last ∧
        last.extend placed = Except.error fault := by
  induction symbols generalizing g with
  | nil => cases h
  | cons placed rest ih =>
      rw [resume] at h
      cases hextend : g.extend placed with
      | error other =>
          rw [hextend] at h
          cases h
          exact ⟨[], placed, rest, [], g, rfl, Uses.nil g, hextend⟩
      | ok made =>
          rcases made with ⟨record, extended⟩
          rw [hextend] at h
          rcases ih h with ⟨front, faulty, behind, records, last, rfl, huses, hfault⟩
          exact ⟨placed :: front, faulty, behind, record :: records, last, rfl,
            Uses.cons hextend huses, hfault⟩

end Build

theorem Cursor.symbols_take {n : Nat} {symbols : List Symbol} {front rest : List Placed}
    {placed : Placed} (h : Cursor.symbols ⟨n, symbols⟩ = front ++ placed :: rest) :
    placed.position = n + front.length ∧
      Cursor.symbols ⟨n, symbols.take front.length⟩ = front := by
  induction front generalizing n symbols with
  | nil =>
      cases symbols with
      | nil =>
          rw [Cursor.symbols_nil] at h
          cases h
      | cons s symbols =>
          rw [Cursor.symbols_cons] at h
          cases h
          exact ⟨rfl, Cursor.symbols_nil n⟩
  | cons first front ih =>
      cases symbols with
      | nil =>
          rw [Cursor.symbols_nil] at h
          cases h
      | cons s symbols =>
          rw [Cursor.symbols_cons, List.cons_append] at h
          rcases List.cons.inj h with ⟨rfl, hrest⟩
          rcases ih hrest with ⟨hposition, hfront⟩
          rw [List.length_cons, List.take_succ_cons, Cursor.symbols_cons, hfront, hposition]
          exact ⟨Nat.succ_add n front.length, rfl⟩

theorem Symbol.ofText_take (text : String) (k : Nat) :
    ofText (String.ofList (text.toList.take k)) = (ofText text).take k := by
  unfold ofText
  rw [String.toList_ofList, List.map_take]

namespace Build

/-- In front of a fault stands a text that is built, and leaves the same records before the
one of its complete graph. -/
theorem ofText_front {text : String} {fault : Fault}
    (h : (ofText text).result = Except.error fault) :
    exists graph : Graph,
      ofText (String.ofList (text.toList.take fault.position)) =
          ⟨(ofText text).records ++ [Record.completed graph.size], Except.ok graph⟩ ∧
        (ofText text).records.length = fault.position ∧
        forall record : Record,
          record ∈ (ofText text).records -> record.level = Level.trace := by
  rw [ofText_eq_resume] at h
  rcases exists_uses_of_fault h with ⟨front, placed, rest, records, last, hsymbols, huses, hfault⟩
  rcases Cursor.symbols_take hsymbols with ⟨hplaced, hfront⟩
  have hposition : fault.position = front.length := by
    rw [Graph.position_of_extend hfault, hplaced, Nat.zero_add]
  have hrecords : (ofText text).records = records := by
    rw [ofText_eq_resume, hsymbols, huses.resume_append, resume, hfault]
    exact List.append_nil records
  have hbuilt := huses.resume_append []
  rw [List.append_nil, <- hfront, <- hposition] at hbuilt
  refine ⟨last.append State.final, ?_, ?_, ?_⟩
  · rw [ofText_eq_resume, Cursor.ofText, Symbol.ofText_take, hrecords]
    exact hbuilt
  · rw [hrecords, huses.length_eq, hposition]
  · intro record hrecord
    rw [hrecords] at hrecord
    exact huses.level_eq hrecord

end Build

namespace Pattern

/-- The records of a pattern tell of each symbol in order where its item stands in the graph
and what has become of it there, and last of the size of the graph, whichever characters are
hidden.  A text with a fault leaves the records of the text in front of the fault, one for
each symbol there, but not the one of its graph. -/
theorem records_of_items_or_of_front (text : String) :
    (forall pattern : Pattern,
      parse text = Except.ok pattern ->
        exists items : List Item,
          Item.ofText? text = some items ∧
            pattern.graph.size = items.length + 2 ∧
            (forall (i : Nat) (item : Item),
              items[i]? = some item -> pattern.graph.state? (i + 1) = some item.state) ∧
            (Item.log hidden 0 items).map Prod.fst = Symbol.ofText text ∧
            pattern.records.map (Record.line hidden) =
              (Item.log hidden 0 items).map (fun entry => (Level.trace, entry.2)) ++
                [(Level.debug,
                  "compiled automaton with " ++ toString (items.length + 2) ++ " states")]) ∧
      forall fault : Fault,
        parse text = Except.error fault ->
          (exists front : Pattern,
            parse (String.ofList (text.toList.take fault.position)) = Except.ok front ∧
              front.records =
                (Build.ofText text).records ++ [Record.completed front.graph.size]) ∧
            (Build.ofText text).records.length = fault.position ∧
            forall record : Record,
              record ∈ (Build.ofText text).records -> record.level = Level.trace := by
  constructor
  · intro pattern hparse
    cases parse_eq_ok_iff.mp hparse
    rcases pattern.exists_items with ⟨items, hitems, hstands⟩
    have hrow : pattern.graph.HasRow 1 items := hstands.right
    refine ⟨items, hitems, size_graph hitems, ?_, ?_, ?_⟩
    · intro i item hitem
      have hnode := hrow.node?_of_getElem? hitem
      rw [Nat.add_comm 1 i] at hnode
      exact congrArg (Option.map Node.state) hnode
    · rw [Item.map_fst_log]
      exact Item.spell_of_read? hitems
    · have hlines := Build.lines_resume hidden (g := Graph.lone) hitems 0
      have htail : Graph.lone.tail = 0 := rfl
      rw [htail, Nat.zero_add] at hlines
      rw [records, Build.ofText_eq_resume]
      exact hlines
  · intro fault hparse
    rcases Build.ofText_front (result_of_parse_error hparse) with
      ⟨graph, hfront, hlength, hlevel⟩
    refine ⟨⟨⟨_, graph, congrArg Build.result hfront⟩, parse_eq_ok_iff.mpr rfl, ?_⟩, hlength,
      hlevel⟩
    exact congrArg Build.records hfront

theorem records_of_items_or_of_front_quantified_twice :
    parse "ab*+" = Except.error ⟨FaultCause.nothingToRepeat, '+', 3⟩ ∧
      (Build.ofText "ab*+").records.map (Record.line Text.isNongraphic) =
        [(Level.trace, "0 -> 1 (Literal('a'))"), (Level.trace, "1 -> 2 (Literal('b'))"),
          (Level.trace, "2 wrapped as RepeatZeroOrMore(Literal('b'))")] ∧
      exists front : Pattern,
        parse "ab*" = Except.ok front ∧ front.graph.size = 4 ∧
          front.records = (Build.ofText "ab*+").records ++ [Record.completed 4] := by
  have hsymbols : Symbol.ofText "ab*+" =
      [Symbol.literal 'a', Symbol.literal 'b', Symbol.star, Symbol.plus] := by cbv
  have hfault : parse "ab*+" = Except.error ⟨FaultCause.nothingToRepeat, '+', 3⟩ := by
    apply parse_of_result_error
    rw [Build.ofText_eq_resume, Cursor.ofText, hsymbols]
    simp only [Cursor.symbols_cons, Cursor.symbols_nil]
    rfl
  have hitems : Item.ofText? "ab*" =
      some [⟨Atom.char 'a', none⟩, ⟨Atom.char 'b', some Quantifier.star⟩] := by cbv
  have htext : String.ofList ("ab*+".toList.take 3) = "ab*" := by cbv
  rcases (records_of_items_or_of_front Text.isNongraphic "ab*+").right _ hfault with
    ⟨⟨front, hfront, hrecords⟩, _⟩
  rw [htext] at hfront
  rcases (records_of_items_or_of_front Text.isNongraphic "ab*").left front hfront with
    ⟨items, hrow, hsize, _, _, hlines⟩
  rw [hitems] at hrow
  cases hrow
  rw [hsize] at hrecords
  rw [hrecords, List.map_append] at hlines
  refine ⟨hfault, ?_, front, hfront, hsize, hrecords⟩
  rw [(List.append_inj' hlines rfl).left]
  decide +kernel

end Pattern

end PatternWalk
