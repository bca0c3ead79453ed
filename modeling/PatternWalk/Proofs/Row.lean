import PatternWalk.Build

/-!
# The graph of a row of items

A pattern that is a row of items becomes a row of nodes.  Each item has one node,
which goes on to the node behind it and, when the item is repeated, loops first;
the final node stands behind the last one.  A text that is no row of items is not
built at all.
-/

namespace PatternWalk

def Item.node (item : Item) (id : Nat) : Node :=
  ⟨item.state, if item.isRepeated then [id, id + 1] else [id + 1]⟩

namespace Graph

/-!
# Rows of nodes
-/

/-- From the given name on stand the nodes of a row of items and the final node. -/
def HasRow (g : Graph) : Nat -> List Item -> Prop
  | id, [] => g.node? id = some ⟨State.final, []⟩
  | id, item :: rest => g.node? id = some (item.node id) ∧ g.HasRow (id + 1) rest

theorem HasRow.of_append {g : Graph} {front back : List Item} {id : Nat}
    (h : g.HasRow id (front ++ back)) : g.HasRow (id + front.length) back := by
  induction front generalizing id with
  | nil => exact h
  | cons item rest ih =>
      have hrest := ih h.right
      rw [List.length_cons, Nat.add_comm rest.length 1, <- Nat.add_assoc]
      exact hrest

theorem HasRow.node?_of_getElem? {g : Graph} {items : List Item} {item : Item} {id i : Nat}
    (h : g.HasRow id items) (hitem : items[i]? = some item) :
    g.node? (id + i) = some (item.node (id + i)) := by
  rcases List.getElem?_eq_some_iff.mp hitem with ⟨hi, hget⟩
  have hsplit : items = items.take i ++ item :: items.drop (i + 1) := by
    rw [<- hget, List.getElem_cons_drop, List.take_append_drop]
  rw [hsplit] at h
  have hrow := h.of_append
  rw [List.length_take_of_le (Nat.le_of_lt hi)] at hrow
  exact hrow.left

theorem HasRow.node?_length {g : Graph} {items : List Item} {id : Nat}
    (h : g.HasRow id items) : g.node? (id + items.length) = some ⟨State.final, []⟩ := by
  rw [<- List.append_nil items] at h
  exact h.of_append

theorem HasRow.ne_final {g : Graph} {item : Item} {rest : List Item} {id : Nat}
    (h : g.HasRow id (item :: rest)) : g.node? id ≠ some ⟨State.final, []⟩ := by
  intro hfinal
  rw [h.left] at hfinal
  exact item.state_ne_final (congrArg Node.state (Option.some.inj hfinal))

theorem HasRow.length_eq {g : Graph} {items others : List Item} {id : Nat}
    (hitems : g.HasRow id items) (hothers : g.HasRow id others) :
    items.length = others.length := by
  induction items generalizing id others with
  | nil =>
      cases others with
      | nil => rfl
      | cons other rest => exact absurd hitems hothers.ne_final
  | cons item items ih =>
      cases others with
      | nil => exact absurd hothers hitems.ne_final
      | cons other others => exact congrArg Nat.succ (ih hitems.right hothers.right)

/-!
# Laying a row

The row of a graph under construction is open at its end: the newest node does not
go on to anything yet.
-/

def place (g : Graph) (item : Item) : Graph :=
  match item.quantifier with
  | none => g.append (State.single item.atom)
  | some q => (g.append (State.single item.atom)).loopTail q item.atom

/-- Put the nodes of a row and the final node behind the newest node. -/
def lay (g : Graph) : List Item -> Graph
  | [] => g.append State.final
  | item :: rest => (g.place item).lay rest

@[simp] theorem size_place (g : Graph) (item : Item) : (g.place item).size = g.size + 1 := by
  unfold place
  split
  · exact size_append _ _
  · rw [size_loopTail, size_append]

@[simp] theorem tail_place (g : Graph) (item : Item) : (g.place item).tail = g.size := by
  rw [tail, size_place]
  rfl

theorem size_lay (g : Graph) (items : List Item) :
    (g.lay items).size = g.size + items.length + 1 := by
  induction items generalizing g with
  | nil => exact size_append _ _
  | cons item rest ih =>
      rw [lay, ih, size_place, List.length_cons]
      omega

theorem node?_place_of_lt {g : Graph} {item : Item} {id : Nat} (h : id < g.size) :
    (g.place item).node? id = (g.append (State.single item.atom)).node? id := by
  unfold place
  split
  · rfl
  · rw [node?_loopTail, tail_append, if_neg (Nat.ne_of_lt h)]

theorem node?_place_size (g : Graph) (item : Item) :
    (g.place item).node? g.size =
      some ⟨item.state, if item.isRepeated then [g.size] else []⟩ := by
  have hne : g.size ≠ g.tail := Nat.ne_of_gt g.tail_lt_size
  have happend : (g.append (State.single item.atom)).node? g.size =
      some ⟨State.single item.atom, []⟩ := by
    rw [node?_append, if_neg hne, if_pos rfl]
  unfold place Item.state Item.isRepeated
  cases hquantifier : item.quantifier with
  | none => exact happend
  | some q =>
      simp only [node?_loopTail, tail_append, happend]
      rfl

/-!
# Nodes of a row that has been laid
-/

theorem node?_lay_of_lt {g : Graph} {id : Nat} (h : id < g.tail) (items : List Item) :
    (g.lay items).node? id = g.node? id := by
  have hsize : id < g.size := Nat.lt_trans h g.tail_lt_size
  have happend : forall state : State, (g.append state).node? id = g.node? id := by
    intro state
    rw [node?_append, if_neg (Nat.ne_of_lt h), if_neg (Nat.ne_of_lt hsize)]
  cases items with
  | nil => exact happend State.final
  | cons item rest =>
      have hplace : id < (g.place item).tail := by
        rw [tail_place]
        exact hsize
      rw [lay, node?_lay_of_lt hplace rest, node?_place_of_lt hsize]
      exact happend _

theorem node?_lay_tail (g : Graph) (items : List Item) :
    (g.lay items).node? g.tail =
      (g.node? g.tail).map (fun node => { node with targets := node.targets ++ [g.size] }) := by
  have happend : forall state : State, (g.append state).node? g.tail =
      (g.node? g.tail).map (fun node => { node with targets := node.targets ++ [g.size] }) := by
    intro state
    rw [node?_append, if_pos rfl]
  cases items with
  | nil => exact happend State.final
  | cons item rest =>
      have hplace : g.tail < (g.place item).tail := by
        rw [tail_place]
        exact g.tail_lt_size
      rw [lay, node?_lay_of_lt hplace, node?_place_of_lt g.tail_lt_size]
      exact happend _

theorem hasRow_lay (g : Graph) (items : List Item) : (g.lay items).HasRow g.size items := by
  induction items generalizing g with
  | nil =>
      show (g.append State.final).node? g.size = some ⟨State.final, []⟩
      rw [node?_append, if_neg (Nat.ne_of_gt g.tail_lt_size), if_pos rfl]
  | cons item rest ih =>
      constructor
      · have htail := node?_lay_tail (g.place item) rest
        rw [tail_place, node?_place_size, size_place] at htail
        rw [lay, htail]
        unfold Item.node
        cases item.isRepeated <;> rfl
      · have hrest := ih (g.place item)
        rw [size_place] at hrest
        exact hrest

/-!
# Laying a row symbol by symbol
-/

/-- A symbol that begins an item is no quantifier, unless there is nothing to repeat. -/
def Begins (g : Graph) : List Symbol -> Prop
  | [] => True
  | s :: _ => Quantifier.ofSymbol? s = none ∨ g.repeatable? = none

theorem begins_of_repeatable? {g : Graph} (h : g.repeatable? = none) (symbols : List Symbol) :
    g.Begins symbols := by
  cases symbols with
  | nil => exact trivial
  | cons s rest => exact Or.inr h

theorem extend_atom {g : Graph} {s : Symbol} {a : Atom} (hatom : Atom.ofSymbol? s = some a)
    (n : Nat) :
    g.extend ⟨n, s⟩ =
      Except.ok (Record.appended g.tail g.size (State.single a), g.append (State.single a)) := by
  have hquantifier : Quantifier.ofSymbol? s = none := Quantifier.ofSymbol?_eq_none_of_atom hatom
  simp only [extend, hquantifier, hatom]

theorem extend_quantifier {g : Graph} {s : Symbol} {q : Quantifier} {a : Atom}
    (hquantifier : Quantifier.ofSymbol? s = some q) (hrepeatable : g.repeatable? = some a)
    (n : Nat) :
    g.extend ⟨n, s⟩ = Except.ok (Record.wrapped g.tail (State.loop q a), g.loopTail q a) := by
  simp only [extend, hquantifier, hrepeatable]

theorem exists_extend_eq_error {g : Graph} {s : Symbol} (hatom : Atom.ofSymbol? s = none)
    (hbegins : Quantifier.ofSymbol? s = none ∨ g.repeatable? = none) (n : Nat) :
    exists fault : Fault, g.extend ⟨n, s⟩ = Except.error fault := by
  unfold extend
  cases hquantifier : Quantifier.ofSymbol? s with
  | none =>
      simp only [hatom]
      exact ⟨_, rfl⟩
  | some q =>
      rcases hbegins with hnone | hnone
      · rw [hquantifier] at hnone
        cases hnone
      · simp only [hnone]
        exact ⟨_, rfl⟩

end Graph

namespace Build

/-- Building goes on to lay the items that the symbols ahead are read as. -/
theorem toOption_result_resume {g : Graph} {symbols : List Symbol} (hbegins : g.Begins symbols)
    (n : Nat) :
    (resume g (Cursor.symbols ⟨n, symbols⟩)).result.toOption =
      (Item.read? symbols).map g.lay := by
  fun_induction Item.read? symbols generalizing g n with
  | case1 =>
      rw [Cursor.symbols_nil]
      rfl
  | case2 s rest hatom =>
      rcases Graph.exists_extend_eq_error hatom hbegins n with ⟨fault, hextend⟩
      rw [Cursor.symbols_cons, resume, hextend]
      rfl
  | case3 s a hatom =>
      rw [Cursor.symbols_cons, resume, Graph.extend_atom hatom, Cursor.symbols_nil]
      rfl
  | case4 s a hatom q rest quantifier hquantifier ih =>
      have hloop := Graph.repeatable?_loopTail (g.append (State.single a)) quantifier a
      have hrest := ih (Graph.begins_of_repeatable? hloop rest) (n + 1 + 1)
      have hextend := Graph.extend_quantifier hquantifier (Graph.repeatable?_append g a) (n + 1)
      rw [Cursor.symbols_cons, Cursor.symbols_cons, resume, Graph.extend_atom hatom]
      show (resume _ (_ :: _)).result.toOption = _
      rw [resume, hextend, Option.map_map]
      exact hrest
  | case5 s a hatom q rest hquantifier ih =>
      have hrest := ih (g := g.append (State.single a)) (Or.inl hquantifier) (n + 1)
      rw [Cursor.symbols_cons, resume, Graph.extend_atom hatom, Option.map_map]
      exact hrest

theorem toOption_result_ofText (text : String) :
    (ofText text).result.toOption = (Item.ofText? text).map Graph.lone.lay := by
  rw [ofText_eq_resume]
  exact toOption_result_resume (Graph.begins_of_repeatable? rfl _) 0

theorem result_of_items {text : String} {items : List Item}
    (h : Item.ofText? text = some items) :
    (ofText text).result = Except.ok (Graph.lone.lay items) := by
  have hresult := toOption_result_ofText text
  rw [h] at hresult
  cases hbuilt : (ofText text).result with
  | ok built =>
      rw [hbuilt] at hresult
      cases hresult
      rfl
  | error fault =>
      rw [hbuilt] at hresult
      cases hresult

theorem exists_items_of_result {text : String} {built : Graph}
    (h : (ofText text).result = Except.ok built) :
    exists items : List Item,
      Item.ofText? text = some items ∧ built = Graph.lone.lay items := by
  have hresult := toOption_result_ofText text
  rw [h] at hresult
  rcases Option.map_eq_some_iff.mp hresult.symm with ⟨items, hitems, hlay⟩
  exact ⟨items, hitems, hlay.symm⟩

end Build

end PatternWalk
