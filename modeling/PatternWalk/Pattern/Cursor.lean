import PatternWalk.Pattern.Symbol

/-!
# Reading position in a pattern

A cursor stands between the symbols already read and those still ahead.  Each
symbol is handed out once, together with the number of symbols before it, and
an exhausted cursor stays exhausted.  The length of the whole pattern can be
asked for at any time.
-/

namespace PatternWalk

/-- A symbol and the number of symbols before it. -/
structure Placed where
  position : Nat
  symbol : Symbol
deriving DecidableEq

structure Cursor where
  passed : Nat
  ahead : List Symbol
deriving DecidableEq

namespace Cursor

def ofText (text : String) : Cursor :=
  ⟨0, Symbol.ofText text⟩

def length (cursor : Cursor) : Nat :=
  cursor.passed + cursor.ahead.length

/-!
# Reading
-/

def next? (cursor : Cursor) : Option (Placed × Cursor) :=
  match cursor.ahead with
  | [] => none
  | s :: rest => some (⟨cursor.passed, s⟩, ⟨cursor.passed + 1, rest⟩)

theorem length_of_next? {cursor after : Cursor} {p : Placed}
    (h : cursor.next? = some (p, after)) : after.length = cursor.length := by
  rcases cursor with ⟨n, _ | ⟨s, rest⟩⟩
  · cases h
  · cases h
    simp only [length, List.length_cons]
    omega

def drain (cursor : Cursor) : List Placed × Cursor :=
  match _h : cursor.next? with
  | none => ([], cursor)
  | some (p, after) =>
      let rest := after.drain
      (p :: rest.1, rest.2)
termination_by cursor.ahead.length
decreasing_by
  rcases cursor with ⟨n, _ | ⟨s, rest⟩⟩
  · cases _h
  · cases _h
    exact Nat.lt_succ_self _

def symbols (cursor : Cursor) : List Placed :=
  cursor.drain.1

@[simp] theorem symbols_nil (n : Nat) : symbols ⟨n, []⟩ = [] := by
  rw [symbols, drain]
  rfl

@[simp] theorem symbols_cons (n : Nat) (s : Symbol) (rest : List Symbol) :
    symbols ⟨n, s :: rest⟩ = ⟨n, s⟩ :: symbols ⟨n + 1, rest⟩ := by
  rw [symbols, drain]
  rfl

theorem map_position_symbols (n : Nat) (ahead : List Symbol) :
    (symbols ⟨n, ahead⟩).map Placed.position = List.range' n ahead.length := by
  induction ahead generalizing n with
  | nil => rw [symbols_nil, List.map_nil, List.length_nil, List.range'_zero]
  | cons s rest ih => rw [symbols_cons, List.map_cons, ih, List.length_cons, List.range'_succ]

theorem map_symbol_symbols (n : Nat) (ahead : List Symbol) :
    (symbols ⟨n, ahead⟩).map Placed.symbol = ahead := by
  induction ahead generalizing n with
  | nil => rw [symbols_nil, List.map_nil]
  | cons s rest ih => rw [symbols_cons, List.map_cons, ih]

/-!
# Asking again
-/

/-- The cursor behind the next symbol.  An exhausted cursor stays where it is. -/
def behind (cursor : Cursor) : Cursor :=
  match cursor.next? with
  | none => cursor
  | some (_, after) => after

/-- The cursor after it has been asked for the next symbol so many times. -/
def asked (cursor : Cursor) : Nat -> Cursor
  | 0 => cursor
  | n + 1 => cursor.behind.asked n

theorem length_behind (cursor : Cursor) : cursor.behind.length = cursor.length := by
  unfold behind
  cases h : cursor.next? with
  | none => rfl
  | some result => exact length_of_next? h

theorem length_asked (cursor : Cursor) (n : Nat) : (cursor.asked n).length = cursor.length := by
  induction n generalizing cursor with
  | zero => rfl
  | succ n ih => rw [asked, ih, length_behind]

theorem asked_add (cursor : Cursor) (n m : Nat) :
    cursor.asked (n + m) = (cursor.asked n).asked m := by
  induction n generalizing cursor with
  | zero => rw [Nat.zero_add, asked]
  | succ n ih => rw [Nat.succ_add, asked, asked, ih]

theorem asked_of_exhausted {cursor : Cursor} (h : cursor.next? = none) (n : Nat) :
    cursor.asked n = cursor := by
  induction n with
  | zero => rfl
  | succ n ih =>
      rw [asked, behind, h]
      exact ih

/-- The answers of a cursor are its symbols in order, and no more. -/
theorem next?_asked (cursor : Cursor) (n : Nat) :
    (cursor.asked n).next?.map Prod.fst = cursor.symbols[n]? := by
  induction n generalizing cursor with
  | zero =>
      rcases cursor with ⟨k, _ | ⟨s, rest⟩⟩
      · rw [symbols_nil]
        rfl
      · rw [symbols_cons]
        rfl
  | succ n ih =>
      rcases cursor with ⟨k, _ | ⟨s, rest⟩⟩
      · rw [asked_of_exhausted rfl, symbols_nil]
        rfl
      · rw [symbols_cons, List.getElem?_cons_succ]
        exact ih ⟨k + 1, rest⟩

end Cursor

end PatternWalk
