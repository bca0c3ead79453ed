/-!
# Marked numbers

A traversal marks the numbers it has been to and asks again and again whether a
number is marked.  Marks keep the order in which numbers were marked, the latest
first, and beside it one number whose bits answer that question at once.  The
order is what is reasoned about: a number is marked when it occurs there.
-/

namespace PatternWalk

structure Marks where
  order : List Nat
  mask : Nat
  testBit_mask : forall i : Nat, mask.testBit i = true <-> i ∈ order

namespace Marks

instance : Membership Nat Marks where
  mem marks i := i ∈ marks.order

instance (i : Nat) (marks : Marks) : Decidable (i ∈ marks) :=
  decidable_of_iff (marks.mask.testBit i = true) (marks.testBit_mask i)

theorem mem_iff {i : Nat} {marks : Marks} : i ∈ marks <-> i ∈ marks.order :=
  Iff.rfl

/-!
# Marking
-/

def empty : Marks where
  order := []
  mask := 0
  testBit_mask i := by simp

def add (marks : Marks) (i : Nat) : Marks where
  order := i :: marks.order
  mask := marks.mask ||| 1 <<< i
  testBit_mask j := by
    rw [Nat.testBit_or, Nat.one_shiftLeft, Nat.testBit_two_pow, Bool.or_eq_true,
      marks.testBit_mask j, List.mem_cons, decide_eq_true_iff]
    constructor
    · intro h
      cases h with
      | inl hold => exact Or.inr hold
      | inr hnew => exact Or.inl hnew.symm
    · intro h
      cases h with
      | inl hnew => exact Or.inr hnew.symm
      | inr hold => exact Or.inl hold

@[simp] theorem order_empty : empty.order = [] := rfl

@[simp] theorem order_add (marks : Marks) (i : Nat) :
    (marks.add i).order = i :: marks.order := rfl

theorem not_mem_empty (i : Nat) : ¬ i ∈ empty := by
  intro h
  cases h

@[simp] theorem mem_add {i j : Nat} {marks : Marks} :
    j ∈ marks.add i <-> j = i ∨ j ∈ marks :=
  List.mem_cons

end Marks

end PatternWalk
