import Mathlib.Data.List.TakeWhile
import PatternWalk.Text.Quoted

/-!
# Readable texts

A way of writing is readable when what is written for a value can be told from what is
written for any other value without knowing where it ends: from equal texts that go on in
any way, the value comes back and so does the rest.  A numeral is readable only if what
follows cannot be taken for one more digit, so readability is relative to what may follow.
-/

namespace PatternWalk
namespace Text

/-- The value can be read off the front of the text, if what follows is as it has to be. -/
def Readable {α : Type} (write : α -> List Char) (Follows : List Char -> Prop) : Prop :=
  forall (a b : α) (rest other : List Char),
    Follows rest -> Follows other -> write a ++ rest = write b ++ other -> a = b ∧ rest = other

def Anything (_ : List Char) : Prop := True

/-- A separator may follow a value and so may an end, and no end begins with a separator. -/
structure Separator (sep : List Char) (Follows Ends : List Char -> Prop) : Prop where
  follows : forall rest : List Char, Follows (sep ++ rest)
  ends : forall rest : List Char, Ends rest -> Follows rest
  stops : forall rest other : List Char, Ends rest -> rest ≠ sep ++ other

namespace Readable

variable {α β : Type} {Follows Ends : List Char -> Prop}
variable {write : α -> List Char} {writeNext : β -> List Char} {opening closing sep : List Char}

theorem injective (h : Readable write Follows) (hend : Follows []) {a b : α}
    (heq : write a = write b) : a = b :=
  (h a b [] [] hend hend (by rw [heq])).left

theorem between (h : Readable write Follows)
    (hclosing : forall rest : List Char, Follows (closing ++ rest)) :
    Readable (fun a => opening ++ (write a ++ closing)) Anything := by
  intro a b rest other _ _ heq
  simp only [List.append_assoc] at heq
  have hinner := List.append_cancel_left heq
  rcases h a b _ _ (hclosing rest) (hclosing other) hinner with ⟨hvalue, hrest⟩
  exact ⟨hvalue, List.append_cancel_left hrest⟩

theorem pair (h : Readable write Follows) (sep : List Char)
    (hsep : forall rest : List Char, Follows (sep ++ rest)) (hnext : Readable writeNext Ends) :
    Readable (fun entry : α × β => write entry.1 ++ (sep ++ writeNext entry.2)) Ends := by
  rintro ⟨a, b⟩ ⟨a', b'⟩ rest other hrest hother heq
  simp only [List.append_assoc] at heq
  rcases h a a' _ _ (hsep _) (hsep _) heq with ⟨rfl, htail⟩
  rcases hnext b b' rest other hrest hother (List.append_cancel_left htail) with ⟨rfl, hrest⟩
  exact ⟨rfl, hrest⟩

theorem comp (h : Readable write Follows) (part : β -> α)
    (hpart : forall b b' : β, part b = part b' -> b = b') :
    Readable (fun b => write (part b)) Follows := by
  intro b b' rest other hrest hother heq
  rcases h _ _ rest other hrest hother heq with ⟨hvalue, htail⟩
  exact ⟨hpart b b' hvalue, htail⟩

/-!
# Rows of values
-/

def behind (sep : List Char) (write : α -> List Char) (values : List α) : List Char :=
  values.flatMap (fun a => sep ++ write a)

theorem behind_cons_append (sep : List Char) (write : α -> List Char) (a : α)
    (values : List α) (rest : List Char) :
    behind sep write (a :: values) ++ rest =
      sep ++ (write a ++ (behind sep write values ++ rest)) := by
  simp only [behind, List.flatMap_cons, List.append_assoc]

theorem intercalate_cons_append (sep : List Char) (write : α -> List Char) (a : α)
    (values : List α) (rest : List Char) :
    List.intercalate sep ((a :: values).map write) ++ rest =
      write a ++ (behind sep write values ++ rest) := by
  induction values generalizing a with
  | nil => simp [behind]
  | cons b values ih =>
      rw [List.map_cons, List.map_cons, List.intercalate_cons_cons, List.append_assoc,
        List.append_assoc, <- List.map_cons, ih, behind_cons_append]

theorem follows_behind (hsep : Separator sep Follows Ends) (write : α -> List Char)
    (values : List α) {rest : List Char} (hrest : Ends rest) :
    Follows (behind sep write values ++ rest) := by
  cases values with
  | nil => exact hsep.ends rest hrest
  | cons a values =>
      rw [behind_cons_append]
      exact hsep.follows _

theorem readable_behind (h : Readable write Follows) (hsep : Separator sep Follows Ends) :
    Readable (behind sep write) Ends := by
  intro values
  induction values with
  | nil =>
      intro values' rest other hrest hother heq
      cases values' with
      | nil => exact ⟨rfl, heq⟩
      | cons b values' =>
          rw [behind_cons_append] at heq
          exact absurd heq (hsep.stops _ _ hrest)
  | cons a values ih =>
      intro values' rest other hrest hother heq
      cases values' with
      | nil =>
          rw [behind_cons_append] at heq
          exact absurd heq.symm (hsep.stops _ _ hother)
      | cons b values' =>
          rw [behind_cons_append, behind_cons_append] at heq
          rcases h a b _ _ (follows_behind hsep write values hrest)
            (follows_behind hsep write values' hother)
            (List.append_cancel_left heq) with ⟨rfl, htail⟩
          rcases ih values' rest other hrest hother htail with ⟨rfl, hend⟩
          exact ⟨rfl, hend⟩

/-- Joined values are readable up to an end, if no end begins like a value. -/
theorem joined (h : Readable write Follows) (hsep : Separator sep Follows Ends)
    (hvalue : forall (a : α) (rest other : List Char), Ends rest -> rest ≠ write a ++ other) :
    Readable (fun values : List α => List.intercalate sep (values.map write)) Ends := by
  intro values values' rest other hrest hother heq
  cases values with
  | nil =>
      cases values' with
      | nil => exact ⟨rfl, heq⟩
      | cons b values' =>
          rw [intercalate_cons_append] at heq
          exact absurd heq (hvalue b _ _ hrest)
  | cons a values =>
      cases values' with
      | nil =>
          rw [intercalate_cons_append] at heq
          exact absurd heq.symm (hvalue a _ _ hother)
      | cons b values' =>
          rw [intercalate_cons_append, intercalate_cons_append] at heq
          rcases h a b _ _ (follows_behind hsep write values hrest)
            (follows_behind hsep write values' hother) heq with ⟨rfl, htail⟩
          rcases readable_behind h hsep values values' rest other hrest hother htail with
            ⟨rfl, hend⟩
          exact ⟨rfl, hend⟩

end Readable

/-!
# Numerals
-/

def NoDigit (rest : List Char) : Prop :=
  forall (c : Char) (tail : List Char), rest = c :: tail -> c.isAlphanum = false

theorem noDigit_cons {c : Char} (h : c.isAlphanum = false) (tail : List Char) :
    NoDigit (c :: tail) := by
  intro d _ heq
  injection heq with hfirst _
  rw [<- hfirst]
  exact h

theorem isAlphanum_digitChar :
    forall digit : Nat, digit < 16 -> (Nat.digitChar digit).isAlphanum = true := by
  decide

theorem eq_of_digitChar_eq :
    forall digit : Nat, digit < 16 -> forall other : Nat, other < 16 ->
      Nat.digitChar digit = Nat.digitChar other -> digit = other := by
  decide

section Numerals

variable {base : Nat}

theorem isAlphanum_of_mem_toDigits (hbase : 1 < base) (hbound : base <= 16) (n : Nat) :
    forall c : Char, c ∈ Nat.toDigits base n -> c.isAlphanum = true := by
  induction n using Nat.strongRecOn with
  | ind n ih =>
      intro c hc
      rcases Nat.lt_or_ge n base with hlt | hge
      · rw [Nat.toDigits_of_lt_base hlt, List.mem_singleton] at hc
        rw [hc]
        exact isAlphanum_digitChar n (by omega)
      · rw [Nat.toDigits_of_base_le hbase hge, List.mem_append, List.mem_singleton] at hc
        rcases hc with hfront | hlast
        · exact ih (n / base) (Nat.div_lt_self (by omega) hbase) c hfront
        · have hdigit : n % base < base := Nat.mod_lt n (by omega)
          rw [hlast]
          exact isAlphanum_digitChar _ (by omega)

theorem toDigits_ne_singleton (hbase : 1 < base) {n : Nat} (hge : base <= n) (c : Char) :
    Nat.toDigits base n ≠ [c] := by
  intro h
  rw [Nat.toDigits_of_base_le hbase hge, <- List.nil_append [c]] at h
  exact Nat.toDigits_ne_nil (List.append_inj' h rfl).left

theorem eq_of_toDigits_eq (hbase : 1 < base) (hbound : base <= 16) (n : Nat) :
    forall m : Nat, Nat.toDigits base n = Nat.toDigits base m -> n = m := by
  induction n using Nat.strongRecOn with
  | ind n ih =>
      intro m h
      rcases Nat.lt_or_ge n base with hn | hn
      · rw [Nat.toDigits_of_lt_base hn] at h
        rcases Nat.lt_or_ge m base with hm | hm
        · rw [Nat.toDigits_of_lt_base hm, List.singleton_inj] at h
          exact eq_of_digitChar_eq n (by omega) m (by omega) h
        · exact absurd h.symm (toDigits_ne_singleton hbase hm _)
      · rcases Nat.lt_or_ge m base with hm | hm
        · rw [Nat.toDigits_of_lt_base hm] at h
          exact absurd h (toDigits_ne_singleton hbase hn _)
        · rw [Nat.toDigits_of_base_le hbase hn, Nat.toDigits_of_base_le hbase hm] at h
          rcases List.append_inj' h rfl with ⟨hfront, hlast⟩
          have hquot : n / base = m / base :=
            ih (n / base) (Nat.div_lt_self (by omega) hbase) (m / base) hfront
          have hmod : n % base = m % base := by
            have hn' : n % base < base := Nat.mod_lt n (by omega)
            have hm' : m % base < base := Nat.mod_lt m (by omega)
            exact eq_of_digitChar_eq _ (by omega) _ (by omega) (List.singleton_inj.mp hlast)
          rw [<- Nat.div_add_mod n base, hquot, hmod, Nat.div_add_mod]

theorem takeWhile_toDigits_append (hbase : 1 < base) (hbound : base <= 16) (n : Nat)
    {rest : List Char} (hrest : NoDigit rest) :
    (Nat.toDigits base n ++ rest).takeWhile Char.isAlphanum = Nat.toDigits base n := by
  rw [List.takeWhile_append_of_pos (isAlphanum_of_mem_toDigits hbase hbound n)]
  cases rest with
  | nil => rw [List.takeWhile_nil, List.append_nil]
  | cons c tail =>
      rw [List.takeWhile_cons_of_neg (Bool.not_eq_true _ ▸ hrest c tail rfl), List.append_nil]

theorem ne_toDigits_append (hbase : 1 < base) (hbound : base <= 16) (n : Nat)
    {rest : List Char} (hrest : NoDigit rest) (other : List Char) :
    rest ≠ Nat.toDigits base n ++ other := by
  intro heq
  cases hdigits : Nat.toDigits base n with
  | nil => exact Nat.toDigits_ne_nil hdigits
  | cons c tail =>
      rw [hdigits, List.cons_append] at heq
      have hdigit : c.isAlphanum = true := by
        refine isAlphanum_of_mem_toDigits hbase hbound n c ?_
        rw [hdigits]
        exact List.mem_cons_self
      rw [hrest c _ heq] at hdigit
      cases hdigit

theorem readable_toDigits (hbase : 1 < base) (hbound : base <= 16) :
    Readable (Nat.toDigits base) NoDigit := by
  intro n m rest other hrest hother heq
  have hdigits : Nat.toDigits base n = Nat.toDigits base m := by
    rw [<- takeWhile_toDigits_append hbase hbound n hrest, heq,
      takeWhile_toDigits_append hbase hbound m hother]
  rw [hdigits] at heq
  exact ⟨eq_of_toDigits_eq hbase hbound n m hdigits, List.append_cancel_left heq⟩

end Numerals

/-!
# Quoted characters
-/

def shortEscapes : List (Char × Char) :=
  [('\x00', '0'), ('\t', 't'), ('\n', 'n'), ('\r', 'r'), ('\'', '\''), ('\\', '\\')]

theorem mem_shortEscapes {c e : Char} (h : shortEscape? c = some e) : (c, e) ∈ shortEscapes := by
  unfold shortEscape? at h
  split at h <;> cases h <;> decide

theorem shortEscape?_injective {a b e : Char} (ha : shortEscape? a = some e)
    (hb : shortEscape? b = some e) : a = b := by
  have hdistinct : forall p : Char × Char, p ∈ shortEscapes ->
      forall q : Char × Char, q ∈ shortEscapes -> p.2 = q.2 -> p.1 = q.1 := by
    decide
  exact hdistinct _ (mem_shortEscapes ha) _ (mem_shortEscapes hb) rfl

theorem shortEscape?_ne_u (c : Char) : shortEscape? c ≠ some 'u' := by
  intro h
  have hnone : forall p : Char × Char, p ∈ shortEscapes -> p.2 ≠ 'u' := by decide
  exact hnone _ (mem_shortEscapes h) rfl

theorem ne_backslash_of_shortEscape? {c : Char} (h : shortEscape? c = none) : c ≠ '\\' := by
  rintro rfl
  cases h

theorem readable_hexDigits : Readable hexDigits NoDigit :=
  (readable_toDigits (by decide) (by decide)).comp Char.toNat (fun _ _ => Char.toNat_inj.mp)

/-- The three forms an escape can have, whichever characters are hidden. -/
inductive Escapes (c : Char) : List Char -> Prop where
  | short {e : Char} : shortEscape? c = some e -> Escapes c ['\\', e]
  | point : Escapes c ('\\' :: 'u' :: '\x7b' :: (hexDigits c ++ ['\x7d']))
  | plain : c ≠ '\\' -> Escapes c [c]

theorem escapes_escape (hidden : Char -> Bool) (c : Char) : Escapes c (escape hidden c) := by
  unfold escape
  cases hshort : shortEscape? c with
  | some e => exact Escapes.short hshort
  | none =>
      cases hidden c with
      | true => exact Escapes.point
      | false => exact Escapes.plain (ne_backslash_of_shortEscape? hshort)

/-- Characters are told apart by the forms of their escapes. -/
theorem Escapes.readable {a b : Char} {front back rest other : List Char}
    (ha : Escapes a front) (hb : Escapes b back) (heq : front ++ rest = back ++ other) :
    a = b ∧ rest = other := by
  cases ha with
  | short ha =>
      cases hb with
      | short hb =>
          injection heq with _ heq
          injection heq with hsame hrest
          rw [<- hsame] at hb
          exact ⟨shortEscape?_injective ha hb, hrest⟩
      | point =>
          injection heq with _ heq
          injection heq with hsame _
          rw [hsame] at ha
          exact absurd ha (shortEscape?_ne_u a)
      | plain hb =>
          injection heq with hsame _
          exact absurd hsame.symm hb
  | point =>
      cases hb with
      | short hb =>
          injection heq with _ heq
          injection heq with hsame _
          rw [<- hsame] at hb
          exact absurd hb (shortEscape?_ne_u b)
      | point =>
          simp only [List.cons_append, List.append_assoc, List.cons.injEq, true_and] at heq
          rcases readable_hexDigits a b _ _ (noDigit_cons rfl _) (noDigit_cons rfl _) heq with
            ⟨rfl, hclosing⟩
          injection hclosing with _ hrest
          exact ⟨rfl, hrest⟩
      | plain hb =>
          injection heq with hsame _
          exact absurd hsame.symm hb
  | plain ha =>
      cases hb with
      | short =>
          injection heq with hsame _
          exact absurd hsame ha
      | point =>
          injection heq with hsame _
          exact absurd hsame ha
      | plain =>
          injection heq with hsame hrest
          exact ⟨hsame, hrest⟩

theorem readable_escape (hidden : Char -> Bool) : Readable (escape hidden) Anything := by
  intro a b rest other _ _ heq
  exact (escapes_escape hidden a).readable (escapes_escape hidden b) heq

theorem toList_quoted (hidden : Char -> Bool) (c : Char) :
    (quoted hidden c).toList = ['\''] ++ (escape hidden c ++ ['\'']) := by
  rw [quoted, String.toList_ofList]
  rfl

theorem readable_quoted (hidden : Char -> Bool) :
    Readable (fun c => (quoted hidden c).toList) Anything := by
  have hbetween : Readable (fun c => ['\''] ++ (escape hidden c ++ ['\''])) Anything :=
    (readable_escape hidden).between (fun _ => trivial)
  simpa only [toList_quoted] using hbetween

end Text
end PatternWalk
