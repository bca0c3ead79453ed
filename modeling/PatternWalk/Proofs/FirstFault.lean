import PatternWalk.Pattern
import PatternWalk.Proofs.Row

/-!
# The first fault of a text

Which texts are patterns can be told from their characters alone.  A place of a text
is bad when its character has no meaning in patterns, or when it is a quantifier with
nothing before it to repeat, that is, at the beginning or behind another quantifier.
Building knows the character before only by the node it has left behind: the newest
node can be repeated exactly when the last character read stands for an atom.  A text
is therefore built when it has no bad place, and its fault reports the first one
otherwise.
-/

namespace PatternWalk

/-!
# Bad places
-/

/-- The metacharacters set aside and the characters beyond ASCII. -/
def IsMeaningless (c : Char) : Prop :=
  c ∈ ['?', '|', '(', ')', '\x7b', '\x7d', '[', ']', '^', '$', '\\'] ∨ 128 <= c.toNat

def IsQuantifier (c : Char) : Prop :=
  c = '*' ∨ c = '+'

instance (c : Char) : Decidable (IsMeaningless c) :=
  inferInstanceAs (Decidable (_ ∨ _))

instance (c : Char) : Decidable (IsQuantifier c) :=
  inferInstanceAs (Decidable (c = '*' ∨ c = '+'))

/-- The character at the given place cannot be used there. -/
def BadAt (text : List Char) (k : Nat) : Prop :=
  exists c : Char,
    text[k]? = some c ∧
      (IsMeaningless c ∨
        (IsQuantifier c ∧
          (k = 0 ∨ exists d : Char, text[k - 1]? = some d ∧ IsQuantifier d)))

def FirstBadAt (text : List Char) (k : Nat) : Prop :=
  BadAt text k ∧ forall j : Nat, j < k -> ¬ BadAt text j

theorem getElem?_append_length (before rest : List Char) (c : Char) :
    (before ++ c :: rest)[before.length]? = some c := by
  rw [List.getElem?_append_right (Nat.le_refl _), Nat.sub_self]
  rfl

theorem nothing_before_iff {before rest : List Char} :
    (before.length = 0 ∨
        exists d : Char, (before ++ rest)[before.length - 1]? = some d ∧ IsQuantifier d) <->
      forall d : Char, before.getLast? = some d -> IsQuantifier d := by
  cases hlast : before.getLast? with
  | none =>
      rw [List.getLast?_eq_none_iff.mp hlast]
      constructor
      · intro _ d hd
        cases hd
      · intro _
        exact Or.inl rfl
  | some last =>
      rcases List.getLast?_eq_some_iff.mp hlast with ⟨front, rfl⟩
      have hlength : (front ++ [last]).length = front.length + 1 := by
        rw [List.length_append]
        rfl
      have hprevious : ((front ++ [last]) ++ rest)[(front ++ [last]).length - 1]? =
          some last := by
        rw [hlength, Nat.add_sub_cancel, List.append_assoc]
        exact getElem?_append_length front rest last
      rw [hprevious]
      constructor
      · intro h d hd
        cases hd
        rcases h with hzero | ⟨other, hother, hquantifier⟩
        · rw [hlength] at hzero
          cases hzero
        · cases hother
          exact hquantifier
      · intro h
        exact Or.inr ⟨last, rfl, h last rfl⟩

theorem badAt_length_iff {before rest : List Char} {c : Char} :
    BadAt (before ++ c :: rest) before.length <->
      IsMeaningless c ∨
        (IsQuantifier c ∧ forall d : Char, before.getLast? = some d -> IsQuantifier d) := by
  unfold BadAt
  rw [getElem?_append_length, nothing_before_iff]
  constructor
  · intro h
    rcases h with ⟨d, hd, hbad⟩
    cases hd
    exact hbad
  · intro h
    exact ⟨c, rfl, h⟩

/-!
# Characters and symbols
-/

theorem reserved_iff {c : Char} :
    c ∈ ['?', '|', '(', ')', '\x7b', '\x7d', '[', ']', '^', '$', '\\'] <->
      exists r : Reserved, Reserved.ofChar? c = some r := by
  constructor
  · intro h
    have hmap : c ∈ Reserved.all.map Reserved.char := h
    rcases List.mem_map.mp hmap with ⟨r, _, hr⟩
    exact ⟨r, hr ▸ Reserved.ofChar?_char r⟩
  · intro h
    rcases h with ⟨r, hr⟩
    rw [<- Reserved.char_of_ofChar? hr]
    cases r <;> decide

theorem isQuantifier_iff {c : Char} :
    IsQuantifier c <->
      exists q : Quantifier, Quantifier.ofSymbol? (Symbol.ofChar c) = some q := by
  constructor
  · intro h
    rcases h with rfl | rfl
    · exact ⟨Quantifier.star, rfl⟩
    · exact ⟨Quantifier.plus, rfl⟩
  · intro h
    rcases h with ⟨q, hq⟩
    have hchar := Symbol.char_ofChar c
    rw [<- Quantifier.symbol_of_ofSymbol? hq] at hchar
    cases q with
    | star => exact Or.inl hchar.symm
    | plus => exact Or.inr hchar.symm

theorem not_isQuantifier_of_ofSymbol? {c : Char}
    (h : Quantifier.ofSymbol? (Symbol.ofChar c) = none) : ¬ IsQuantifier c := by
  intro hc
  rcases isQuantifier_iff.mp hc with ⟨q, hq⟩
  rw [h] at hq
  cases hq

theorem lt_128_iff {c : Char} : c.val < 128 <-> ¬ 128 <= c.toNat := by
  rw [UInt32.lt_iff_toNat_lt, Nat.not_le]
  rfl

theorem ofSymbol?_ofChar_eq_none_iff {c : Char} :
    Atom.ofSymbol? (Symbol.ofChar c) = none <-> IsMeaningless c ∨ IsQuantifier c := by
  unfold Symbol.ofChar
  split
  · rename_i hdot
    subst hdot
    decide
  · split
    · rename_i hstar
      exact iff_of_true rfl (Or.inr (Or.inl hstar))
    · split
      · rename_i hplus
        exact iff_of_true rfl (Or.inr (Or.inr hplus))
      · rename_i hstar hplus
        have hquantifier : ¬ IsQuantifier c := fun h => h.elim hstar hplus
        cases hreserved : Reserved.ofChar? c with
        | some r =>
            exact iff_of_true rfl (Or.inl (Or.inl (reserved_iff.mpr ⟨r, hreserved⟩)))
        | none =>
            have hlisted : ¬ c ∈ ['?', '|', '(', ')', '\x7b', '\x7d', '[', ']', '^', '$', '\\'] := by
              intro h
              rcases reserved_iff.mp h with ⟨r, hr⟩
              rw [hreserved] at hr
              cases hr
            have hmeaningless : IsMeaningless c <-> 128 <= c.toNat := or_iff_right hlisted
            show (if c.val < 128 then some (Atom.char c) else none) = none <-> _
            rw [or_iff_left hquantifier, hmeaningless, ite_eq_right_iff, lt_128_iff]
            constructor
            · intro h
              apply Decidable.not_not.mp
              intro hlt
              cases h hlt
            · intro h hlt
              exact absurd h hlt

/-!
# Reading on
-/

/-- The newest node can be repeated exactly when the last character read is an atom. -/
def Follows (g : Graph) (before : List Char) : Prop :=
  g.repeatable? = none <-> forall d : Char, before.getLast? = some d -> IsQuantifier d

def FaultCause.ofChar (c : Char) : FaultCause :=
  if c = '*' ∨ c = '+' then FaultCause.nothingToRepeat else FaultCause.unsupported

theorem not_isMeaningless_of_isQuantifier {c : Char} (h : IsQuantifier c) :
    ¬ IsMeaningless c := by
  rcases h with rfl | rfl <;> decide

theorem FaultCause.ofChar_of_isQuantifier {c : Char} (h : IsQuantifier c) :
    ofChar c = nothingToRepeat :=
  if_pos h

theorem FaultCause.ofChar_of_not_isQuantifier {c : Char} (h : ¬ IsQuantifier c) :
    ofChar c = unsupported :=
  if_neg h

namespace Follows

theorem lone : Follows Graph.lone [] := by
  constructor
  · intro _ d hd
    cases hd
  · intro _
    rfl

theorem extend_bad {g : Graph} {before rest : List Char} {c : Char} (h : Follows g before)
    (hbad : BadAt (before ++ c :: rest) before.length) (n : Nat) :
    g.extend ⟨n, Symbol.ofChar c⟩ = Except.error ⟨FaultCause.ofChar c, c, n⟩ := by
  have hcases := badAt_length_iff.mp hbad
  unfold Graph.extend
  cases hquantifier : Quantifier.ofSymbol? (Symbol.ofChar c) with
  | some q =>
      have hc : IsQuantifier c := isQuantifier_iff.mpr ⟨q, hquantifier⟩
      have hnone : g.repeatable? = none := by
        rcases hcases with hmeaningless | ⟨_, hprevious⟩
        · exact absurd hmeaningless (not_isMeaningless_of_isQuantifier hc)
        · exact h.mpr hprevious
      rw [hnone, FaultCause.ofChar_of_isQuantifier hc]
      simp only [Symbol.char_ofChar]
  | none =>
      have hc : ¬ IsQuantifier c := not_isQuantifier_of_ofSymbol? hquantifier
      have hnone : Atom.ofSymbol? (Symbol.ofChar c) = none := by
        apply ofSymbol?_ofChar_eq_none_iff.mpr
        rcases hcases with hmeaningless | ⟨hquantifier, _⟩
        · exact Or.inl hmeaningless
        · exact absurd hquantifier hc
      rw [FaultCause.ofChar_of_not_isQuantifier hc]
      simp only [hnone, Symbol.char_ofChar]

theorem append {g : Graph} {c : Char} (hc : ¬ IsQuantifier c) (before : List Char) (a : Atom) :
    Follows (g.append (State.single a)) (before ++ [c]) := by
  unfold Follows
  rw [Graph.repeatable?_append, List.getLast?_concat]
  constructor
  · intro hnone
    cases hnone
  · intro hquantifier
    exact absurd (hquantifier c rfl) hc

theorem loopTail {g : Graph} {c : Char} (hc : IsQuantifier c) (before : List Char)
    (q : Quantifier) (a : Atom) : Follows (g.loopTail q a) (before ++ [c]) := by
  unfold Follows
  rw [Graph.repeatable?_loopTail, List.getLast?_concat]
  constructor
  · intro _ d hd
    cases hd
    exact hc
  · intro _
    rfl

theorem exists_extend {g : Graph} {before rest : List Char} {c : Char} (h : Follows g before)
    (hgood : ¬ BadAt (before ++ c :: rest) before.length) (n : Nat) :
    exists (record : Record) (extended : Graph),
      g.extend ⟨n, Symbol.ofChar c⟩ = Except.ok (record, extended) ∧
        Follows extended (before ++ [c]) := by
  rw [badAt_length_iff, not_or] at hgood
  cases hquantifier : Quantifier.ofSymbol? (Symbol.ofChar c) with
  | some q =>
      have hc : IsQuantifier c := isQuantifier_iff.mpr ⟨q, hquantifier⟩
      cases hrepeatable : g.repeatable? with
      | none => exact absurd ⟨hc, h.mp hrepeatable⟩ hgood.right
      | some a =>
          exact ⟨_, _, Graph.extend_quantifier hquantifier hrepeatable n,
            loopTail hc before q a⟩
  | none =>
      have hc : ¬ IsQuantifier c := not_isQuantifier_of_ofSymbol? hquantifier
      cases hatom : Atom.ofSymbol? (Symbol.ofChar c) with
      | none =>
          rcases ofSymbol?_ofChar_eq_none_iff.mp hatom with hmeaningless | hc'
          · exact absurd hmeaningless hgood.left
          · exact absurd hc' hc
      | some a => exact ⟨_, _, Graph.extend_atom hatom n, append hc before a⟩

/-!
# The whole text
-/

/-- Building goes on to the end of the text or to its first bad place. -/
theorem resume {g : Graph} {before : List Char} (h : Follows g before) (ahead : List Char)
    (hbefore : forall j : Nat, j < before.length -> ¬ BadAt (before ++ ahead) j) :
    ((forall k : Nat, ¬ BadAt (before ++ ahead) k) ∧
      exists built : Graph,
        (Build.resume g (Cursor.symbols ⟨before.length, ahead.map Symbol.ofChar⟩)).result =
          Except.ok built) ∨
      exists (k : Nat) (c : Char),
        FirstBadAt (before ++ ahead) k ∧ (before ++ ahead)[k]? = some c ∧
          (Build.resume g (Cursor.symbols ⟨before.length, ahead.map Symbol.ofChar⟩)).result =
            Except.error ⟨FaultCause.ofChar c, c, k⟩ := by
  induction ahead generalizing g before with
  | nil =>
      refine Or.inl ⟨?_, ?_⟩
      · intro k hbad
        rcases hbad with ⟨c, hc, hcause⟩
        rcases List.getElem?_eq_some_iff.mp hc with ⟨hk, _⟩
        rw [List.append_nil] at hk
        exact hbefore k hk ⟨c, hc, hcause⟩
      · rw [List.map_nil, Cursor.symbols_nil]
        exact ⟨_, rfl⟩
  | cons c rest ih =>
      rw [List.map_cons, Cursor.symbols_cons, Build.resume]
      by_cases hbad : BadAt (before ++ c :: rest) before.length
      · refine Or.inr ⟨before.length, c, ⟨hbad, hbefore⟩, ?_, ?_⟩
        · exact getElem?_append_length before rest c
        · rw [h.extend_bad hbad]
      · rcases h.exists_extend hbad before.length with ⟨record, extended, hextend, hfollows⟩
        have htext : before ++ c :: rest = (before ++ [c]) ++ rest := by
          rw [List.append_assoc]
          rfl
        have hlength : (before ++ [c]).length = before.length + 1 := by
          rw [List.length_append]
          rfl
        have hgood : forall j : Nat, j < (before ++ [c]).length ->
            ¬ BadAt ((before ++ [c]) ++ rest) j := by
          intro j hj
          rw [hlength] at hj
          rw [<- htext]
          rcases Nat.lt_succ_iff_lt_or_eq.mp hj with hlt | heq
          · exact hbefore j hlt
          · rw [heq]
            exact hbad
        have hrest := ih hfollows hgood
        rw [hlength, <- htext] at hrest
        rw [hextend]
        exact hrest

end Follows

theorem FirstBadAt.unique {text : List Char} {j k : Nat} (hj : FirstBadAt text j)
    (hk : FirstBadAt text k) : j = k := by
  rcases Nat.lt_trichotomy j k with hlt | heq | hgt
  · exact absurd hj.left (hk.right j hlt)
  · exact heq
  · exact absurd hk.left (hj.right k hgt)

namespace Build

theorem result_ofText_cases (text : String) :
    ((forall k : Nat, ¬ BadAt text.toList k) ∧
      exists built : Graph, (ofText text).result = Except.ok built) ∨
      exists (k : Nat) (c : Char),
        FirstBadAt text.toList k ∧ text.toList[k]? = some c ∧
          (ofText text).result = Except.error ⟨FaultCause.ofChar c, c, k⟩ := by
  rw [ofText_eq_resume]
  apply Follows.lone.resume text.toList
  intro j hj
  exact absurd hj (Nat.not_lt_zero j)

end Build

namespace Pattern

theorem exists_parse_of_result {text : String} {built : Graph}
    (h : (Build.ofText text).result = Except.ok built) :
    exists pattern : Pattern, parse text = Except.ok pattern := by
  unfold parse
  split
  · exact ⟨_, rfl⟩
  · rename_i fault hfault
    rw [h] at hfault
    cases hfault

theorem parse_of_result_error {text : String} {fault : Fault}
    (h : (Build.ofText text).result = Except.error fault) :
    parse text = Except.error fault := by
  unfold parse
  split
  · rename_i built hbuilt
    rw [h] at hbuilt
    cases hbuilt
  · rename_i other hother
    rw [h] at hother
    cases hother
    rfl

theorem result_of_parse_error {text : String} {fault : Fault}
    (h : parse text = Except.error fault) :
    (Build.ofText text).result = Except.error fault := by
  cases hresult : (Build.ofText text).result with
  | ok built =>
      rcases exists_parse_of_result hresult with ⟨pattern, hpattern⟩
      rw [hpattern] at h
      cases h
  | error other =>
      rw [parse_of_result_error hresult] at h
      cases h
      rfl

/-- Parsing misses no node.  It succeeds when no place of the text is bad, and else
it reports the character at the first bad place, which is a quantifier without
something to repeat or a character without a meaning. -/
theorem parse_succeeds_or_reports_first_bad (text : String) :
    Build.drafted text = Except.ok (Build.ofText text) ∧
      ((exists pattern : Pattern, parse text = Except.ok pattern) <->
        forall k : Nat, ¬ BadAt text.toList k) ∧
      forall (k : Nat) (c : Char),
        FirstBadAt text.toList k -> text.toList[k]? = some c ->
          parse text =
            Except.error
              ⟨if c = '*' ∨ c = '+' then FaultCause.nothingToRepeat
                else FaultCause.unsupported, c, k⟩ := by
  refine ⟨Build.drafted_eq text, ?_, ?_⟩
  · constructor
    · intro h
      rcases h with ⟨pattern, hpattern⟩
      rcases Build.result_ofText_cases text with ⟨hgood, _⟩ | ⟨k, c, _, _, hfault⟩
      · exact hgood
      · rw [parse_of_result_error hfault] at hpattern
        cases hpattern
    · intro hgood
      rcases Build.result_ofText_cases text with ⟨_, built, hbuilt⟩ | ⟨k, c, hfirst, _, _⟩
      · exact exists_parse_of_result hbuilt
      · exact absurd hfirst.left (hgood k)
  · intro k c hfirst hc
    rcases Build.result_ofText_cases text with ⟨hgood, _⟩ | ⟨j, d, hother, hd, hfault⟩
    · exact absurd hfirst.left (hgood k)
    · have hplace : j = k := hother.unique hfirst
      rw [hplace, hc] at hd
      cases hd
      rw [parse_of_result_error hfault, hplace]
      rfl

end Pattern

end PatternWalk
