import RetrySchedule.Proofs.Grammar
import RetrySchedule.Reading

namespace RetrySchedule.Tier
open Term

theorem read_counting (n : Counting) : Numeral.read n.digits =
    if Numeral.digitLimit < n.digits.length then .error (.tooLongToRead n.digits.length)
    else .ok (n.value : Int) :=
  Numeral.read_digits n.digits (List.cons_ne_nil _ _) fun _ => n.isDigit_of_mem

theorem readCount_counting (term : Text) (n : Counting) : readCount term (some n.digits) =
    if Numeral.digitLimit < n.digits.length then
      .error (.numeral (.tooLongToRead n.digits.length))
    else .ok (n.value : Int) := by
  have hcounting : isCounting n.digits := (isCounting_iff _).mpr ⟨n, rfl⟩
  simp only [readCount, hcounting, if_true, read_counting]
  by_cases hlong : Numeral.digitLimit < n.digits.length
  · simp only [if_pos hlong]
  · simp only [if_neg hlong]

theorem readAmount_zero (term : Text) : readAmount term Amount.zero.text = .ok (0, .seconds) := rfl

theorem readAmount_measured (term : Text) (n : Counting) (scale : Scale) :
    readAmount term (Amount.measured n scale).text =
      if Numeral.digitLimit < n.digits.length then
        .error (.reading (.malformedTerm term (some (.tooLongToRead n.digits.length))))
      else .ok ((n.value : Int), scale) := by
  have hzero : (Amount.measured n scale).text ≠ zeroAmount := fun h =>
    Amount.noConfusion ((Amount.text_eq_zero_iff _).mp h)
  have hprefix : (n.digits ++ scale.symbol).take
      ((n.digits ++ scale.symbol).length - scale.symbol.length) = n.digits := by
    rw [List.length_append, Nat.add_sub_cancel, List.take_left]
  simp only [readAmount, if_neg hzero]
  simp only [Amount.text, ofSuffix?_measured, hprefix, read_counting]
  by_cases hlong : Numeral.digitLimit < n.digits.length
  · simp only [if_pos hlong]
  · simp only [if_neg hlong]

/-- The faults that a term has by itself. -/
inductive Flaw (term : Text) : ReadingFault → Prop
  | empty (h : term = []) : Flaw term .emptyTerm
  | repeatCount (rate : Text) : Flaw term (.repeatCount term rate)
  | noScale : Flaw term (.noScale term)
  | malformed (cause : Option NumeralFault) : Flaw term (.malformedTerm term cause)

theorem Flaw.subject_eq {term : Text} {cause : ReadingFault} (h : Flaw term cause) :
    cause.subject = term := by
  cases h with
  | empty h => exact h.symm
  | repeatCount rate => rfl
  | noScale => rfl
  | malformed cause => rfl

theorem Flaw.ne_blank {term : Text} {cause : ReadingFault} (h : Flaw term cause)
    (expression : Text) : cause ≠ .blank expression := by
  rintro rfl
  cases h

theorem flaw_of_readAmount (term amount : Text) (fault : Fault)
    (h : readAmount term amount = .error fault) :
    ∃ cause, fault = .reading cause ∧ Flaw term cause := by
  unfold readAmount at h
  split at h
  · cases h
  · split at h
    · exact ⟨_, (Except.error.inj h).symm, .noScale⟩
    · split at h
      · cases h
      · exact ⟨_, (Except.error.inj h).symm, .malformed _⟩

/-- The numeral of an amount before the symbol of a unit is refused. -/
def Refuses (amount : Text) (refused : NumeralFault) : Prop :=
  amount ≠ zeroAmount ∧ ∃ scale, Scale.ofSuffix? amount = some scale ∧
    Numeral.read (amount.take (amount.length - scale.symbol.length)) = .error refused

theorem readAmount_eq_refused_iff (term amount : Text) (refused : NumeralFault) :
    readAmount term amount = .error (.reading (.malformedTerm term (some refused))) ↔
      Refuses amount refused := by
  constructor
  · intro h
    unfold readAmount at h
    split at h
    · cases h
    · rename_i hzero
      split at h
      · cases h
      · rename_i scale hscale
        split at h
        · cases h
        · rename_i other hread
          cases h
          exact ⟨hzero, scale, hscale, hread⟩
  · rintro ⟨hzero, scale, hscale, hread⟩
    simp only [readAmount, if_neg hzero, hscale, hread]

/-- A fault of the rate is one of its form, unless the rate is a counting numeral beyond the digit
limit. -/
theorem readCount_eq_error (term : Text) (rate : Option Text) (fault : Fault)
    (h : readCount term rate = .error fault) :
    (∃ given, fault = .reading (.repeatCount term given)) ∨
      ∃ n : Counting, rate = some n.digits ∧ Numeral.digitLimit < n.digits.length ∧
        fault = .numeral (.tooLongToRead n.digits.length) := by
  cases rate with
  | none => cases h
  | some rate =>
    by_cases hcounting : isCounting rate
    · obtain ⟨n, rfl⟩ := (isCounting_iff rate).mp hcounting
      rw [readCount_counting] at h
      by_cases hlong : Numeral.digitLimit < n.digits.length
      · rw [if_pos hlong] at h
        exact Or.inr ⟨n, rfl, hlong, (Except.error.inj h).symm⟩
      · rw [if_neg hlong] at h
        cases h
    · rw [readCount, if_neg hcounting] at h
      exact Or.inl ⟨rate, (Except.error.inj h).symm⟩

theorem ofTerm_nil : ofTerm [] = .error (.reading .emptyTerm) := rfl

theorem ofTerm_of_ne_nil (term : Text) (h : term ≠ []) :
    ofTerm term =
      match readCount term (divide term).rate with
      | .error fault => .error fault
      | .ok count =>
        match readAmount term (divide term).amount with
        | .error fault => .error fault
        | .ok (magnitude, scale) =>
          if hasShape (divide term).rate.isSome (divide term).marked term then
            ofInts magnitude scale count
              (if (divide term).marked then .unbounded else .bounded)
          else .error (.reading (.malformedTerm term none)) := by
  have hempty : term.isEmpty = false := by simpa using h
  simp only [ofTerm, Makers.ofTerm, hempty, Bool.false_eq_true, if_false]
  cases readCount term (divide term).rate with
  | error fault => rfl
  | ok count =>
    cases readAmount term (divide term).amount with
    | error fault => rfl
    | ok amount =>
      cases hasShape (divide term).rate.isSome (divide term).marked term with
      | true => rfl
      | false => rfl

theorem ofInts_cast (tree : Tree) (extent : Extent) :
    ofInts tree.amount.magnitude tree.amount.scale tree.count extent =
      .ok ⟨tree.amount.magnitude, tree.amount.scale, tree.count, extent, tree.count_pos⟩ := by
  have hmagnitude : ¬ (tree.amount.magnitude : Int) < 0 := by omega
  have hcount : ¬ (tree.count : Int) < 1 := by have := tree.count_pos; omega
  simp only [ofInts, if_neg hmagnitude, dif_neg hcount, Int.toNat_natCast]

theorem readCount_of_short (tree : Tree) (h : tree.Short) :
    readCount tree.text (tree.rate.map Counting.digits) = .ok (tree.count : Int) := by
  cases hrate : tree.rate with
  | none => simp only [readCount, Option.map_none, Tree.count, hrate]; rfl
  | some n =>
    have hn := h n (by simp [Tree.numerals, hrate])
    simp only [Option.map_some, readCount_counting, if_neg (Nat.not_lt.mpr hn), Tree.count, hrate]
    rfl

theorem readAmount_of_short (tree : Tree) (h : tree.Short) :
    readAmount tree.text tree.amount.text =
      .ok ((tree.amount.magnitude : Int), tree.amount.scale) := by
  cases ha : tree.amount with
  | zero => exact readAmount_zero tree.text
  | measured n scale =>
    have hn := h n (by simp [Tree.numerals, ha, Amount.numeral])
    simp only [readAmount_measured, if_neg (Nat.not_lt.mpr hn)]
    rfl

theorem ofTerm_text (tree : Tree) (h : tree.Short) : ofTerm tree.text = .ok (tree.tier true) := by
  have hshape : hasShape (tree.rate.map Counting.digits).isSome tree.marked tree.text :=
    (hasShape_iff _ _ _).mpr ⟨tree, rfl, by simp, rfl⟩
  rw [ofTerm_of_ne_nil _ tree.text_ne_nil]
  simp only [divide_text, readCount_of_short tree h, readAmount_of_short tree h, hshape, if_true,
    ofInts_cast]
  simp only [Tree.tier, Bool.and_true]

theorem short_of_read (term : Text) (tree : Tree) (count : Int) (amount : Int × Scale)
    (hcount : readCount term (tree.rate.map Counting.digits) = .ok count)
    (hamount : readAmount term tree.amount.text = .ok amount) : tree.Short := by
  intro n hn
  by_contra hlong
  rw [Nat.not_le] at hlong
  -- An overlong numeral would have been refused by the reader of its part.
  rcases List.mem_append.mp hn with hn | hn
  · cases ha : tree.amount with
    | zero => simp [ha, Amount.numeral] at hn
    | measured m scale =>
      obtain rfl : n = m := by simpa [ha, Amount.numeral] using hn
      rw [ha, readAmount_measured, if_pos hlong] at hamount
      cases hamount
  · rw [Option.mem_toList.mp hn, Option.map_some, readCount_counting, if_pos hlong] at hcount
    cases hcount

theorem exists_tree_of_hasShape (term : Text) (count : Int) (amount : Int × Scale)
    (hcount : readCount term (divide term).rate = .ok count)
    (hamount : readAmount term (divide term).amount = .ok amount)
    (hshape : hasShape (divide term).rate.isSome (divide term).marked term) :
    ∃ tree : Tree, term = tree.text ∧ tree.Short ∧ ofTerm term = .ok (tree.tier true) := by
  obtain ⟨tree, rfl, -, -⟩ := (hasShape_iff _ _ _).mp hshape
  have hparts := divide_text tree
  have hshort : tree.Short := short_of_read tree.text tree count amount
    (by rw [← hcount, hparts]) (by rw [← hamount, hparts])
  exact ⟨tree, rfl, hshort, ofTerm_text tree hshort⟩

theorem ofTerm_cases (term : Text) :
    (∃ tree : Tree, term = tree.text ∧ tree.Short ∧ ofTerm term = .ok (tree.tier true)) ∨
    (∃ cause, Flaw term cause ∧ ofTerm term = .error (.reading cause)) ∨
    ∃ n : Counting, (divide term).rate = some n.digits ∧
      Numeral.digitLimit < n.digits.length ∧
      ofTerm term = .error (.numeral (.tooLongToRead n.digits.length)) := by
  by_cases hne : term = []
  · exact Or.inr (Or.inl ⟨.emptyTerm, .empty hne, hne ▸ rfl⟩)
  have hread := ofTerm_of_ne_nil term hne
  cases hcount : readCount term (divide term).rate with
  | error fault =>
    rw [hcount] at hread
    rcases readCount_eq_error term _ fault hcount with ⟨given, rfl⟩ | ⟨n, hn, hlong, rfl⟩
    · exact Or.inr (Or.inl ⟨_, .repeatCount given, hread⟩)
    · exact Or.inr (Or.inr ⟨n, hn, hlong, hread⟩)
  | ok count =>
    cases hamount : readAmount term (divide term).amount with
    | error fault =>
      rw [hcount, hamount] at hread
      obtain ⟨cause, rfl, hflaw⟩ := flaw_of_readAmount term _ fault hamount
      exact Or.inr (Or.inl ⟨cause, hflaw, hread⟩)
    | ok amount =>
      -- Signs and leading zeros, which both readers let pass, are found out by the shape.
      by_cases hshape : hasShape (divide term).rate.isSome (divide term).marked term
      · exact Or.inl (exists_tree_of_hasShape term count amount hcount hamount hshape)
      · rw [hcount, hamount] at hread
        simp only [if_neg hshape] at hread
        exact Or.inr (Or.inl ⟨_, .malformed none, hread⟩)

theorem flaw_of_ofTerm {term : Text} {cause : ReadingFault}
    (h : ofTerm term = .error (.reading cause)) : Flaw term cause := by
  rcases ofTerm_cases term with ⟨_, _, _, hread⟩ | ⟨found, hflaw, hread⟩ | ⟨_, _, _, hread⟩
  · cases h.symm.trans hread
  · cases h.symm.trans hread
    exact hflaw
  · cases h.symm.trans hread

theorem ofTerm_eq_refused_iff (term : Text) (refused : NumeralFault) :
    ofTerm term = .error (.reading (.malformedTerm term (some refused))) ↔
      (∃ count, readCount term (divide term).rate = .ok count) ∧
        Refuses (divide term).amount refused := by
  by_cases hne : term = []
  · rw [hne, ofTerm_nil]
    refine iff_of_false (fun h => by cases h) ?_
    rintro ⟨-, -, scale, hscale, -⟩
    cases hscale
  rw [← readAmount_eq_refused_iff term]
  have hread := ofTerm_of_ne_nil term hne
  cases hcount : readCount term (divide term).rate with
  | error fault =>
    rw [hread, hcount]
    refine iff_of_false (fun h => ?_) (by simp)
    rcases readCount_eq_error term _ fault hcount with ⟨given, rfl⟩ | ⟨n, -, -, rfl⟩
    · cases h
    · cases h
  | ok count =>
    cases hamount : readAmount term (divide term).amount with
    | error fault =>
      rw [hread, hcount, hamount]
      simp
    | ok amount =>
      refine iff_of_false (fun h => ?_) (by simp)
      by_cases hshape : hasShape (divide term).rate.isSome (divide term).marked term
      · obtain ⟨tree, -, -, htree⟩ :=
          exists_tree_of_hasShape term count amount hcount hamount hshape
        cases h.symm.trans htree
      · rw [hread, hcount, hamount] at h
        simp only [if_neg hshape] at h
        cases h

/-- A rate beyond the digit limit is met before anything else in its term. -/
theorem ofTerm_eq_numeral_iff (term : Text) (refused : NumeralFault) :
    ofTerm term = .error (.numeral refused) ↔ ∃ n : Counting,
      (divide term).rate = some n.digits ∧ Numeral.digitLimit < n.digits.length ∧
        refused = .tooLongToRead n.digits.length := by
  constructor
  · intro h
    rcases ofTerm_cases term with ⟨_, _, _, hread⟩ | ⟨_, _, hread⟩ | ⟨n, hn, hlong, hread⟩
    · cases h.symm.trans hread
    · cases h.symm.trans hread
    · cases h.symm.trans hread
      exact ⟨n, hn, hlong, rfl⟩
  · rintro ⟨n, hn, hlong, rfl⟩
    have hne : term ≠ [] := by
      rintro rfl
      cases hn
    rw [ofTerm_of_ne_nil term hne, hn, readCount_counting, if_pos hlong]

end RetrySchedule.Tier
