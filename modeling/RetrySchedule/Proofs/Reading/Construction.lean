import RetrySchedule.Proofs.Reading.Language

namespace RetrySchedule

namespace Makers

/-- Fields in range are made what the checked functions make of them. What is made of fields out of
range is left open. -/
structure AgreeInRange (makers : Makers) : Prop where
  tier : ∀ magnitude scale count extent, 0 ≤ magnitude → 1 ≤ count →
    makers.tier magnitude scale count extent = Tier.ofInts magnitude scale count extent
  schedule : ∀ tiers, tiers ≠ [] → (∀ tier ∈ tiers.dropLast, tier.extent = .bounded) →
    makers.schedule tiers = Schedule.ofTiers tiers

end Makers

namespace Tier
open Term

/-- The lenient reader of numerals takes signs and zeros, but behind the test of the shape there are
none left: what is read are the numbers of a term of the grammar. -/
theorem exists_tree_of_fields {term : Text} {count magnitude : Int} {scale : Scale}
    (hcount : readCount term (divide term).rate = .ok count)
    (hamount : readAmount term (divide term).amount = .ok (magnitude, scale))
    (hshape : hasShape (divide term).rate.isSome (divide term).marked term) :
    ∃ tree : Tree, count = tree.count ∧ magnitude = tree.amount.magnitude := by
  obtain ⟨tree, rfl, hshort, -⟩ := exists_tree_of_hasShape term count _ hcount hamount hshape
  rw [divide_text] at hcount hamount
  have hnumber := Except.ok.inj (hcount.symm.trans (readCount_of_short tree hshort))
  have hlength := Except.ok.inj (hamount.symm.trans (readAmount_of_short tree hshort))
  exact ⟨tree, hnumber, congrArg Prod.fst hlength⟩

theorem fields_in_range {term : Text} {count magnitude : Int} {scale : Scale}
    (hcount : readCount term (divide term).rate = .ok count)
    (hamount : readAmount term (divide term).amount = .ok (magnitude, scale))
    (hshape : hasShape (divide term).rate.isSome (divide term).marked term) :
    0 ≤ magnitude ∧ 1 ≤ count := by
  obtain ⟨tree, rfl, rfl⟩ := exists_tree_of_fields hcount hamount hshape
  exact ⟨Int.natCast_nonneg _, by exact_mod_cast tree.count_pos⟩

theorem exists_ofInts {magnitude count : Int} (hmagnitude : 0 ≤ magnitude) (hcount : 1 ≤ count)
    (scale : Scale) (extent : Extent) : ∃ tier, ofInts magnitude scale count extent = .ok tier := by
  rw [ofInts, if_neg (Int.not_lt.mpr hmagnitude), dif_neg (Int.not_lt.mpr hcount)]
  exact ⟨_, rfl⟩

end Tier

namespace Schedule

theorem exists_ofTiers {tiers : List Tier} (hne : tiers ≠ [])
    (hclosed : ∀ tier ∈ tiers.dropLast, tier.extent = .bounded) :
    ∃ s, ofTiers tiers = .ok s := by
  rw [ofTiers, dif_neg hne, dif_pos hclosed]
  exact ⟨_, rfl⟩

/-- What is read of some terms can be put together: an open tier in front of others was refused or
closed on the way. -/
theorem tiers_of_readTerms {policy : Policy} {expression : Text} {terms : List Text}
    {tiers : List Tier} (hne : terms ≠ [])
    (h : (readTerms policy expression terms).result = .ok tiers) :
    tiers ≠ [] ∧ ∀ tier ∈ tiers.dropLast, tier.extent = .bounded := by
  rcases sound_or_offends policy expression terms with
    ⟨trees, rfl, hsound⟩ | ⟨before, term, after, fault, rfl, hbefore, hoffends⟩
  · have hread := (readTerms_of_sound policy expression trees hsound).1
    obtain rfl := Except.ok.inj (hread.symm.trans h)
    exact ⟨tiersOf_ne_nil trees (by simpa using hne), bounded_of_mem_dropLast_tiersOf trees⟩
  · have hread := readTerms_of_offends policy expression before term after fault hbefore hoffends
    cases h.symm.trans hread

end Schedule

namespace Makers.AgreeInRange

section
variable {makers : Makers} (h : makers.AgreeInRange)
include h

theorem ofTerm (term : Text) : makers.ofTerm term = Tier.ofTerm term := by
  rw [Tier.ofTerm, Makers.ofTerm, Makers.ofTerm]
  by_cases hempty : term.isEmpty
  · simp only [hempty, if_true]
    rfl
  simp only [hempty, Bool.false_eq_true, if_false]
  cases hcount : Tier.readCount term (Term.divide term).rate with
  | error fault => rfl
  | ok count =>
    cases hamount : Tier.readAmount term (Term.divide term).amount with
    | error fault => rfl
    | ok amount =>
      cases hshape : Term.hasShape (Term.divide term).rate.isSome (Term.divide term).marked term with
      | false => rfl
      | true =>
        obtain ⟨hlength, hnumber⟩ := Tier.fields_in_range hcount hamount hshape
        exact h.tier amount.1 amount.2 count _ hlength hnumber

theorem settle (policy : Policy) (expression term : Text) (tier : Tier) :
    makers.settle policy expression term tier = checked.settle policy expression term tier := by
  have hmade := h.tier tier.magnitude tier.scale tier.count .bounded (Int.natCast_nonneg _)
    (by exact_mod_cast tier.count_pos)
  rw [Makers.settle, Makers.settle, hmade]
  rfl

theorem place (policy : Policy) (expression term : Text) (isLast : Bool) (tier : Tier) :
    makers.place policy expression term isLast tier =
      checked.place policy expression term isLast tier := by
  rw [Makers.place, Makers.place, h.settle]

theorem readTerms (policy : Policy) (expression : Text) (terms : List Text) :
    makers.readTerms policy expression terms = Schedule.readTerms policy expression terms := by
  induction terms with
  | nil => rfl
  | cons term rest ih =>
    rw [Makers.readTerms, Schedule.readTerms_cons, h.ofTerm, ih]
    simp only [h.place]

theorem read (policy : Policy) (expression : Text) :
    makers.read policy expression = Schedule.read policy expression := by
  rw [Schedule.read, Makers.read, Makers.read, h.readTerms, ← Schedule.readTerms]
  cases hread : (Schedule.readTerms policy expression (Schedule.terms expression)).result with
  | error fault =>
    rw [Outcome.bind_of_error _ _ _ hread, Outcome.bind_of_error _ _ _ hread]
  | ok tiers =>
    obtain ⟨hne, hclosed⟩ :=
      Schedule.tiers_of_readTerms (Schedule.terms_ne_nil expression) hread
    rw [Outcome.bind_of_ok _ _ _ hread, Outcome.bind_of_ok _ _ _ hread,
      h.schedule tiers hne hclosed]
    rfl

end
end Makers.AgreeInRange

namespace Schedule
open Term

/-- No construction inside a reading is refused. What the makers do with fields out of range has no
influence on a reading; the fields of each term that gets as far as being made a tier are in range,
those of a tier that is made again without its marker stay so, and what is put together is not empty
and closed up to its last tier. The numerals themselves are read with signs and zeros. -/
theorem read_eq_of_makers (policy : Policy) (expression : Text) :
    (∀ makers : Makers, makers.AgreeInRange →
      makers.read policy expression = read policy expression) ∧
    (∀ term count magnitude scale extent, Tier.readCount term (divide term).rate = .ok count →
      Tier.readAmount term (divide term).amount = .ok (magnitude, scale) →
      hasShape (divide term).rate.isSome (divide term).marked term →
        0 ≤ magnitude ∧ 1 ≤ count ∧ ∃ tier, Tier.ofInts magnitude scale count extent = .ok tier) ∧
    (∀ tier : Tier, 0 ≤ (tier.magnitude : Int) ∧ 1 ≤ (tier.count : Int) ∧
      ∃ closed, Tier.ofInts tier.magnitude tier.scale tier.count .bounded = .ok closed) ∧
    (∀ tiers, (readTerms policy expression (terms expression)).result = .ok tiers →
      tiers ≠ [] ∧ (∀ tier ∈ tiers.dropLast, tier.extent = .bounded) ∧
        ∃ s, ofTiers tiers = .ok s) ∧
    Numeral.read zeroAmount = .ok 0 ∧
    ∀ n : Counting, n.digits.length ≤ Numeral.digitLimit →
      Numeral.read ('-' :: n.digits) = .ok (-(n.value : Int)) := by
  refine ⟨fun makers h => h.read policy expression, ?_, ?_, ?_, rfl, ?_⟩
  · intro term count magnitude scale extent hcount hamount hshape
    obtain ⟨hlength, hnumber⟩ := Tier.fields_in_range hcount hamount hshape
    exact ⟨hlength, hnumber, Tier.exists_ofInts hlength hnumber scale extent⟩
  · intro tier
    have hlength := Int.natCast_nonneg tier.magnitude
    have hnumber : 1 ≤ (tier.count : Int) := by exact_mod_cast tier.count_pos
    exact ⟨hlength, hnumber, Tier.exists_ofInts hlength hnumber tier.scale .bounded⟩
  · intro tiers h
    obtain ⟨hne, hclosed⟩ := tiers_of_readTerms (terms_ne_nil expression) h
    exact ⟨hne, hclosed, exists_ofTiers hne hclosed⟩
  · intro n hshort
    have hread := Numeral.read_negated_digits n.digits (List.cons_ne_nil _ _)
      fun _ => n.isDigit_of_mem
    rwa [if_neg (Nat.not_lt.mpr hshort)] at hread

end Schedule
end RetrySchedule
