import RetrySchedule.Loose.Schedule
import RetrySchedule.Proofs.Number
import RetrySchedule.Proofs.Selection

namespace RetrySchedule

namespace Number

theorem int_le_int_iff (m n : Int) : (int m).le (int n) ↔ m ≤ n := by
  have hunits : (0 : Int) < Binary64.unitsPerOne := Int.natCast_pos.mpr Binary64.unitsPerOne_pos
  rw [le_eq_of_extended (extended?_of_whole rfl) (extended?_of_whole rfl), Extended.units_le]
  exact Int.mul_le_mul_right hunits

theorem int_lt_int_iff (m n : Int) : (int m).lt (int n) ↔ m < n := by
  rw [lt_eq_not_le Number.noConfusion Number.noConfusion, Bool.not_eq_true', ← Bool.not_eq_true,
    int_le_int_iff, Int.not_le]

theorem int_eq_int_iff (m n : Int) : (int m).eq (int n) ↔ m = n := by
  rw [eq, Bool.and_eq_true, int_le_int_iff, int_le_int_iff]
  omega

end Number

namespace Loose

namespace Tier

/-- Integers in or out of range are accepted and refused as for a proper tier, with the same
faults. -/
theorem ofArguments_int (magnitude : Int) (scale : Scale) (count : Int) (extent : Extent) :
    ofArguments (.number (.int magnitude)) scale (.number (.int count)) extent =
      ofTier <$> RetrySchedule.Tier.ofInts magnitude scale count extent := by
  rw [ofArguments, readField, readField, RetrySchedule.Tier.ofInts]
  simp only [Number.int_lt_int_iff]
  by_cases hneg : magnitude < 0
  · rw [if_pos hneg, if_pos hneg]
    rfl
  rw [if_neg hneg, if_neg hneg]
  by_cases hlow : count < 1
  · rw [if_pos hlow, dif_pos hlow]
    rfl
  · have hmagnitude := Int.toNat_of_nonneg (Int.not_lt.mp hneg)
    have hcount : (count.toNat : Int) = count := Int.toNat_of_nonneg (by omega)
    rw [if_neg hlow, dif_neg hlow, Except.map_ok]
    simp only [ofTier, hmagnitude, hcount]
    rfl

theorem toTier?_eq_some_iff (tier : Tier) (proper : RetrySchedule.Tier) :
    tier.toTier? = some proper ↔ tier = ofTier proper := by
  constructor
  · intro h
    obtain ⟨magnitude, scale, count, extent⟩ := tier
    unfold toTier? at h
    -- Whole numbers are given back by `toNat` because those below the bounds were refused.
    split at h
    · rename_i m c hm hc
      cases hm
      cases hc
      unfold RetrySchedule.Tier.ofInts at h
      split_ifs at h with hneg hlow
      · cases h
      · cases h
      · cases h
        rw [ofTier, Int.toNat_of_nonneg (Int.not_lt.mp hneg), Int.toNat_of_nonneg (by omega)]
    · cases h
  · rintro rfl
    have hcount : ¬ (proper.count : Int) < 1 := by
      have hpos := proper.count_pos
      omega
    simp only [toTier?, ofTier, RetrySchedule.Tier.ofInts,
      if_neg (Int.not_lt.mpr (Int.natCast_nonneg _)), dif_neg hcount, Int.toNat_natCast]
    rfl

section
variable (tier : RetrySchedule.Tier)

theorem text_wait_ofTier : (ofTier tier).wait.text =
    if Numeral.fits tier.magnitude then .ok (Numeral.ofNat tier.magnitude ++ tier.scale.symbol)
    else .error .tooLongToWrite := by
  have hwritten : (Argument.number (.int tier.magnitude)).display =
      if Numeral.fits tier.magnitude then .ok (Numeral.ofNat tier.magnitude)
      else .error .tooLongToWrite := rfl
  rw [wait, Wait.text, ofTier, hwritten]
  split_ifs <;> rfl

theorem write_ofTier : (ofTier tier).write = tier.write := by
  have hzero : (ofTier tier).magnitude.eq (.int 0) ↔ tier.magnitude = 0 :=
    (Number.int_eq_int_iff _ _).trans Int.natCast_eq_zero
  have hone : (ofTier tier).count.eq (.int 1) ↔ tier.count = 1 :=
    (Number.int_eq_int_iff _ _).trans (by omega)
  have hcount : (ofTier tier).count.write =
      if Numeral.fits tier.count then .ok (Numeral.ofNat tier.count)
      else .error .tooLongToWrite := rfl
  -- A zero magnitude and a single attempt are not written, and are never too long to be.
  have hmagnitude : tier.magnitude = 0 → Numeral.fits tier.magnitude := by
    intro h
    rw [h, Numeral.fits_natCast]
    exact Nat.pow_pos (by decide)
  have hsingle : tier.count = 1 → Numeral.fits tier.count := by
    intro h
    rw [h, Numeral.fits_natCast]
    exact Nat.one_lt_pow (by decide) (by decide)
  simp only [write, hzero, hone, text_wait_ofTier, hcount, RetrySchedule.Tier.write,
    RetrySchedule.Tier.fits, RetrySchedule.Tier.text]
  by_cases hm : tier.magnitude = 0
  · by_cases hc : tier.count = 1
    · simp only [if_pos hm, if_pos hc, hmagnitude hm, hsingle hc]
      rfl
    · simp only [if_pos hm, if_neg hc, hmagnitude hm]
      cases Numeral.fits tier.count <;> rfl
  · by_cases hc : tier.count = 1
    · simp only [if_neg hm, if_pos hc, hsingle hc]
      cases Numeral.fits tier.magnitude <;> rfl
    · simp only [if_neg hm, if_neg hc]
      cases Numeral.fits tier.magnitude <;> cases Numeral.fits tier.count <;> rfl

end

end Tier

namespace Schedule

theorem mapM_toTier?_eq_some_iff (tiers : List Tier) (proper : List RetrySchedule.Tier) :
    tiers.mapM Tier.toTier? = some proper ↔ tiers = proper.map Tier.ofTier := by
  induction tiers generalizing proper with
  | nil => cases proper <;> simp
  | cons tier rest ih =>
    simp only [List.mapM_cons, Option.bind_eq_bind, Option.bind_eq_some_iff, ih,
      Tier.toTier?_eq_some_iff]
    cases proper <;> simp

theorem toSchedule?_eq_some_iff (s : Schedule) (proper : RetrySchedule.Schedule) :
    s.toSchedule? = some proper ↔ s = ofSchedule proper := by
  constructor
  · intro h
    obtain ⟨tiers, htiers, hmade⟩ := Option.bind_eq_some_iff.mp h
    rw [mapM_toTier?_eq_some_iff] at htiers
    unfold RetrySchedule.Schedule.ofTiers at hmade
    split_ifs at hmade
    · cases hmade
    · cases hmade
      cases s
      cases htiers
      rfl
    · cases hmade
  · rintro rfl
    have htiers : (ofSchedule proper).tiers.mapM Tier.toTier? = some proper.tiers :=
      (mapM_toTier?_eq_some_iff _ _).mpr rfl
    have hmade : RetrySchedule.Schedule.ofTiers proper.tiers = .ok proper := by
      rw [RetrySchedule.Schedule.ofTiers, dif_neg proper.tiers_ne_nil,
        dif_pos proper.bounded_before_last]
    rw [toSchedule?, htiers]
    simp only [Option.bind_eq_bind, Option.bind_some, hmade]
    rfl

/-- Where an open tier is not the last one, the same tier is blamed. -/
theorem ofTiers_map_ofTier (tiers : List RetrySchedule.Tier) :
    ofTiers (tiers.map Tier.ofTier) = ofSchedule <$> RetrySchedule.Schedule.ofTiers tiers := by
  have hblame : RetrySchedule.Schedule.blameOpen Tier.isOpen Tier.write (tiers.map Tier.ofTier) =
      RetrySchedule.Schedule.blameOpen RetrySchedule.Tier.isOpen RetrySchedule.Tier.write
        tiers := by
    have hopen : Tier.isOpen ∘ Tier.ofTier = RetrySchedule.Tier.isOpen := rfl
    rw [RetrySchedule.Schedule.blameOpen, RetrySchedule.Schedule.blameOpen, List.findIdx_map,
      hopen, List.getElem?_map, List.length_map]
    cases tiers[tiers.findIdx RetrySchedule.Tier.isOpen]? with
    | none => rfl
    | some tier => simp only [Option.map_some, Tier.write_ofTier]
  have hbounded : (∀ tier ∈ (tiers.map Tier.ofTier).dropLast, tier.extent = .bounded) ↔
      ∀ tier ∈ tiers.dropLast, tier.extent = .bounded := by
    rw [← List.map_dropLast, List.forall_mem_map]
    rfl
  rw [ofTiers, RetrySchedule.Schedule.ofTiers, hblame]
  by_cases hempty : tiers = []
  · rw [dif_pos hempty, dif_pos (List.map_eq_nil_iff.mpr hempty)]
    rfl
  rw [dif_neg hempty, dif_neg (mt List.map_eq_nil_iff.mp hempty)]
  by_cases hclosed : ∀ tier ∈ tiers.dropLast, tier.extent = .bounded
  · rw [dif_pos hclosed, dif_pos (hbounded.mpr hclosed)]
    rfl
  · rw [dif_neg hclosed, dif_neg (mt hbounded.mp hclosed)]
    rfl

theorem mapM_write_ofTier (tiers : List RetrySchedule.Tier) :
    (tiers.map Tier.ofTier).mapM Tier.write =
      if tiers.all RetrySchedule.Tier.fits then .ok (tiers.map RetrySchedule.Tier.text)
      else .error .tooLongToWrite := by
  induction tiers with
  | nil => rfl
  | cons tier rest ih =>
    rw [List.map_cons, List.mapM_cons, Tier.write_ofTier, RetrySchedule.Tier.write, ih,
      List.all_cons]
    cases tier.fits with
    | false => rfl
    | true => cases rest.all RetrySchedule.Tier.fits <;> rfl

theorem write_ofSchedule (s : RetrySchedule.Schedule) : (ofSchedule s).write = s.write := by
  have hwritten : (ofSchedule s).tiers.mapM Tier.write = _ := mapM_write_ofTier s.tiers
  rw [write, hwritten, RetrySchedule.Schedule.write]
  cases s.tiers.all RetrySchedule.Tier.fits <;> rfl

theorem foldlM_count (tiers : List RetrySchedule.Tier) (total : Int) :
    (tiers.map Tier.ofTier).foldlM (fun total tier => inRange (total.add? tier.count))
      (.int total) = .ok (.int (total + ((tiers.map RetrySchedule.Tier.count).sum : Nat))) := by
  induction tiers generalizing total with
  | nil =>
    rw [List.map_nil, List.map_nil, List.sum_nil, Int.natCast_zero, Int.add_zero]
    rfl
  | cons tier rest ih =>
    rw [List.map_cons, List.map_cons, List.sum_cons, Int.natCast_add, ← Int.add_assoc]
    exact ih (total + tier.count)

theorem budget_ofSchedule (s : RetrySchedule.Schedule) :
    (ofSchedule s).budget = .ok (.int s.budget) := by
  rw [s.budget_eq, ← Int.zero_add (Nat.cast _)]
  exact foldlM_count s.tiers 0

theorem last_ofSchedule (s : RetrySchedule.Schedule) :
    (ofSchedule s).last = Tier.ofTier s.last := by
  simp only [last, ofSchedule, RetrySchedule.Schedule.last, List.getLast_map]

theorem hasOpenEnd_ofSchedule (s : RetrySchedule.Schedule) :
    (ofSchedule s).hasOpenEnd = s.hasOpenEnd := by
  rw [hasOpenEnd, last_ofSchedule]
  rfl

theorem locate_ofTiers (tiers : List RetrySchedule.Tier) (attempt : Int) :
    locate (tiers.map Tier.ofTier) (.int attempt) =
      .ok ((RetrySchedule.Schedule.locate tiers attempt).map fun found =>
        (found.1, Tier.ofTier found.2)) := by
  induction tiers generalizing attempt with
  | nil => rfl
  | cons tier rest ih =>
    have hremaining : inRange ((Number.int attempt).sub? (Tier.ofTier tier).count) =
        .ok (.int (attempt - tier.count)) := rfl
    rw [List.map_cons, locate, RetrySchedule.Schedule.locate, hremaining]
    by_cases hlast : attempt - tier.count ≤ 0
    · have hle := (Number.int_le_int_iff _ _).mpr hlast
      simp only [hlast, if_true]
      change (if _ then _ else _) = _
      rw [if_pos hle]
      rfl
    · have hle := mt (Number.int_le_int_iff _ _).mp hlast
      change (if _ then _ else _) = _
      rw [if_neg hle, if_neg hlast, ih, Option.map_map]
      cases RetrySchedule.Schedule.locate rest (attempt - tier.count) <;> rfl

theorem serve_ofTier (tier : RetrySchedule.Tier) (note : Text → Note) :
    ((liftM (Fault.ofNumeral (Tier.ofTier tier).write) : Outcome Text) >>= fun written =>
      Outcome.leave (note written) >>= fun _ => pure (Tier.ofTier tier)) =
    Tier.ofTier <$> ((liftM (Fault.ofNumeral tier.write) : Outcome Text) >>= fun written =>
      Outcome.leave (note written) >>= fun _ => pure tier) := by
  simp only [Tier.write_ofTier, Outcome.map_bind]
  rfl

theorem serve_past_ofSchedule (s : RetrySchedule.Schedule) (attempt : Int) :
    (if (ofSchedule s).hasOpenEnd then
      (liftM (Fault.ofNumeral (ofSchedule s).last.write) : Outcome Text) >>= fun written =>
        Outcome.leave (.lastServes attempt (.int s.budget) written) >>= fun _ =>
          pure (ofSchedule s).last
    else Outcome.fail (RetrySchedule.Schedule.exhaustedFault (.int s.budget) attempt)) =
    Tier.ofTier <$> if s.hasOpenEnd then
      (liftM (Fault.ofNumeral s.last.write) : Outcome Text) >>= fun written =>
        Outcome.leave (.lastServes attempt (.int s.budget) written) >>= fun _ => pure s.last
    else Outcome.fail (RetrySchedule.Schedule.exhaustedFault (.int s.budget) attempt) := by
  rw [hasOpenEnd_ofSchedule, last_ofSchedule, serve_ofTier]
  cases s.hasOpenEnd <;> rfl

/-- Among proper tiers the search of loose ones finds what selection finds, notes and faults
included. -/
theorem searchTierFor_ofSchedule (s : RetrySchedule.Schedule) (attempt : Int) :
    (ofSchedule s).searchTierFor attempt = Tier.ofTier <$> s.tierFor attempt := by
  by_cases hlow : attempt < 1
  · rw [searchTierFor, RetrySchedule.Schedule.tierFor, RetrySchedule.Schedule.checkAttempt,
      if_pos hlow]
    rfl
  rw [RetrySchedule.Schedule.tierFor_of_one_le s attempt (by omega), searchTierFor,
    RetrySchedule.Schedule.checkAttempt, if_neg hlow, budget_ofSchedule]
  simp only [Outcome.lift_bind_ok]
  by_cases hle : attempt ≤ s.budget
  · have hwithin := (Number.int_le_int_iff _ _).mpr hle
    have hfound : locate (ofSchedule s).tiers (.int attempt) = _ := locate_ofTiers s.tiers attempt
    rw [if_pos hle, if_pos hwithin, hfound, Outcome.lift_bind_ok]
    cases RetrySchedule.Schedule.locate s.tiers attempt with
    | none => exact serve_past_ofSchedule s attempt
    | some found => exact serve_ofTier found.2 _
  · have hlate := mt (Number.int_le_int_iff _ _).mp hle
    rw [if_neg hle, if_neg hlate]
    exact serve_past_ofSchedule s attempt

/-- Serving proper schedules by the proper selection is no change: the search alone says which tier
serves an attempt. -/
theorem tierFor_eq_searchTierFor (s : Schedule) (attempt : Int) :
    s.tierFor attempt = s.searchTierFor attempt := by
  rw [tierFor]
  cases hproper : s.toSchedule? with
  | none => rfl
  | some proper =>
    rw [(toSchedule?_eq_some_iff s proper).mp hproper]
    exact (searchTierFor_ofSchedule proper attempt).symm

end Schedule
end Loose
end RetrySchedule
