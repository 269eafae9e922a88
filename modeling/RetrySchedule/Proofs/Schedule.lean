import Mathlib.Algebra.GroupWithZero.Nat
import RetrySchedule.Schedule

namespace RetrySchedule

theorem Numeral.fits_iff (n : Int) : fits n ↔ n.natAbs < 10 ^ digitLimit := by
  rw [fits, decide_eq_true_iff, Nat.pow_eq]

theorem Numeral.fits_natCast (n : Nat) : fits n ↔ n < 10 ^ digitLimit := by
  rw [fits_iff, Int.natAbs_natCast]

theorem Tier.fits_iff (tier : Tier) : tier.fits ↔
    tier.magnitude < 10 ^ Numeral.digitLimit ∧ tier.count < 10 ^ Numeral.digitLimit := by
  rw [fits, Bool.and_eq_true, Numeral.fits_natCast, Numeral.fits_natCast]

theorem Tier.ofNumeral_write (tier : Tier) (h : tier.fits) :
    Fault.ofNumeral tier.write = .ok tier.text := by
  rw [write, if_pos h]
  rfl

/-- No number of a schedule exceeds the digit limit. -/
structure Schedule.Short (s : Schedule) : Prop where
  tiers : ∀ tier ∈ s.tiers, tier.fits
  budget : s.budget < 10 ^ Numeral.digitLimit

theorem Schedule.Short.write {s : Schedule} (h : s.Short) : s.write = .ok s.text := by
  rw [Schedule.write, if_pos (List.all_eq_true.mpr h.tiers)]

theorem Schedule.budget_eq (s : Schedule) : s.budget = (s.tiers.map Tier.count).sum := by
  unfold budget
  induction s.tiers with
  | nil => rfl
  | cons tier rest ih => rw [List.foldr_cons, ih, List.map_cons, List.sum_cons]

end RetrySchedule
