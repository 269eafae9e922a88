import Mathlib.Algebra.Order.Group.Nat
import Mathlib.Data.Nat.Init
import Mathlib.Order.Monotone.Basic
import RetrySchedule.Calendar.Date

namespace RetrySchedule.Date

/-- Blocks that follow one another from a first one on: `before` counts what is in front of a block.
A walk over the blocks finds the one that holds a place, and no other block does. -/
def Consecutive (first : Nat) (before length : Nat → Nat) : Prop :=
  ∀ block, first ≤ block → before (block + 1) = before block + length block

namespace Consecutive

variable {first : Nat} {before length : Nat → Nat} (h : Consecutive first before length)
include h

theorem le_of_le {block later : Nat} (hfirst : first ≤ block) (hle : block ≤ later) :
    before block ≤ before later := by
  induction later, hle using Nat.le_induction with
  | base => exact Nat.le_refl _
  | succ later hle ih =>
    rw [h later (hfirst.trans hle)]
    exact Nat.le_add_right_of_le ih

theorem end_le {block later : Nat} (hfirst : first ≤ block) (hlt : block < later) :
    before block + length block ≤ before later := by
  rw [← h block hfirst]
  exact h.le_of_le (Nat.le_succ_of_le hfirst) hlt

theorem eq_of_eq {block other place place' : Nat} (hblock : first ≤ block) (hother : first ≤ other)
    (hplace : place < length block) (hplace' : place' < length other)
    (heq : before block + place = before other + place') : block = other ∧ place = place' := by
  rcases Nat.lt_trichotomy block other with hlt | rfl | hgt
  · have hle := h.end_le hblock hlt
    omega
  · exact ⟨rfl, by omega⟩
  · have hle := h.end_le hother hgt
    omega

/-- The walk ends in the block of its place, if there is fuel enough to reach it. -/
theorem walk_spec (fuel block place : Nat) (hfirst : first ≤ block)
    (hplace : before block + place < before (block + fuel + 1)) :
    ∃ found rest, walk length fuel block place = (found, rest) ∧ block ≤ found ∧
      found ≤ block + fuel ∧ rest < length found ∧
      before found + rest = before block + place := by
  induction fuel generalizing block place with
  | zero =>
    rw [Nat.add_zero, h block hfirst] at hplace
    exact ⟨block, place, rfl, Nat.le_refl _, Nat.le_refl _, by omega, rfl⟩
  | succ fuel ih =>
    rw [walk]
    split_ifs with hin
    · exact ⟨block, place, rfl, Nat.le_refl _, Nat.le_add_right _ _, hin, rfl⟩
    · have hnext := h block hfirst
      have hfuel : block + 1 + fuel + 1 = block + (fuel + 1) + 1 := by omega
      obtain ⟨found, rest, hwalk, hle, hge, hrest, heq⟩ :=
        ih (block + 1) (place - length block) (by omega) (by rw [hfuel]; omega)
      exact ⟨found, rest, hwalk, by omega, by omega, hrest, by omega⟩

end Consecutive

theorem isLeap_iff (year : Nat) : isLeap year ↔ 4 ∣ year ∧ (¬ 100 ∣ year ∨ 400 ∣ year) := by
  simp [isLeap, Nat.dvd_iff_mod_eq_zero]

/-- The days before a year grow by the length of the year: leap days are counted by the Gregorian
rule. -/
theorem consecutive_years : Consecutive 1 daysBeforeYear yearLength := by
  intro year hyear
  obtain ⟨past, rfl⟩ := Nat.exists_eq_add_of_le' hyear
  have hpast : past / 100 ≤ past := Nat.div_le_self _ _
  simp only [daysBeforeYear, yearLength, isLeap_iff, Nat.add_sub_cancel, Nat.succ_div]
  generalize past / 4 = fourths at *
  generalize past / 100 = centuries at *
  generalize past / 400 = cycles at *
  split_ifs <;> omega

theorem consecutive_months (year : Nat) :
    Consecutive 1 (daysBeforeMonth year) (monthLength year) := by
  intro month hmonth
  obtain ⟨passed, rfl⟩ := Nat.exists_eq_add_of_le' hmonth
  simp only [daysBeforeMonth, Nat.add_sub_cancel, List.range_succ, List.foldl_append,
    List.foldl_cons, List.foldl_nil]

theorem daysBeforeMonth_end (year : Nat) : daysBeforeMonth year 13 = yearLength year := by
  have hmonths : daysBeforeMonth year 13 = monthLength year 2 + 337 := by
    simp only [daysBeforeMonth, List.range_succ, List.range_zero, List.foldl_append,
      List.foldl_cons, List.foldl_nil, List.nil_append, monthLength]
    omega
  rw [hmonths, yearLength, monthLength]
  split_ifs <;> rfl

theorem daysBeforeYear_cycle (cycle : Nat) :
    daysBeforeYear (1 + 400 * cycle) = 146097 * cycle := by
  simp only [daysBeforeYear]
  omega

def inYear (d : Date) : Nat :=
  daysBeforeMonth d.year d.month + (d.day - 1)

theorem dayNumber_eq (d : Date) : d.dayNumber = daysBeforeYear d.year + d.inYear := by
  rw [dayNumber, inYear, Nat.add_assoc]

theorem inMonth_lt (d : Date) : d.day - 1 < monthLength d.year d.month := by
  have hday := d.day_mem
  omega

theorem inYear_lt (d : Date) : d.inYear < yearLength d.year := by
  obtain ⟨hfirst, hlast⟩ := d.month_mem
  have hle := (consecutive_months d.year).end_le hfirst (Nat.lt_succ_of_le hlast)
  have hin := d.inMonth_lt
  rw [daysBeforeMonth_end] at hle
  rw [inYear]
  omega

theorem dayNumber_injective : Function.Injective dayNumber := by
  intro d e h
  rw [dayNumber_eq, dayNumber_eq] at h
  obtain ⟨hyear, hinYear⟩ :=
    consecutive_years.eq_of_eq d.year_mem.1 e.year_mem.1 d.inYear_lt e.inYear_lt h
  have hin := d.inMonth_lt
  rw [hyear] at hin
  rw [inYear, inYear, hyear] at hinYear
  obtain ⟨hmonth, hinMonth⟩ := (consecutive_months e.year).eq_of_eq d.month_mem.1 e.month_mem.1
    hin e.inMonth_lt hinYear
  have hday : d.day = e.day := by
    have hfirst := d.day_mem.1
    have hfirst' := e.day_mem.1
    omega
  cases d
  cases e
  cases hyear
  cases hmonth
  cases hday
  rfl

def dayCount : Nat :=
  daysBeforeYear (maxYear + 1)

theorem dayNumber_lt (d : Date) : d.dayNumber < dayCount := by
  have hle : daysBeforeYear d.year + yearLength d.year ≤ dayCount :=
    consecutive_years.end_le d.year_mem.1 (Nat.lt_succ_of_le d.year_mem.2)
  have hin := d.inYear_lt
  rw [dayNumber_eq]
  omega

/-- The day after a date: the next one of the month, the first one of the next month, or the first
one of the next year. -/
inductive Follows (d e : Date) : Prop
  | inMonth (hyear : e.year = d.year) (hmonth : e.month = d.month) (hday : e.day = d.day + 1)
  | nextMonth (hlast : d.day = monthLength d.year d.month) (hyear : e.year = d.year)
      (hmonth : e.month = d.month + 1) (hday : e.day = 1)
  | nextYear (hlast : d.month = 12 ∧ d.day = 31) (hyear : e.year = d.year + 1)
      (hmonth : e.month = 1) (hday : e.day = 1)

theorem Follows.dayNumber_eq {d e : Date} (h : d.Follows e) : e.dayNumber = d.dayNumber + 1 := by
  have hfirst := d.day_mem.1
  cases h with
  | inMonth hyear hmonth hday =>
    rw [dayNumber, dayNumber, hyear, hmonth, hday]
    omega
  | nextMonth hlast hyear hmonth hday =>
    have hmonths := consecutive_months d.year d.month d.month_mem.1
    rw [dayNumber, dayNumber, hyear, hmonth, hday]
    omega
  | nextYear hlast hyear hmonth hday =>
    have hyears := consecutive_years d.year d.year_mem.1
    have hmonths := consecutive_months d.year 12 (by decide)
    have hdecember : monthLength d.year 12 = 31 := rfl
    have hjanuary : daysBeforeMonth (d.year + 1) 1 = 0 := rfl
    rw [daysBeforeMonth_end] at hmonths
    rw [dayNumber, dayNumber, hyear, hmonth, hday, hlast.1, hlast.2]
    omega

theorem monthLength_pos (year month : Nat) : 1 ≤ monthLength year month := by
  unfold monthLength
  split
  · split_ifs <;> decide
  all_goals decide

theorem exists_follows {d : Date} (h : d.dayNumber + 1 < dayCount) : ∃ e, d.Follows e := by
  obtain ⟨hday, hday'⟩ := d.day_mem
  obtain ⟨hmonth, hmonth'⟩ := d.month_mem
  obtain ⟨hyear, hyear'⟩ := d.year_mem
  rcases Nat.lt_or_eq_of_le hday' with hlt | hlast
  · exact ⟨⟨d.year, d.month, d.day + 1, d.year_mem, d.month_mem, by omega⟩, .inMonth rfl rfl rfl⟩
  rcases Nat.lt_or_eq_of_le hmonth' with hlt | hdecember
  · exact ⟨⟨d.year, d.month + 1, 1, d.year_mem, by omega, Nat.le_refl 1, monthLength_pos _ _⟩,
      .nextMonth hlast rfl rfl rfl⟩
  have hend : d.day = 31 := by rw [hlast, hdecember]; rfl
  rcases Nat.lt_or_eq_of_le hyear' with hlt | hlatest
  · exact ⟨⟨d.year + 1, 1, 1, by omega, by decide, Nat.le_refl 1, monthLength_pos _ _⟩,
      .nextYear ⟨hdecember, hend⟩ rfl rfl rfl⟩
  · rw [dayNumber, hlatest, hdecember, hend] at h
    exact absurd h (by decide)

/-- The number of a day is one more than that of the day before. -/
theorem follows_iff (d e : Date) : d.Follows e ↔ e.dayNumber = d.dayNumber + 1 := by
  refine ⟨Follows.dayNumber_eq, fun h => ?_⟩
  obtain ⟨next, hnext⟩ := exists_follows (h ▸ e.dayNumber_lt)
  rwa [dayNumber_injective (h.trans hnext.dayNumber_eq.symm)]

/-- The walks find the fields that make up a number of days. The year may be past the last one. -/
theorem exists_fields (number : Nat) : ∃ year month day : Nat,
    1 ≤ year ∧ (1 ≤ month ∧ month ≤ 12) ∧ (1 ≤ day ∧ day ≤ monthLength year month) ∧
    daysBeforeMonth year month + (day - 1) < yearLength year ∧
    daysBeforeYear year + (daysBeforeMonth year month + (day - 1)) = number ∧
    ofDayNumber? number = ofFields? year month day := by
  have hcycle := Nat.div_add_mod number cycleDays
  have hrest := Nat.mod_lt number (by decide : 0 < cycleDays)
  have hstart := daysBeforeYear_cycle (number / cycleDays)
  have hnext := daysBeforeYear_cycle (number / cycleDays + 1)
  -- The walk over the years starts with the cycle that holds the day, so 400 steps are enough.
  have hfuel := consecutive_years.end_le (by omega)
    (by omega : 1 + 400 * (number / cycleDays + 1) < 1 + 400 * (number / cycleDays) + 400 + 1)
  have hplace : daysBeforeYear (1 + 400 * (number / cycleDays)) + number % cycleDays <
      daysBeforeYear (1 + 400 * (number / cycleDays) + 400 + 1) := by
    rw [cycleDays] at *
    omega
  obtain ⟨year, inYear, hyears, hyear, -, hinYear, hnumber⟩ :=
    consecutive_years.walk_spec 400 _ _ (by omega) hplace
  have hend : daysBeforeMonth year 1 + inYear < daysBeforeMonth year (1 + 11 + 1) := by
    rw [daysBeforeMonth_end]
    exact (Nat.zero_add inYear).symm ▸ hinYear
  obtain ⟨month, inMonth, hmonths, hmonth, hmonth', hinMonth, hplaces⟩ :=
    (consecutive_months year).walk_spec 11 1 inYear (Nat.le_refl 1) hend
  have hzero : daysBeforeMonth year 1 = 0 := rfl
  refine ⟨year, month, inMonth + 1, by omega, ⟨hmonth, hmonth'⟩,
    ⟨Nat.succ_pos inMonth, hinMonth⟩, by omega, ?_, ?_⟩
  · rw [cycleDays] at *
    omega
  · simp only [ofDayNumber?, hyears, hmonths]

theorem dayNumber_of_ofDayNumber? {number : Nat} {d : Date} (h : ofDayNumber? number = some d) :
    d.dayNumber = number := by
  obtain ⟨year, month, day, -, -, -, -, rfl, hfields⟩ := exists_fields number
  rw [hfields, ofFields?] at h
  split_ifs at h
  obtain rfl := Option.some.inj h
  exact dayNumber_eq _

theorem exists_ofDayNumber?_iff (number : Nat) :
    (∃ d, ofDayNumber? number = some d) ↔ number < dayCount := by
  constructor
  · rintro ⟨d, h⟩
    rw [← dayNumber_of_ofDayNumber? h]
    exact d.dayNumber_lt
  · intro hlt
    obtain ⟨year, month, day, hyear, hmonth, hday, -, hnumber, hfields⟩ := exists_fields number
    have hlast : year ≤ maxYear := by
      by_contra hlate
      rw [Nat.not_le] at hlate
      have hle : dayCount ≤ daysBeforeYear year :=
        consecutive_years.le_of_le (Nat.succ_pos maxYear) hlate
      omega
    rw [hfields, ofFields?, dif_pos ⟨⟨hyear, hlast⟩, hmonth, hday⟩]
    exact ⟨_, rfl⟩

/-- The calendar is read in both directions. -/
theorem ofDayNumber?_eq_some_iff (number : Nat) (d : Date) :
    ofDayNumber? number = some d ↔ d.dayNumber = number := by
  constructor
  · exact dayNumber_of_ofDayNumber?
  · rintro rfl
    obtain ⟨e, he⟩ := (exists_ofDayNumber?_iff d.dayNumber).mpr d.dayNumber_lt
    rw [he, dayNumber_injective (dayNumber_of_ofDayNumber? he)]

theorem ofDayNumber?_eq_none_iff (number : Nat) :
    ofDayNumber? number = none ↔ dayCount ≤ number := by
  rw [Option.eq_none_iff_forall_ne_some, ← Nat.not_lt, ← exists_ofDayNumber?_iff, not_exists]

end RetrySchedule.Date
