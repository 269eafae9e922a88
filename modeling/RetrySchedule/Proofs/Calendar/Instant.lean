import Mathlib.Algebra.Order.BigOperators.Group.List
import RetrySchedule.Calendar.Instant
import RetrySchedule.Proofs.Calendar.Date
import RetrySchedule.Proofs.Micros

namespace RetrySchedule.Instant

def horizon : Nat :=
  Date.dayCount * Span.microsPerDay

theorem localMicros_div_mod (i : Instant) : i.localMicros / Span.microsPerDay = i.date.dayNumber ∧
    i.localMicros % Span.microsPerDay = i.time := by
  have htime := i.time_lt
  apply (Nat.div_mod_unique (by decide)).mpr
  rw [localMicros, Nat.mul_comm, Nat.add_comm]
  exact ⟨rfl, htime⟩

theorem localMicros_lt (i : Instant) : i.localMicros < horizon := by
  rw [horizon, ← Nat.div_lt_iff_lt_mul (by decide), i.localMicros_div_mod.1]
  exact i.date.dayNumber_lt

theorem eq_of_localMicros {i j : Instant} (hzone : i.zone = j.zone) (hagain : i.again = j.again)
    (h : i.localMicros = j.localMicros) : i = j := by
  obtain ⟨hday, htime⟩ := i.localMicros_div_mod
  obtain ⟨hday', htime'⟩ := j.localMicros_div_mod
  rw [h] at hday htime
  have hdate : i.date = j.date := Date.dayNumber_injective (hday.symm.trans hday')
  have hsame : i.time = j.time := htime.symm.trans htime'
  cases i
  cases j
  cases hdate
  cases hsame
  cases hagain
  cases hzone
  rfl

section
variable (zone : Option Zone) (micros : Int)

theorem ofLocalMicros_cases :
    ((0 ≤ micros ∧ micros < horizon) ∧ ∃ i, ofLocalMicros zone micros = .ok i ∧
      i.zone = zone ∧ i.again = false ∧ i.localMicros = micros) ∨
    ((micros < 0 ∨ horizon ≤ micros) ∧ ofLocalMicros zone micros = .error .dateRange) := by
  unfold ofLocalMicros
  split_ifs with hneg
  · exact Or.inr ⟨Or.inl hneg, rfl⟩
  · obtain ⟨count, rfl⟩ := Int.eq_ofNat_of_zero_le (Int.not_lt.mp hneg)
    simp only [Int.toNat_natCast]
    have hdays : count / Span.microsPerDay < Date.dayCount ↔ count < horizon :=
      Nat.div_lt_iff_lt_mul (by decide)
    split
    · rename_i date hdate
      refine Or.inl ⟨⟨Int.natCast_nonneg _, ?_⟩, _, rfl, rfl, rfl, ?_⟩
      · exact_mod_cast hdays.mp ((Date.exists_ofDayNumber?_iff _).mp ⟨date, hdate⟩)
      · rw [localMicros, Date.dayNumber_of_ofDayNumber? hdate, Nat.div_add_mod']
    · rename_i hnone
      refine Or.inr ⟨Or.inr ?_, rfl⟩
      have hlate := mt hdays.mpr (Nat.not_lt.mpr ((Date.ofDayNumber?_eq_none_iff _).mp hnone))
      exact_mod_cast Nat.not_lt.mp hlate

variable {zone micros}

theorem ofLocalMicros_eq_ok_iff (i : Instant) : ofLocalMicros zone micros = .ok i ↔
    i.zone = zone ∧ i.again = false ∧ i.localMicros = micros := by
  rcases ofLocalMicros_cases zone micros with
    ⟨-, j, hj, hzone, hagain, hmicros⟩ | ⟨hrange, herror⟩
  · rw [hj, Except.ok.injEq]
    constructor
    · rintro rfl
      exact ⟨hzone, hagain, hmicros⟩
    · rintro ⟨hzone', hagain', hmicros'⟩
      apply eq_of_localMicros (hzone.trans hzone'.symm) (hagain.trans hagain'.symm)
      exact Int.ofNat.inj (hmicros.trans hmicros'.symm)
  · refine iff_of_false (fun hi => ?_) ?_
    · cases hi.symm.trans herror
    · rintro ⟨-, -, rfl⟩
      have hlt := i.localMicros_lt
      omega

end

section
variable (start : Instant) (span : Span)

variable {start span}

theorem shift_eq_ok_iff (due : Instant) : start.shift span = .ok due ↔ due.zone = start.zone ∧
    due.again = false ∧ (due.localMicros : Int) = start.localMicros + span.toMicros :=
  ofLocalMicros_eq_ok_iff due

end

end RetrySchedule.Instant
