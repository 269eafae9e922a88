import RetrySchedule.Proofs.Seconds

namespace RetrySchedule

/-- The faults of a number that is too large for what it is made. -/
def Fault.isOverflow : Fault → Bool
  | spanDays _ | spanWidth | infiniteSpan | secondsRange | realRange | dateRange => true
  | _ => false

namespace Span

def inDay (s : Span) : Nat :=
  s.seconds * microsPerSecond + s.micros

theorem toMicros_eq (s : Span) : s.toMicros = microsPerDay * s.days + s.inDay := by
  rw [toMicros, inDay, microsPerDay, microsPerSecond]
  omega

theorem inDay_lt (s : Span) : s.inDay < microsPerDay := by
  have hseconds := s.seconds_lt
  have hmicros := s.micros_lt
  rw [inDay, microsPerDay]
  rw [microsPerSecond] at *
  omega

theorem toMicros_ediv_emod (s : Span) :
    s.toMicros / microsPerDay = s.days ∧ s.toMicros % microsPerDay = s.inDay := by
  have hin := s.inDay_lt
  apply (Int.ediv_emod_unique (by decide)).mpr
  rw [s.toMicros_eq]
  exact ⟨by omega, by omega, by omega⟩

theorem toMicros_injective : Function.Injective toMicros := by
  intro s t h
  obtain ⟨hdays, hin⟩ := s.toMicros_ediv_emod
  obtain ⟨hdays', hin'⟩ := t.toMicros_ediv_emod
  rw [h] at hdays hin
  have hrest : s.seconds * microsPerSecond + s.micros = t.seconds * microsPerSecond + t.micros :=
    Int.ofNat.inj (hin.symm.trans hin')
  have hmicros := s.micros_lt
  have hmicros' := t.micros_lt
  rw [microsPerSecond] at hrest hmicros hmicros'
  have hseconds : s.seconds = t.seconds := by omega
  have hequal : s.micros = t.micros := by omega
  cases s
  cases t
  cases hdays.symm.trans hdays'
  cases hseconds
  cases hequal
  rfl

theorem ofMicros_cases (total : Int) :
    ((total / microsPerDay).natAbs ≤ maxDays ∧ ∃ s, ofMicros total = .ok s ∧ s.toMicros = total) ∨
    (maxDays < (total / microsPerDay).natAbs ∧
      ∃ fault, ofMicros total = .error fault ∧ fault.isOverflow) := by
  have hwidth : maxDays < dayWidth := by decide
  unfold ofMicros
  simp only [Bool.or_eq_true, decide_eq_true_eq]
  split_ifs with hwide hdays
  · exact Or.inr ⟨by omega, _, rfl, rfl⟩
  · refine Or.inl ⟨hdays, _, rfl, ?_⟩
    have hrest := Int.mul_ediv_add_emod total microsPerDay
    have hnonneg := Int.emod_nonneg total (by decide : (microsPerDay : Int) ≠ 0)
    rw [toMicros_eq, inDay]
    simp only [Nat.div_add_mod']
    omega
  · exact Or.inr ⟨by omega, _, rfl, rfl⟩

theorem toMicros_of_ofMicros {total : Int} {s : Span} (h : ofMicros total = .ok s) :
    s.toMicros = total := by
  rcases ofMicros_cases total with ⟨-, t, ht, htotal⟩ | ⟨-, fault, hfault, -⟩
  · rwa [Except.ok.inj (h.symm.trans ht)]
  · cases h.symm.trans hfault

theorem ofMicros_eq_ok_iff (total : Int) (s : Span) :
    ofMicros total = .ok s ↔ s.toMicros = total := by
  constructor
  · exact toMicros_of_ofMicros
  · rintro rfl
    rcases ofMicros_cases s.toMicros with ⟨-, t, ht, htotal⟩ | ⟨hlong, -⟩
    · rwa [toMicros_injective htotal] at ht
    · rw [s.toMicros_ediv_emod.1] at hlong
      exact absurd s.days_le (Nat.not_le.mpr hlong)

theorem exists_ofMicros_iff (total : Int) :
    (∃ s, ofMicros total = .ok s) ↔ (total / microsPerDay).natAbs ≤ maxDays := by
  rcases ofMicros_cases total with ⟨hdays, s, hs, -⟩ | ⟨hlong, fault, hfault, -⟩
  · exact iff_of_true ⟨s, hs⟩ hdays
  · refine iff_of_false ?_ (Nat.not_le.mpr hlong)
    rintro ⟨s, hs⟩
    cases hs.symm.trans hfault

theorem isOverflow_of_ofMicros {total : Int} {fault : Fault} (h : ofMicros total = .error fault) :
    fault.isOverflow := by
  rcases ofMicros_cases total with ⟨-, s, hs, -⟩ | ⟨-, other, hother, hoverflow⟩
  · cases h.symm.trans hs
  · rwa [Except.error.inj (h.symm.trans hother)]

end Span

/-- The two tables of units describe the same lengths. -/
theorem Scale.micros_eq (scale : Scale) : scale.micros = 1000 * scale.millis := by
  cases scale <;> decide

namespace Wait

theorem span_eq (wait : Wait) : wait.span = Span.ofMicros (1000 * wait.millis) := by
  have htotal : wait.magnitude * wait.scale.micros = 1000 * wait.millis := by
    rw [Scale.micros_eq, millis, Int.natCast_mul, Int.mul_left_comm]
    rfl
  rw [span, Scale.span, htotal]

/-- The conversion of waits to spans is exact. It fails exactly if the number of complete days is
out of range, below zero as well as above; waits that it does not fail for have equal spans exactly
if they are equally long, in whatever units they are given. -/
theorem span_exact (wait : Wait) :
    ((∃ fault, wait.span = .error fault ∧ fault.isOverflow) ↔
      ¬ (-999999999 ≤ (1000 * wait.millis).fdiv 86400000000 ∧
        (1000 * wait.millis).fdiv 86400000000 ≤ 999999999)) ∧
    (-999999999 ≤ (1000 * wait.millis).fdiv 86400000000 ∧
        (1000 * wait.millis).fdiv 86400000000 ≤ 999999999 →
      ∃ span, wait.span = .ok span ∧ span.seconds < 86400 ∧ span.micros < 1000000 ∧
        (span.days * 86400 + span.seconds) * 1000000 + span.micros = 1000 * wait.millis) ∧
    ∀ (other : Wait) (span span' : Span), wait.span = .ok span → other.span = .ok span' →
      (span = span' ↔ wait.millis = other.millis) := by
  -- The days are made by floor division, which for a positive divisor is the Euclidean one.
  have hfloor : (1000 * wait.millis).fdiv 86400000000 =
      1000 * wait.millis / Span.microsPerDay :=
    Int.fdiv_eq_ediv_of_nonneg _ (by decide)
  have hrange : (-999999999 ≤ (1000 * wait.millis).fdiv 86400000000 ∧
      (1000 * wait.millis).fdiv 86400000000 ≤ 999999999) ↔
      (1000 * wait.millis / Span.microsPerDay).natAbs ≤ Span.maxDays := by
    rw [hfloor, Span.maxDays]
    omega
  rw [hrange]
  refine ⟨?_, fun hdays => ?_, fun other span span' hspan hspan' => ?_⟩
  · rw [span_eq]
    rcases Span.ofMicros_cases (1000 * wait.millis) with
      ⟨hdays, span, hspan, -⟩ | ⟨hlong, hfault⟩
    · refine iff_of_false ?_ (not_not_intro hdays)
      rintro ⟨fault, hfault, -⟩
      cases hspan.symm.trans hfault
    · exact iff_of_true hfault (Nat.not_le.mpr hlong)
  · rw [span_eq]
    obtain ⟨span, hspan⟩ := (Span.exists_ofMicros_iff _).mpr hdays
    exact ⟨span, hspan, span.seconds_lt, span.micros_lt, Span.toMicros_of_ofMicros hspan⟩
  · rw [span_eq] at hspan hspan'
    have htotal := Span.toMicros_of_ofMicros hspan
    have htotal' := Span.toMicros_of_ofMicros hspan'
    rw [← Span.toMicros_injective.eq_iff, htotal, htotal']
    omega

/-- The least span is one of whole days, and the greatest one ends a microsecond before a day. -/
example : (∃ span, Wait.span ⟨-999999999, .days⟩ = .ok span) ∧
    Wait.span ⟨-999999999 * 86400000 - 1, .milliseconds⟩ = .error (.spanDays (-1000000000)) ∧
    (∃ span, Wait.span ⟨1000000000 * 86400000 - 1, .milliseconds⟩ = .ok span) ∧
    Wait.span ⟨1000000000, .days⟩ = .error (.spanDays 1000000000) :=
  ⟨⟨_, rfl⟩, rfl, ⟨_, rfl⟩, rfl⟩

end Wait
end RetrySchedule
