import RetrySchedule.Loose.Wait
import RetrySchedule.Proofs.Calendar.Instant
import RetrySchedule.Proofs.Spans

namespace RetrySchedule

namespace Span

end Span

namespace Wait
variable (wait : Wait) (start : Instant)

theorem exists_span_of_lt (hpos : 0 ≤ start.localMicros + 1000 * wait.millis)
    (hlt : start.localMicros + 1000 * wait.millis < Instant.horizon) :
    ∃ span, wait.span = .ok span := by
  have hstart := start.localMicros_lt
  have hhorizon : (Instant.horizon : Int) ≤ Span.maxDays * Span.microsPerDay := by decide
  have hleast : -(Span.maxDays : Int) ≤ 1000 * wait.millis / Span.microsPerDay := by
    apply Int.le_ediv_of_mul_le (by decide)
    rw [Int.neg_mul]
    omega
  have hmost : 1000 * wait.millis / Span.microsPerDay < Span.maxDays := by
    apply Int.ediv_lt_of_lt_mul (by decide)
    omega
  rw [span_eq, Span.exists_ofMicros_iff]
  omega

variable {wait start}

theorem after_eq_ok_iff (due : Instant) : wait.after start = .ok due ↔ due.zone = start.zone ∧
    due.again = false ∧ (due.localMicros : Int) = start.localMicros + 1000 * wait.millis := by
  cases hspan : wait.span with
  | ok span =>
    have hmicros : span.toMicros = 1000 * wait.millis :=
      Span.toMicros_of_ofMicros (wait.span_eq ▸ hspan)
    have hafter : wait.after start = start.shift span := by
      rw [after, hspan]
      rfl
    rw [hafter, Instant.shift_eq_ok_iff, hmicros]
  | error fault =>
    have hafter : wait.after start = .error fault := by
      rw [after, hspan]
      rfl
    rw [hafter]
    refine iff_of_false (fun h => by cases h) ?_
    rintro ⟨-, -, hdue⟩
    -- A span has room for the whole calendar, so a wait that has none leads out of it.
    have hlt := due.localMicros_lt
    obtain ⟨span, hmade⟩ := exists_span_of_lt wait start (by omega) (by omega)
    cases hspan.symm.trans hmade

end Wait

theorem Plan.dueAfter_eq_ok_iff (plan : Plan) (attempt : Int) (start due : Instant) :
    (plan.dueAfter attempt start).result = .ok due ↔
      ∃ wait, (plan.waitFor attempt).result = .ok wait ∧ due.zone = start.zone ∧
        due.again = false ∧ (due.localMicros : Int) = start.localMicros + 1000 * wait.millis := by
  cases hwait : (plan.waitFor attempt).result with
  | ok wait =>
    rw [dueAfter, Outcome.result_bind_of_ok _ _ _ hwait]
    simp only [Except.ok.injEq, exists_eq_left']
    exact Wait.after_eq_ok_iff due
  | error fault =>
    rw [dueAfter, Outcome.result_bind_of_error _ _ _ hwait]
    simp only [reduceCtorEq, false_and, exists_false]

namespace Loose.Wait

section
variable {wait : Wait} {start : Instant}

theorem after_of_span {span : Span} (h : wait.span = .ok span) :
    wait.after start = start.shift span := by
  rw [after, h]
  rfl

theorem after_of_refused {fault : Fault} (h : wait.span = .error fault) :
    wait.after start = .error fault := by
  rw [after, h]
  rfl

theorem after_eq_ok_iff (due : Instant) : wait.after start = .ok due ↔
    ∃ span, wait.span = .ok span ∧ start.shift span = .ok due := by
  cases hspan : wait.span with
  | ok span =>
    rw [after_of_span hspan]
    simp only [Except.ok.injEq, exists_eq_left']
  | error fault =>
    rw [after_of_refused hspan]
    simp only [reduceCtorEq, false_and, exists_false]

end

section
variable {first second : Wait} {start : Instant}

end

end Loose.Wait
end RetrySchedule
