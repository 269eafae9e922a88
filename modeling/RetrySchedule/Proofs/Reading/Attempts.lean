import RetrySchedule.Proofs.Reading.Lenience
import RetrySchedule.Proofs.Reading.RoundTrip
import RetrySchedule.Proofs.Waits

namespace RetrySchedule.Schedule
open Term

section
variable {s : Schedule} (h : s.Short) {attempt : Int}
include h

theorem Short.budget_lt_limit : (s.budget : Int) < (10 ^ Numeral.digitLimit : Nat) :=
  Int.ofNat_lt.mpr h.budget

theorem result_waitFor_of_le (hpos : 1 ≤ attempt) (hle : attempt ≤ s.budget) :
    ∃ wait, (waits s.tiers)[(attempt - 1).toNat]? = some wait ∧
      (s.waitFor attempt).result = .ok wait := by
  obtain ⟨wait, hplace, hanswer⟩ := s.answer_of_le attempt hpos hle
  have hlimit := h.budget_lt_limit
  refine ⟨wait, hplace, ?_⟩
  rw [result_waitFor_eq_answer s attempt h hpos (by omega), hanswer]

theorem result_waitFor_of_long (hlong : (10 ^ Numeral.digitLimit : Nat) ≤ attempt) :
    (s.waitFor attempt).result = .error (.numeral .tooLongToWrite) := by
  have hlimit := h.budget_lt_limit
  have hlt : (s.budget : Int) < attempt := by omega
  have hpos : 1 ≤ attempt := by omega
  have hfits : Numeral.fits attempt = false := by
    rw [← Bool.not_eq_true, Numeral.fits_iff]
    omega
  have hlast : s.last.fits := h.tiers _ (List.getLast_mem s.tiers_ne_nil)
  rw [result_waitFor, tierFor_of_not_fits s attempt hpos hlt hfits hlast]
  rfl

end

/-- The answers of a plan to an attempt that can be written: attempts are counted from one, those
that are covered are given the wait of a tier, and those behind them the budget. -/
inductive Answers (plan : Plan) (attempt : Int) : Except Fault Wait → Prop
  | early (h : attempt < 1) : Answers plan attempt (.error (.attemptBelowOne attempt))
  | served (h : 1 ≤ attempt)
      (hcovered : plan.maxAttempts = none ∨
        ∃ covered : Nat, plan.maxAttempts = some covered ∧ attempt ≤ covered)
      (tier : Tier) (htier : tier ∈ plan.schedule.tiers) : Answers plan attempt (.ok tier.wait)
  | late (covered : Nat) (hmax : plan.maxAttempts = some covered) (h : covered < attempt) :
      Answers plan attempt (.error (.exhausted (.int covered) attempt))

theorem waitFor_answers {plan : Plan} (h : plan.schedule.Short) {attempt : Int}
    (hlimit : attempt.natAbs < 10 ^ Numeral.digitLimit) :
    Answers plan attempt (plan.waitFor attempt).result := by
  rw [Plan.waitFor]
  rcases Int.lt_or_le attempt 1 with hearly | hpos
  · rw [result_waitFor, tierFor_of_lt_one _ attempt hearly ((Numeral.fits_iff attempt).mpr hlimit)]
    exact .early hearly
  · rw [result_waitFor_eq_answer _ attempt h hpos (by omega)]
    rcases Int.lt_or_le plan.schedule.budget attempt with hlt | hle
    · rw [plan.schedule.answer_of_lt attempt hlt]
      cases hend : plan.schedule.hasOpenEnd with
      | true =>
        have hnone : plan.maxAttempts = none := by rw [Plan.maxAttempts, if_pos hend]
        exact .served hpos (Or.inl hnone) _ (List.getLast_mem plan.schedule.tiers_ne_nil)
      | false =>
        have hsome : plan.maxAttempts = some plan.schedule.budget := by
          rw [Plan.maxAttempts, hend, if_neg Bool.false_ne_true]
        exact .late _ hsome hlt
    · obtain ⟨wait, hplace, hanswer⟩ := plan.schedule.answer_of_le attempt hpos hle
      obtain ⟨tier, htier, rfl⟩ := exists_tier_of_mem_waits (List.mem_of_getElem? hplace)
      rw [hanswer]
      refine .served hpos ?_ tier htier
      rw [Plan.maxAttempts]
      split_ifs
      · exact Or.inl rfl
      · exact Or.inr ⟨_, rfl, hle⟩

theorem exists_wait_of_covered {plan : Plan} (h : plan.schedule.Short) {attempt : Int}
    (hpos : 1 ≤ attempt) (hlimit : attempt < (10 ^ Numeral.digitLimit : Nat))
    (hcovered : plan.maxAttempts = none ∨
      ∃ covered : Nat, plan.maxAttempts = some covered ∧ attempt ≤ covered) :
    ∃ wait, (plan.waitFor attempt).result = .ok wait := by
  cases hanswer : (plan.waitFor attempt).result with
  | ok wait => exact ⟨wait, rfl⟩
  | error fault =>
    have hends : Answers plan attempt _ := waitFor_answers h (by omega)
    rw [hanswer] at hends
    cases hends with
    | early hearly => omega
    | late covered hmax hlt =>
      have hle : attempt ≤ covered := by simpa [hmax] using hcovered
      omega

/-- Which attempts a plan answers. Within the budget every attempt has its wait. Past it an open end
gives its own wait and a closed one says that the budget is exhausted, up to the last number that
can be written; from there on no attempt is answered in either way. -/
theorem waitFor_answers_iff (policy : Policy) (expression : Text) (plan : Plan)
    (hplan : (Plan.read policy expression).result = .ok plan) (attempt : Int)
    (hpos : 1 ≤ attempt) :
    (attempt ≤ plan.schedule.budget →
      ∃ wait, (waits plan.schedule.tiers)[(attempt - 1).toNat]? = some wait ∧
        (plan.waitFor attempt).result = .ok wait) ∧
    (plan.schedule.budget < attempt → attempt < (10 ^ Numeral.digitLimit : Nat) →
      (plan.waitFor attempt).result =
        if plan.schedule.hasOpenEnd then .ok plan.schedule.last.wait
        else .error (.exhausted (.int plan.schedule.budget) attempt)) ∧
    ((10 ^ Numeral.digitLimit : Nat) ≤ attempt →
      (plan.waitFor attempt).result = .error (.numeral .tooLongToWrite)) ∧
    ((∃ wait, (plan.waitFor attempt).result = .ok wait) ∨
        (plan.waitFor attempt).result =
          .error (.exhausted (.int plan.schedule.budget) attempt) ↔
      attempt < (10 ^ Numeral.digitLimit : Nat)) := by
  obtain ⟨-, hread⟩ := plan_of_read hplan
  have hshort := short_of_result hread
  have hlong : (10 ^ Numeral.digitLimit : Nat) ≤ attempt →
      (plan.waitFor attempt).result = .error (.numeral .tooLongToWrite) :=
    result_waitFor_of_long hshort
  refine ⟨result_waitFor_of_le hshort hpos, fun hlt hlimit => ?_, hlong, ?_, fun hlimit => ?_⟩
  · rw [Plan.waitFor, result_waitFor_eq_answer _ attempt hshort hpos hlimit]
    exact plan.schedule.answer_of_lt attempt hlt
  · intro hanswered
    by_contra hlimit
    -- The fault of an attempt that cannot be written is neither of the two answers.
    have hfault := hlong (by omega)
    rcases hanswered with ⟨wait, hwait⟩ | hexhausted
    · cases hfault.symm.trans hwait
    · cases hfault.symm.trans hexhausted
  · rw [Plan.waitFor, result_waitFor_eq_answer _ attempt hshort hpos hlimit]
    rcases plan.schedule.answer_cases attempt with hwait | ⟨-, hexhausted⟩
    · exact Or.inl hwait
    · exact Or.inr hexhausted

theorem everyMinute_answers : ∃ plan : Plan,
    (Plan.read ⟨true⟩ "0/2,1m/2+".toList).result = .ok plan ∧ plan.schedule.budget < (9 : Int) ∧
      (plan.waitFor 9).result = .ok ⟨1, .minutes⟩ := by
  have hplan := plan_read_of_read (read_everyMinute ⟨true⟩)
  have hlimit : (9 : Int) < (10 ^ Numeral.digitLimit : Nat) := by decide +kernel
  obtain ⟨-, hpast, -⟩ := waitFor_answers_iff ⟨true⟩ "0/2,1m/2+".toList _ hplan 9 (by decide)
  exact ⟨_, hplan, by decide, hpast (by decide) hlimit⟩

/-- A zero without end has no wait for the first attempt that cannot be written. -/
theorem endless_zero_unanswered : ∃ plan : Plan,
    (Plan.read ⟨true⟩ "0+".toList).result = .ok plan ∧ plan.maxAttempts = none ∧
      ¬ ((∃ wait, (plan.waitFor (10 ^ Numeral.digitLimit : Nat)).result = .ok wait) ∨
        (plan.waitFor (10 ^ Numeral.digitLimit : Nat)).result =
          .error (.exhausted (.int plan.schedule.budget) (10 ^ Numeral.digitLimit : Nat))) := by
  have hread := read_text_of_short ⟨true⟩
    ⟨[⟨0, .seconds, 1, .unbounded, Nat.one_pos⟩], by decide, by decide⟩
    ⟨by decide +kernel, by decide +kernel⟩
  have hfault := result_waitFor_of_long (short_of_result hread) (Int.le_refl _)
  refine ⟨_, plan_read_of_read hread, rfl, ?_⟩
  rw [Plan.waitFor, hfault]
  rintro (⟨wait, hwait⟩ | hexhausted)
  · cases hwait
  · cases hexhausted

end RetrySchedule.Schedule
