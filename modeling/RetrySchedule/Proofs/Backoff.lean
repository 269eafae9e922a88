import RetrySchedule.Backoff
import RetrySchedule.Proofs.Number
import RetrySchedule.Proofs.Reading.Attempts
import RetrySchedule.Proofs.Seconds

namespace RetrySchedule

theorem Schedule.exists_natural_wait {s : Schedule} {attempt : Int} {wait : Wait}
    (h : (s.waitFor attempt).result = .ok wait) :
    ∃ (magnitude : Nat) (scale : Scale), wait = ⟨magnitude, scale⟩ := by
  rw [result_waitFor] at h
  cases htier : (s.tierFor attempt).result with
  | error fault =>
    rw [htier] at h
    cases h
  | ok tier =>
    rw [htier] at h
    cases h
    exact ⟨tier.magnitude, tier.scale, rfl⟩

namespace Backoff

/-- The backoffs that are made with a number for a cap, from an expression or from a plan. -/
inductive Made (cap : Number) : Backoff → Prop
  | ofExpression {b : Backoff} (policy : Policy) (expression : Argument)
      (h : (Backoff.ofExpression policy (.number cap) expression).result = .ok b) : Made cap b
  | ofPlan {b : Backoff} (plan : Plan) (h : Backoff.ofPlan (.number cap) plan = .ok b) : Made cap b

section
variable {cap : Number}

theorem checkCap_number : checkCap (.number cap) = .ok () ↔ cap.le (.int 0) = false := by
  rw [checkCap]
  cases cap.le (.int 0) <;> simp

theorem ofPlan_eq_ok {plan : Plan} {b : Backoff} : ofPlan (.number cap) plan = .ok b ↔
    cap.le (.int 0) = false ∧ b = ⟨plan, .number cap⟩ := by
  rw [ofPlan, ← checkCap_number]
  cases checkCap (.number cap) with
  | error fault => exact ⟨nofun, nofun⟩
  | ok _ => exact ⟨fun h => ⟨rfl, (Except.ok.inj h).symm⟩, fun h => congrArg _ h.2.symm⟩

theorem ofExpression_eq_ok {policy : Policy} {expression : Argument} {b : Backoff} :
    (ofExpression policy (.number cap) expression).result = .ok b ↔
      cap.le (.int 0) = false ∧ ∃ plan,
        (Plan.ofArgument policy expression).result = .ok plan ∧ b = ⟨plan, .number cap⟩ := by
  rw [ofExpression, ← checkCap_number]
  cases checkCap (.number cap) with
  | error fault => exact ⟨nofun, nofun⟩
  | ok _ =>
    rw [Outcome.lift_bind_ok]
    cases hplan : (Plan.ofArgument policy expression).result with
    | error fault =>
      rw [Outcome.result_bind_of_error _ _ _ hplan]
      exact ⟨nofun, nofun⟩
    | ok plan =>
      rw [Outcome.result_bind_of_ok _ _ _ hplan]
      constructor
      · intro h
        exact ⟨rfl, plan, rfl, (Except.ok.inj h).symm⟩
      · rintro ⟨-, _, ⟨⟩, rfl⟩
        rfl

/-- The cap of a backoff is a number that is not zero or less. It may still be a NaN. -/
theorem Made.cap_eq {b : Backoff} (hmade : Made cap b) :
    cap.le (.int 0) = false ∧ b.cap = .number cap := by
  cases hmade with
  | ofExpression policy expression h =>
    obtain ⟨hle, plan, -, rfl⟩ := ofExpression_eq_ok.mp h
    exact ⟨hle, rfl⟩
  | ofPlan plan h =>
    obtain ⟨hle, rfl⟩ := ofPlan_eq_ok.mp h
    exact ⟨hle, rfl⟩

end

theorem positive_of_lt {cap x : Number} (hle : cap.le (.int 0) = false) (hlt : cap.lt x) :
    (Number.int 0).lt cap := by
  rw [Number.lt_eq_not_le (by decide) (Number.ne_nan_of_lt hlt).1, hle]
  rfl

section
variable {b : Backoff} {cap : Number} {retry : Int}

theorem result_secondsFor_of_unanswered {fault : Fault}
    (hwait : (b.plan.waitFor (retry + 1)).result = .error fault) :
    (b.secondsFor retry).result = .error fault :=
  Outcome.result_bind_of_error _ _ _ hwait

theorem result_secondsFor_of_unmeasured {wait : Wait} {fault : Fault}
    (hwait : (b.plan.waitFor (retry + 1)).result = .ok wait)
    (hseconds : wait.seconds? = .error fault) :
    (b.secondsFor retry).result = .error fault := by
  rw [secondsFor, Outcome.result_bind_of_ok _ _ _ hwait, hseconds]
  rfl

/-- A cap below the seconds is a double, or rounds to one, so the note on it can be put into
words. -/
theorem exists_message_capped {rank : Fin Binary64.rankCount} (hmade : Made cap b)
    (hlt : cap.lt (.real (.finite false rank))) :
    ∃ message, (Note.capped (.finite false rank) cap).message = .ok message := by
  obtain ⟨rounded, hrounded⟩ := Number.exists_toReal? (positive_of_lt hmade.cap_eq.1 hlt) hlt
  exact Note.message_capped (.finite false rank) hrounded

theorem result_secondsFor_of_measured {wait : Wait} {rank : Fin Binary64.rankCount}
    (hmade : Made cap b) (hwait : (b.plan.waitFor (retry + 1)).result = .ok wait)
    (hseconds : wait.seconds? = .ok (.finite false rank)) :
    (b.secondsFor retry).result =
      .ok (if cap.lt (.real (.finite false rank)) then cap else .real (.finite false rank)) := by
  rw [secondsFor, Outcome.result_bind_of_ok _ _ _ hwait, hseconds, Outcome.lift_bind_ok,
    hmade.cap_eq.2, exceeded?]
  cases hlt : cap.lt (.real (.finite false rank)) with
  | false => rfl
  | true =>
    obtain ⟨message, hmessage⟩ := exists_message_capped hmade hlt
    -- What is left is the note in front of the cap.
    change (Outcome.leave _ >>= fun _ => pure cap).result = _
    rw [Outcome.leave_bind_pure _ _ _ hmessage]
    rfl

theorem exists_seconds_of_result {r : Number} (hr : (b.secondsFor retry).result = .ok r) :
    ∃ (wait : Wait) (rank : Fin Binary64.rankCount),
      (b.plan.waitFor (retry + 1)).result = .ok wait ∧ wait.seconds? = .ok (.finite false rank) ∧
      (rank.val = 0 → wait.magnitude = 0) := by
  cases hwait : (b.plan.waitFor (retry + 1)).result with
  | error fault => cases hr.symm.trans (result_secondsFor_of_unanswered hwait)
  | ok wait =>
    cases hseconds : wait.seconds? with
    | error fault => cases hr.symm.trans (result_secondsFor_of_unmeasured hwait hseconds)
    | ok seconds =>
      obtain ⟨magnitude, scale, rfl⟩ := Schedule.exists_natural_wait hwait
      obtain ⟨rank, rfl, hzero⟩ := scale.seconds?_eq_ok magnitude hseconds
      refine ⟨_, rank, rfl, hseconds, fun h => ?_⟩
      rw [hzero h, Int.natCast_zero]

theorem exists_measured_of_result {r : Number} (hmade : Made cap b)
    (hr : (b.secondsFor retry).result = .ok r) :
    ∃ (wait : Wait) (rank : Fin Binary64.rankCount),
      (b.plan.waitFor (retry + 1)).result = .ok wait ∧ wait.seconds? = .ok (.finite false rank) ∧
      (rank.val = 0 → wait.magnitude = 0) ∧
      r = if cap.lt (.real (.finite false rank)) then cap else .real (.finite false rank) := by
  obtain ⟨wait, rank, hwait, hseconds, hzero⟩ := exists_seconds_of_result hr
  refine ⟨wait, rank, hwait, hseconds, hzero, ?_⟩
  exact Except.ok.inj (hr.symm.trans (result_secondsFor_of_measured hmade hwait hseconds))

section
variable {magnitude : Nat} {scale : Scale}
  (hwait : (b.plan.waitFor (retry + 1)).result = .ok ⟨magnitude, scale⟩)
include hwait

theorem exists_nearest_secondsFor (hmade : Made cap b)
    (hlt : magnitude * scale.millis < 1000 * Binary64.overflow) :
    ∃ rank : Fin Binary64.rankCount,
      Binary64.IsNearest (magnitude * scale.millis * Binary64.unitsPerOne) 1000 rank ∧
      (b.secondsFor retry).result =
        .ok (if cap.lt (.real (.finite false rank)) then cap else .real (.finite false rank)) := by
  obtain ⟨rank, hseconds, hrank⟩ := scale.seconds?_of_lt magnitude hlt
  refine ⟨rank, ?_, result_secondsFor_of_measured hmade hwait hseconds⟩
  rw [hrank]
  exact Binary64.isNearest_nearestRank _ _ (by decide)

theorem result_secondsFor_of_le (hle : 1000 * Binary64.overflow ≤ magnitude * scale.millis) :
    (b.secondsFor retry).result = .error .secondsRange :=
  result_secondsFor_of_unmeasured hwait (scale.seconds?_of_le magnitude hle)

end
end

def minute : Binary64 := .finite false ⟨0x404e000000000000, by decide⟩

theorem waitFor_everyMinute_third :
    (Schedule.everyMinute.canonical.waitFor 3).result = .ok ⟨1, .minutes⟩ := by
  have hshort := Schedule.short_of_result (Schedule.read_everyMinute ⟨true⟩)
  obtain ⟨wait, hplace, hwait⟩ :=
    Schedule.result_waitFor_of_le hshort (by decide : (1 : Int) ≤ 3) (by decide)
  obtain rfl : ⟨1, .minutes⟩ = wait := Option.some.inj hplace
  exact hwait

theorem everyMinute_third (cap : Number) (hcap : cap.le (.int 0) = false) : ∃ b : Backoff,
    (ofExpression ⟨true⟩ (.number cap) (.text "0/2,1m/2+".toList)).result = .ok b ∧
      (b.secondsFor 2).result = .ok (if cap.lt (.real minute) then cap else .real minute) := by
  have hplan : (Plan.ofArgument ⟨true⟩ (.text "0/2,1m/2+".toList)).result =
      .ok ⟨"0/2,1m/2+".toList, Schedule.everyMinute.canonical⟩ :=
    Schedule.plan_read_of_read (Schedule.read_everyMinute ⟨true⟩)
  have hmade := ofExpression_eq_ok.mpr ⟨hcap, _, hplan, rfl⟩
  have hlt : 1 * Scale.minutes.millis < 1000 * Binary64.overflow := by decide +kernel
  have hminute : Binary64.ofRatio false (1 * Scale.minutes.millis) 1000 = minute := by
    decide +kernel
  have hseconds : Scale.minutes.seconds? (1 : Nat) = .ok minute := by
    rw [Scale.seconds?_natCast, if_pos hlt, hminute]
  exact ⟨_, hmade, result_secondsFor_of_measured (.ofExpression ⟨true⟩ _ hmade)
    waitFor_everyMinute_third hseconds⟩

/-- A cap bounds what is returned, unless it is a NaN: that is not zero or less, so it is accepted,
but nothing is below it. Nothing negative is returned, and zero for a wait of zero only. -/
theorem secondsFor_le_cap (cap : Number) (b : Backoff) (hmade : Made cap b) (retry : Int)
    (r : Number) (hr : (b.secondsFor retry).result = .ok r) :
    (Number.int 0).le r ∧ (r.le cap ↔ cap ≠ .real .nan) ∧
      (r.eq (.int 0) → ∃ wait, (b.plan.waitFor (retry + 1)).result = .ok wait ∧
        wait.magnitude = 0) := by
  obtain ⟨wait, rank, hwait, -, hzero, rfl⟩ := exists_measured_of_result hmade hr
  have hnegative := hmade.cap_eq.1
  cases hlt : cap.lt (.real (.finite false rank)) with
  | true =>
    have hcap := (Number.ne_nan_of_lt hlt).1
    rw [if_pos rfl]
    refine ⟨Number.le_of_lt (positive_of_lt hnegative hlt),
      iff_of_true (Number.le_self hcap) hcap, fun heq => ?_⟩
    rw [Number.eq, hnegative] at heq
    cases heq
  | false =>
    rw [if_neg Bool.false_ne_true]
    refine ⟨Number.zero_le_real rank, ⟨?_, fun hcap => ?_⟩, fun heq => ⟨wait, hwait, hzero ?_⟩⟩
    · rintro hle rfl
      rw [Number.le_nan] at hle
      cases hle
    -- Without a NaN, a cap that is not below the seconds is at or above them.
    · rw [Number.lt_eq_not_le hcap (by simp), Bool.not_eq_false'] at hlt
      exact hlt
    · rw [Number.eq, Bool.and_eq_true] at heq
      exact (Number.real_le_zero_iff rank).mp heq.1

theorem everyMinute_le_cap : ∃ b : Backoff, Made (.int 30) b ∧
    (b.secondsFor 2).result = .ok (.int 30) ∧ (Number.int 0).le (.int 30) ∧
      (Number.int 30).le (.int 30) := by
  obtain ⟨b, hmade, hresult⟩ := everyMinute_third (.int 30) (by decide +kernel)
  have hlt : (Number.int 30).lt (.real minute) := by decide +kernel
  rw [if_pos hlt] at hresult
  have hmade' : Made (.int 30) b := .ofExpression ⟨true⟩ _ hmade
  obtain ⟨hzero, hcap, -⟩ := secondsFor_le_cap (.int 30) b hmade' 2 (.int 30) hresult
  exact ⟨b, hmade', hresult, hzero, hcap.mpr (by simp)⟩

/-- A NaN is accepted, and the minute that is returned is not below it. -/
theorem everyMinute_not_le_nan : ∃ b : Backoff,
    (ofExpression ⟨true⟩ (.number (.real .nan)) (.text "0/2,1m/2+".toList)).result = .ok b ∧
      (b.secondsFor 2).result = .ok (.real minute) ∧
      ¬ (Number.real minute).le (.real .nan) := by
  obtain ⟨b, hmade, hresult⟩ := everyMinute_third (.real .nan) rfl
  refine ⟨b, hmade, hresult, ?_⟩
  rw [Number.le_nan]
  exact Bool.false_ne_true

/-- Which covered retries a capped backoff answers. The wait of the plan is made seconds first, and
that fails exactly where the exact quotient is too large for a double, whatever the cap. Everywhere
else the answer is the nearest double, or the cap if that is lower. -/
theorem secondsFor_of_covered (policy : Policy) (expression : Text) (plan : Plan)
    (hread : (Plan.read policy expression).result = .ok plan) (cap : Number)
    (hpos : (Number.int 0).lt cap) (retry : Nat) (hretry : retry + 1 < 10 ^ Numeral.digitLimit)
    (hcovered : plan.maxAttempts = none ∨
      ∃ covered, plan.maxAttempts = some covered ∧ retry < covered) :
    ∃ (b : Backoff) (magnitude : Nat) (scale : Scale),
      (ofExpression policy (.number cap) (.text expression)).result = .ok b ∧
      ofPlan (.number cap) plan = .ok b ∧
      (plan.waitFor (retry + 1)).result = .ok ⟨magnitude, scale⟩ ∧
      (magnitude * scale.millis < 1000 * Binary64.overflow → ∃ rank : Fin Binary64.rankCount,
        Binary64.IsNearest (magnitude * scale.millis * Binary64.unitsPerOne) 1000 rank ∧
        (b.secondsFor retry).result =
          .ok (if cap.lt (.real (.finite false rank)) then cap else .real (.finite false rank))) ∧
      (1000 * Binary64.overflow ≤ magnitude * scale.millis →
        (b.secondsFor retry).result = .error .secondsRange) ∧
      ((∃ r, (b.secondsFor retry).result = .ok r) ↔
        magnitude * scale.millis < 1000 * Binary64.overflow) := by
  obtain ⟨-, hschedule⟩ := Schedule.plan_of_read hread
  have hshort := Schedule.short_of_result hschedule
  -- A positive number is no NaN, so it is not zero or less and the cap is accepted.
  have hcap : cap.le (.int 0) = false := by
    rw [Number.lt_eq_not_le (by decide) (Number.ne_nan_of_lt hpos).2] at hpos
    simpa using hpos
  have hfirst : (1 : Int) ≤ retry + 1 := by omega
  obtain ⟨wait, hwait⟩ := Schedule.exists_wait_of_covered hshort hfirst
    (by exact_mod_cast hretry) (by simpa [Int.add_one_le_iff] using hcovered)
  obtain ⟨magnitude, scale, rfl⟩ := Schedule.exists_natural_wait hwait
  have hmade : ofPlan (.number cap) plan = .ok ⟨plan, .number cap⟩ :=
    ofPlan_eq_ok.mpr ⟨hcap, rfl⟩
  have hsmall := exists_nearest_secondsFor (b := ⟨plan, .number cap⟩) hwait (.ofPlan plan hmade)
  have hlarge : 1000 * Binary64.overflow ≤ magnitude * scale.millis →
      (secondsFor ⟨plan, .number cap⟩ retry).result = .error .secondsRange :=
    result_secondsFor_of_le hwait
  refine ⟨_, magnitude, scale, ofExpression_eq_ok.mpr ⟨hcap, plan, hread, rfl⟩, hmade, hwait,
    hsmall, hlarge, ?_, ?_⟩
  · rintro ⟨r, hr⟩
    by_contra hlt
    cases hr.symm.trans (hlarge (Nat.not_lt.mp hlt))
  · intro hlt
    obtain ⟨rank, -, hresult⟩ := hsmall hlt
    exact ⟨_, hresult⟩

theorem everyMinute_covered : ∃ (plan : Plan) (b : Backoff),
    (Plan.read ⟨true⟩ "0/2,1m/2+".toList).result = .ok plan ∧ plan.maxAttempts = none ∧
      (Number.int 0).lt (.int 30) ∧
      (ofExpression ⟨true⟩ (.number (.int 30)) (.text "0/2,1m/2+".toList)).result = .ok b ∧
      ∃ r, (b.secondsFor (2 : Nat)).result = .ok r := by
  have hplan := Schedule.plan_read_of_read (Schedule.read_everyMinute ⟨true⟩)
  have hcap : (Number.int 0).lt (.int 30) := by decide +kernel
  have hretry : 2 + 1 < 10 ^ Numeral.digitLimit := by decide +kernel
  obtain ⟨b, magnitude, scale, hmade, -, hwait, -, -, hanswers⟩ :=
    secondsFor_of_covered ⟨true⟩ _ _ hplan (.int 30) hcap 2 hretry (Or.inl rfl)
  cases Except.ok.inj (waitFor_everyMinute_third.symm.trans hwait)
  exact ⟨_, b, hplan, rfl, hcap, hmade, hanswers.mpr (by decide +kernel)⟩

/-- A wait without end that is too long for a double is not answered under a cap of a minute. -/
theorem endless_overflow_unanswered : ∃ (plan : Plan) (b : Backoff),
    (Plan.read ⟨true⟩ (Numeral.ofNat (10 ^ 309) ++ "s+".toList)).result = .ok plan ∧
      plan.maxAttempts = none ∧
      (ofExpression ⟨true⟩ (.number (.int 60))
        (.text (Numeral.ofNat (10 ^ 309) ++ "s+".toList))).result = .ok b ∧
      ¬ ∃ r, (b.secondsFor 0).result = .ok r := by
  have hread := Schedule.read_text_of_short ⟨true⟩
    ⟨[⟨10 ^ 309, .seconds, 1, .unbounded, Nat.one_pos⟩], by decide, by decide⟩
    ⟨by decide +kernel, by decide +kernel⟩
  have htext : Schedule.text
      ⟨[⟨10 ^ 309, .seconds, 1, .unbounded, Nat.one_pos⟩], by decide, by decide⟩ =
      Numeral.ofNat (10 ^ 309) ++ "s+".toList := by
    decide +kernel
  rw [htext] at hread
  have hplan := Schedule.plan_read_of_read hread
  have hcap : (Number.int 60).le (.int 0) = false := by decide +kernel
  obtain ⟨wait, hplace, hwait⟩ := Schedule.result_waitFor_of_le (Schedule.short_of_result hread)
    (by decide : (1 : Int) ≤ 1) (by decide)
  obtain rfl : wait = ⟨(10 ^ 309 : Nat), .seconds⟩ :=
    Option.some.inj (hplace.symm.trans (by decide +kernel))
  have hlarge : 1000 * Binary64.overflow ≤ 10 ^ 309 * Scale.seconds.millis := by decide +kernel
  refine ⟨_, _, hplan, rfl, ofExpression_eq_ok.mpr ⟨hcap, _, hplan, rfl⟩, ?_⟩
  rintro ⟨r, hr⟩
  cases hr.symm.trans (result_secondsFor_of_le hwait hlarge)

end Backoff
end RetrySchedule
