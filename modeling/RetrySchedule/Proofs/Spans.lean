import RetrySchedule.Proofs.Capping
import RetrySchedule.Proofs.Micros

namespace RetrySchedule

namespace Span
open Binary64

/-- Two ways end in the same span, or both are refused because it would be too long. -/
inductive Agree : Except Fault Span → Except Fault Span → Prop
  | made (span : Span) : Agree (.ok span) (.ok span)
  | refused {fault other : Fault} (h : fault.isOverflow) (hother : other.isOverflow) :
      Agree (.error fault) (.error other)

theorem exists_ofMicros_of_lt {total : Nat} (h : total < (maxDays + 1) * microsPerDay) :
    ∃ span, ofMicros total = .ok span := by
  have hdays : total / microsPerDay ≤ maxDays :=
    Nat.le_of_lt_succ ((Nat.div_lt_iff_lt_mul (by decide)).mpr h)
  rw [exists_ofMicros_iff, ← Int.natCast_ediv, Int.natAbs_natCast]
  exact hdays

theorem ofMicros_of_le {seconds total : Nat} (h : 2 ^ 53 ≤ seconds)
    (htotal : microsPerSecond * seconds ≤ total) : ofMicros total = .error .spanWidth := by
  have hlong : dayWidth * microsPerDay ≤ microsPerSecond * 2 ^ 53 := by decide
  have hle : dayWidth * microsPerDay ≤ total :=
    hlong.trans ((Nat.mul_le_mul_left _ h).trans htotal)
  have hwidth : (total / microsPerDay : Int) < -(dayWidth : Int) ∨
      (dayWidth : Int) ≤ total / microsPerDay := by
    right
    apply Int.le_ediv_of_mul_le (by decide)
    exact_mod_cast hle
  unfold ofMicros
  simp only [Bool.or_eq_true, decide_eq_true_eq, if_pos hwidth]

theorem agree_ofMicros (total : Int) : Agree (ofMicros total) (ofMicros total) := by
  cases h : ofMicros total with
  | ok span => exact .made span
  | error fault => exact .refused (isOverflow_of_ofMicros h) (isOverflow_of_ofMicros h)

/-- Doubles below `2 ^ 20` are at most the `2 ^ 33`-th part of one apart. This step is a number of
units. -/
theorem exists_unitsPerOne_eq : ∃ k, unitsPerOne = 2 ^ 33 * 2 ^ k :=
  ⟨1041, by decide +kernel⟩

/-- Units within half a microsecond of a whole number of them, less half a step, are rounded to it:
the rounding of the product takes up this half step at most. -/
theorem microsOfUnits_eq_of_near {k units micros : Nat} (hk : unitsPerOne = 2 ^ 33 * 2 ^ k)
    (hbelow : 2 * (micros * unitsPerOne) + 2 ^ k < 2 * (microsPerSecond * units) + unitsPerOne)
    (habove : 2 * (microsPerSecond * units) + 2 ^ k < 2 * (micros * unitsPerOne) + unitsPerOne) :
    microsOfUnits microsPerSecond units = micros := by
  have hunits := Nat.div_add_mod units unitsPerOne
  have hfraction := Nat.mod_lt units unitsPerOne_pos
  unfold microsOfUnits
  simp only
  generalize units / unitsPerOne = whole at *
  generalize units % unitsPerOne = fraction at *
  have hlt : microsPerSecond * fraction < 1 * 2 ^ (53 + k) := by
    rw [Nat.pow_add]
    unfold microsPerSecond
    omega
  -- Only the product of the fraction is rounded to a double; its error is half a step at most.
  obtain ⟨hmore, hless⟩ := nearestRank_error (microsPerSecond * fraction) 1 Nat.one_pos hlt
  have hsplit : microsPerSecond * units =
      whole * microsPerSecond * unitsPerOne + microsPerSecond * fraction := by
    rw [← hunits]
    ring
  apply divEven_eq_of_lt
  · have hexpand : unitsPerOne * (2 * micros) = 2 * (micros * unitsPerOne) := by ring
    omega
  · have hexpand : unitsPerOne * (2 * micros + 1) = 2 * (micros * unitsPerOne) + unitsPerOne := by
      ring
    omega

/-- Seconds below `2 ^ 33` are rounded by too little to lose a millisecond. -/
theorem microsOfUnits_nearestRank {millis : Nat} (h : millis < 2 ^ 33 * 1000) :
    microsOfUnits microsPerSecond (unitsOfRank (nearestRank (millis * unitsPerOne) 1000)) =
      1000 * millis := by
  obtain ⟨k, hk⟩ := exists_unitsPerOne_eq
  have hscale : 2 ^ (13 + k) = 2 ^ 13 * 2 ^ k := Nat.pow_add ..
  have hlt : millis * unitsPerOne < 1000 * 2 ^ (53 + (13 + k)) := by
    calc millis * unitsPerOne
        < 2 ^ 33 * 1000 * unitsPerOne := Nat.mul_lt_mul_of_pos_right h unitsPerOne_pos
      _ = 1000 * 2 ^ (53 + (13 + k)) := by
        rw [hk]
        ring
  obtain ⟨hmore, hless⟩ := nearestRank_error (millis * unitsPerOne) 1000 (by decide) hlt
  have hexpand : 1000 * millis * unitsPerOne = 1000 * (millis * unitsPerOne) := Nat.mul_assoc ..
  have hpos := Nat.two_pow_pos k
  -- A million of the steps between these seconds, `2 ^ 13` each, are less than the `2 ^ 33` of one.
  apply microsOfUnits_eq_of_near hk <;> unfold microsPerSecond <;> omega

/-- A millisecond behind the limit is rounded to a microsecond less. -/
example : microsOfUnits microsPerSecond
    (unitsOfRank (nearestRank ((2 ^ 33 * 1000 + 1) * unitsPerOne) 1000)) =
      2 ^ 33 * 1000000 + 999 := by
  decide +kernel

theorem microsOfUnits_mul (factor whole : Nat) :
    microsOfUnits factor (whole * unitsPerOne) = factor * whole := by
  have hzero : unitsOfRank (nearestRank 0 1) = 0 := by decide
  unfold microsOfUnits
  simp only [Nat.mul_div_cancel whole unitsPerOne_pos, Nat.mul_mod_left, Nat.mul_zero, hzero,
    Nat.add_zero]
  rw [Nat.mul_comm _ unitsPerOne, divEven_mul _ _ unitsPerOne_pos, Nat.mul_comm]

theorem le_microsOfUnits {whole units : Nat} (factor : Nat) (h : whole * unitsPerOne ≤ units) :
    factor * whole ≤ microsOfUnits factor units := by
  have hwhole : whole ≤ units / unitsPerOne := (Nat.le_div_iff_mul_le unitsPerOne_pos).mpr h
  unfold microsOfUnits
  apply le_divEven_of_le unitsPerOne_pos
  calc unitsPerOne * (factor * whole)
      ≤ unitsPerOne * (factor * (units / unitsPerOne)) :=
        Nat.mul_le_mul_left _ (Nat.mul_le_mul_left _ hwhole)
    _ = units / unitsPerOne * factor * unitsPerOne := by ring
    _ ≤ _ := Nat.le_add_right _ _

end Span

theorem Wait.span_natCast (magnitude : Nat) (scale : Scale) :
    Wait.span ⟨magnitude, scale⟩ = Span.ofMicros (1000 * (magnitude * scale.millis) : Nat) := by
  rw [span_eq, millis_natCast, Int.natCast_mul]
  rfl

namespace Backoff
open Binary64

section
variable {plan : Plan} {b : Backoff} {retry : Int} {magnitude : Nat} {scale : Scale}
  (hmade : ofPlan .none plan = .ok b)
  (hwait : (plan.waitFor (retry + 1)).result = .ok ⟨magnitude, scale⟩)
include hmade hwait

theorem result_spanFor_of_lt (hlt : magnitude * scale.millis < 1000 * overflow) :
    (b.spanFor retry).result = Span.ofMicros (Span.microsOfUnits Span.microsPerSecond
      (unitsOfRank (nearestRank (magnitude * scale.millis * unitsPerOne) 1000)) : Nat) := by
  obtain ⟨rank, hseconds, hrank⟩ := scale.seconds?_of_lt magnitude hlt
  have hresult := result_secondsFor_of_seconds hmade hwait hseconds
  rw [spanFor, Outcome.result_bind_of_ok _ _ _ hresult, ← hrank]
  rfl

theorem result_spanFor_of_le (hle : 1000 * overflow ≤ magnitude * scale.millis) :
    (b.spanFor retry).result = .error .secondsRange := by
  rw [(made_of_ofPlan hmade).1]
  exact Outcome.result_bind_of_error _ _ _
    (result_secondsFor_of_unmeasured hwait (scale.seconds?_of_le magnitude hle))

theorem exists_span_of_lt (hlt : magnitude * scale.millis < 2 ^ 33 * 1000) :
    ∃ span, (b.spanFor retry).result = .ok span ∧ Wait.span ⟨magnitude, scale⟩ = .ok span := by
  have hoverflow : 2 ^ 33 * 1000 < 1000 * overflow := by decide +kernel
  have hdays : 1000 * (2 ^ 33 * 1000) < (Span.maxDays + 1) * Span.microsPerDay := by decide
  obtain ⟨span, hspan⟩ := Span.exists_ofMicros_of_lt
    (Nat.lt_trans (Nat.mul_lt_mul_of_pos_left hlt (by decide : 0 < 1000)) hdays)
  rw [result_spanFor_of_lt hmade hwait (hlt.trans hoverflow), Span.microsOfUnits_nearestRank hlt,
    Wait.span_natCast]
  exact ⟨span, hspan, hspan⟩

theorem exists_overflow_of_le {whole : Nat} (h : magnitude * scale.millis = 1000 * whole)
    (hle : 2 ^ 53 ≤ whole) :
    ∃ fault, (b.spanFor retry).result = .error fault ∧ fault.isOverflow := by
  rcases Nat.lt_or_ge (magnitude * scale.millis) (1000 * overflow) with hlt | hlarge
  · have hunits : 2 ^ 53 * unitsPerOne ≤
        unitsOfRank (nearestRank (magnitude * scale.millis * unitsPerOne) 1000) := by
      rw [← unitsOfRank_nearestRank_whole (by decide : 0 < 1000) (Nat.le_refl _), h]
      apply unitsOfRank_strictMono.monotone
      apply nearestRank_mono _ _ (by decide)
      exact Nat.mul_le_mul_right _ (Nat.mul_le_mul_left _ hle)
    rw [result_spanFor_of_lt hmade hwait hlt,
      Span.ofMicros_of_le (Nat.le_refl _) (Span.le_microsOfUnits _ hunits)]
    exact ⟨_, rfl, rfl⟩
  · exact ⟨_, result_spanFor_of_le hmade hwait hlarge, rfl⟩

theorem agree_of_whole {whole : Nat} (h : magnitude * scale.millis = 1000 * whole) :
    Span.Agree (b.spanFor retry).result (Wait.span ⟨magnitude, scale⟩) := by
  have hmicros : 1000 * (1000 * whole) = Span.microsPerSecond * whole := by
    rw [← Nat.mul_assoc]
    rfl
  rw [Wait.span_natCast, h, hmicros]
  rcases Nat.lt_or_ge whole (2 ^ 53) with hlt | hle
  · have hoverflow : 2 ^ 53 < overflow := by decide +kernel
    rw [result_spanFor_of_lt hmade hwait (by omega), h,
      unitsOfRank_nearestRank_whole (by decide) hlt.le, Span.microsOfUnits_mul]
    exact Span.agree_ofMicros _
  · obtain ⟨fault, hfault, hoverflow⟩ := exists_overflow_of_le hmade hwait h hle
    rw [hfault, Span.ofMicros_of_le hle (Nat.le_refl _)]
    exact .refused hoverflow rfl

end

/-- Without a cap a backoff gives the span of the wait, although it comes to it by way of a double
and rounds three times: for every wait shorter than `2 ^ 33` seconds, where doubles are less than a
microsecond apart and the last rounding makes up for the other two, and for every whole number of
seconds, of which both ways refuse the same ones. -/
theorem spanFor_eq_span (policy : Policy) (expression : Text) (plan : Plan)
    (hread : (Plan.read policy expression).result = .ok plan) (b : Backoff)
    (hmade : (ofExpression policy .none (.text expression)).result = .ok b ∨
      ofPlan .none plan = .ok b)
    (retry : Nat) (hretry : retry + 1 < 10 ^ Numeral.digitLimit)
    (hcovered : plan.maxAttempts = none ∨
      ∃ covered, plan.maxAttempts = some covered ∧ retry < covered) :
    ∃ wait, (plan.waitFor (retry + 1)).result = .ok wait ∧
      (wait.millis < 2 ^ 33 * 1000 →
        ∃ span, (b.spanFor retry).result = .ok span ∧ wait.span = .ok span) ∧
      (1000 ∣ wait.millis → Span.Agree (b.spanFor retry).result wait.span) := by
  have hplan := ofPlan_of_made hread hmade
  have hshort := Schedule.short_of_result (Schedule.plan_of_read hread).2
  have hfirst : (1 : Int) ≤ retry + 1 := by omega
  obtain ⟨wait, hwait⟩ := Schedule.exists_wait_of_covered hshort hfirst
    (by exact_mod_cast hretry) (by simpa [Int.add_one_le_iff] using hcovered)
  obtain ⟨magnitude, scale, rfl⟩ := Schedule.exists_natural_wait hwait
  refine ⟨_, hwait, fun hlt => ?_, fun hdvd => ?_⟩
  · rw [Wait.millis_natCast] at hlt
    exact exists_span_of_lt hplan hwait (by exact_mod_cast hlt)
  · rw [Wait.millis_natCast] at hdvd
    obtain ⟨whole, hwhole⟩ : 1000 ∣ magnitude * scale.millis := by exact_mod_cast hdvd
    exact agree_of_whole hplan hwait hwhole

theorem everyMinute_span : ∃ (plan : Plan) (b : Backoff) (span : Span),
    (Plan.read ⟨true⟩ "0/2,1m/2+".toList).result = .ok plan ∧ ofPlan .none plan = .ok b ∧
      2 + 1 < 10 ^ Numeral.digitLimit ∧ plan.maxAttempts = none ∧
      (b.spanFor (2 : Nat)).result = .ok span ∧ Wait.span ⟨1, .minutes⟩ = .ok span := by
  have hplan := Schedule.plan_read_of_read (Schedule.read_everyMinute ⟨true⟩)
  have hretry : 2 + 1 < 10 ^ Numeral.digitLimit := by decide +kernel
  obtain ⟨wait, hwait, hshort, -⟩ :=
    spanFor_eq_span ⟨true⟩ _ _ hplan _ (Or.inr rfl) 2 hretry (Or.inl rfl)
  obtain rfl := Except.ok.inj (waitFor_everyMinute_third.symm.trans hwait)
  obtain ⟨span, hspan, hexact⟩ := hshort (by decide)
  exact ⟨_, _, span, hplan, rfl, hretry, rfl, hspan, hexact⟩

end Backoff
end RetrySchedule
