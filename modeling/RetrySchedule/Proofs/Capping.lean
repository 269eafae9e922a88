import RetrySchedule.Proofs.Backoff

namespace RetrySchedule.Backoff

/-- Seconds under a cap: the cap itself, if there is one and they are above it. -/
def capped (cap : Argument) (seconds : Binary64) : Number :=
  match cap with
  | .number bound => if bound.lt (.real seconds) then bound else .real seconds
  | _ => .real seconds

section
variable {plan : Plan} {cap : Argument} {b : Backoff}

theorem ofPlan_of_made {policy : Policy} {expression : Text}
    (hread : (Plan.read policy expression).result = .ok plan)
    (hmade : (ofExpression policy cap (.text expression)).result = .ok b ∨
      ofPlan cap plan = .ok b) : ofPlan cap plan = .ok b := by
  rcases hmade with hmade | hmade
  · rw [ofExpression] at hmade
    rw [ofPlan]
    cases hcap : checkCap cap with
    | error fault =>
      rw [hcap] at hmade
      cases hmade
    | ok _ =>
      rw [hcap, Outcome.lift_bind_ok, Plan.ofArgument,
        Outcome.result_bind_of_ok _ _ _ hread] at hmade
      exact hmade
  · exact hmade

theorem made_of_ofPlan (h : ofPlan cap plan = .ok b) :
    b = ⟨plan, cap⟩ ∧ (cap = .none ∨ ∃ bound, cap = .number bound ∧ Made bound b) := by
  cases cap with
  | none => exact ⟨(Except.ok.inj h).symm, Or.inl rfl⟩
  | number bound => exact ⟨(ofPlan_eq_ok.mp h).2, Or.inr ⟨bound, rfl, .ofPlan plan h⟩⟩
  | _ => cases h

theorem result_secondsFor_of_seconds {retry : Int} {wait : Wait} {rank : Fin Binary64.rankCount}
    (hmade : ofPlan cap plan = .ok b) (hwait : (plan.waitFor (retry + 1)).result = .ok wait)
    (hseconds : wait.seconds? = .ok (.finite false rank)) :
    (b.secondsFor retry).result = .ok (capped cap (.finite false rank)) := by
  obtain ⟨rfl, rfl | ⟨bound, rfl, hbound⟩⟩ := made_of_ofPlan hmade
  · rw [secondsFor, Outcome.result_bind_of_ok _ _ _ hwait, hseconds]
    rfl
  · exact result_secondsFor_of_measured hbound hwait hseconds

theorem exists_message_of_tier {bound : Number} {tier : Tier} {seconds : Binary64}
    (hmade : ofPlan cap plan = .ok b) (hcap : cap = .number bound)
    (hseconds : tier.wait.seconds? = .ok seconds) (hlt : bound.lt (.real seconds)) :
    ∃ message, (Note.capped seconds bound).message = .ok message := by
  obtain ⟨rank, rfl, -⟩ := tier.scale.seconds?_eq_ok tier.magnitude hseconds
  obtain ⟨-, rfl | ⟨other, rfl, hbound⟩⟩ := made_of_ofPlan hmade
  · cases hcap
  · obtain rfl := Argument.number.inj hcap
    exact exists_message_capped hbound hlt

end

/-- Which retries a backoff answers, and how. The waits of the plan being ones that can be made
seconds, exactly the retries that the plan covers are answered, with the seconds of their wait under
the cap; those in front of the first and those behind the last get the fault of the plan. Where the
cap takes the place of the seconds, the note on it can be put into words. -/
theorem secondsFor_iff_covered (policy : Policy) (expression : Text) (plan : Plan)
    (hread : (Plan.read policy expression).result = .ok plan)
    (hmeasured : ∀ tier ∈ plan.schedule.tiers, ∃ seconds, tier.wait.seconds? = .ok seconds)
    (cap : Argument) (b : Backoff)
    (hmade : (ofExpression policy cap (.text expression)).result = .ok b ∨ ofPlan cap plan = .ok b)
    (retry : Int) (hretry : retry.natAbs + 1 < 10 ^ Numeral.digitLimit) :
    ((∃ r, (b.secondsFor retry).result = .ok r) ↔
      0 ≤ retry ∧ (plan.maxAttempts = none ∨
        ∃ covered : Nat, plan.maxAttempts = some covered ∧ retry < covered)) ∧
    (∀ r, (b.secondsFor retry).result = .ok r → ∃ wait seconds,
      (plan.waitFor (retry + 1)).result = .ok wait ∧ wait.seconds? = .ok seconds ∧
        r = capped cap seconds) ∧
    (retry < 0 → (b.secondsFor retry).result = .error (.attemptBelowOne (retry + 1))) ∧
    (∀ covered : Nat, plan.maxAttempts = some covered → covered ≤ retry →
      (b.secondsFor retry).result = .error (.exhausted (.int covered) (retry + 1))) ∧
    ∀ bound, cap = .number bound → ∀ tier ∈ plan.schedule.tiers, ∀ seconds,
      tier.wait.seconds? = .ok seconds → bound.lt (.real seconds) →
        ∃ message, (Note.capped seconds bound).message = .ok message := by
  have hplan := ofPlan_of_made hread hmade
  have hshort := Schedule.short_of_result (Schedule.plan_of_read hread).2
  have hanswers : Schedule.Answers plan (retry + 1) _ := Schedule.waitFor_answers hshort (by omega)
  have hfault : ∀ fault, (plan.waitFor (retry + 1)).result = .error fault →
      (b.secondsFor retry).result = .error fault := by
    intro fault hwait
    rw [(made_of_ofPlan hplan).1]
    exact result_secondsFor_of_unanswered hwait
  have hnote : ∀ bound, cap = .number bound → ∀ tier ∈ plan.schedule.tiers, ∀ seconds,
      tier.wait.seconds? = .ok seconds → bound.lt (.real seconds) →
        ∃ message, (Note.capped seconds bound).message = .ok message :=
    fun bound hcap tier _ seconds => exists_message_of_tier hplan hcap
  -- Whether there is an answer is decided by the plan alone, so its answers are the cases.
  generalize hwait : (plan.waitFor (retry + 1)).result = answer at hanswers
  cases hanswers with
  | early hearly =>
    rw [hfault _ hwait]
    exact ⟨iff_of_false nofun (by omega), nofun, fun _ => rfl, fun covered _ hle => by omega, hnote⟩
  | served hpos hcovered tier htier =>
    obtain ⟨seconds, hseconds⟩ := hmeasured tier htier
    obtain ⟨rank, rfl, -⟩ := tier.scale.seconds?_eq_ok tier.magnitude hseconds
    have hresult := result_secondsFor_of_seconds hplan hwait hseconds
    rw [hresult]
    refine ⟨iff_of_true ⟨_, rfl⟩ ⟨by omega, ?_⟩, ?_, fun _ => by omega, fun covered hmax hle => ?_,
      hnote⟩
    · exact hcovered.imp_right fun ⟨covered, hmax, hle⟩ => ⟨covered, hmax, by omega⟩
    · rintro r ⟨⟩
      exact ⟨_, _, rfl, hseconds, rfl⟩
    · have hreach : retry + 1 ≤ covered := by simpa [hmax] using hcovered
      omega
  | late covered hmax hlt =>
    rw [hfault _ hwait]
    refine ⟨iff_of_false nofun ?_, nofun, fun _ => by omega, fun other hother _ => ?_, hnote⟩
    · rintro ⟨-, hcovered⟩
      have hreach : retry < covered := by simpa [hmax] using hcovered
      omega
    · cases hmax.symm.trans hother
      rfl

theorem everyMinute_capped : ∃ (plan : Plan) (b : Backoff),
    (Plan.read ⟨true⟩ "0/2,1m/2+".toList).result = .ok plan ∧
      (∀ tier ∈ plan.schedule.tiers, ∃ seconds, tier.wait.seconds? = .ok seconds) ∧
      ofPlan (.number (.int 30)) plan = .ok b ∧
      (2 : Int).natAbs + 1 < 10 ^ Numeral.digitLimit ∧ ∃ r, (b.secondsFor 2).result = .ok r := by
  have hplan := Schedule.plan_read_of_read (Schedule.read_everyMinute ⟨true⟩)
  have hmeasured : ∀ tier ∈ Schedule.everyMinute.canonical.tiers,
      ∃ seconds, tier.wait.seconds? = .ok seconds := by
    have hlt : ∀ tier ∈ Schedule.everyMinute.canonical.tiers,
        tier.magnitude * tier.scale.millis < 1000 * Binary64.overflow := by
      decide +kernel
    intro tier htier
    obtain ⟨rank, hseconds, -⟩ := tier.scale.seconds?_of_lt tier.magnitude (hlt tier htier)
    exact ⟨_, hseconds⟩
  have hcap : (Number.int 30).le (.int 0) = false := by decide +kernel
  have hmade : ofPlan (.number (.int 30)) ⟨"0/2,1m/2+".toList, Schedule.everyMinute.canonical⟩ =
      .ok ⟨⟨"0/2,1m/2+".toList, Schedule.everyMinute.canonical⟩, .number (.int 30)⟩ :=
    ofPlan_eq_ok.mpr ⟨hcap, rfl⟩
  have hretry : (2 : Int).natAbs + 1 < 10 ^ Numeral.digitLimit := by decide +kernel
  obtain ⟨hanswered, -⟩ := secondsFor_iff_covered ⟨true⟩ _ _ hplan hmeasured (.number (.int 30)) _
    (Or.inr hmade) 2 hretry
  exact ⟨_, _, hplan, hmeasured, hmade, hretry, hanswered.mpr ⟨by decide, Or.inl rfl⟩⟩

end RetrySchedule.Backoff
