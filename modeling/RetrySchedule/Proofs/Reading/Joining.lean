import RetrySchedule.Proofs.Reading.Lenience
import RetrySchedule.Proofs.Reading.RoundTrip
import RetrySchedule.Proofs.Waits

namespace RetrySchedule.Schedule
open Term

/-- The tiers of the terms are those of the two expressions, because the first one ends closed and
its last term keeps its meaning in front of others. -/
theorem tiers_of_joined {policy : Policy} {first second : Text} {s t joined : Schedule}
    (hs : (read policy first).result = .ok s) (ht : (read policy second).result = .ok t)
    (hjoined : (read policy (first ++ separator :: second)).result = .ok joined)
    (hend : s.hasOpenEnd = false) : joined.tiers = s.tiers ++ t.tiers := by
  obtain ⟨firsts, hfirsts, rfl⟩ := exists_trees_of_read hs
  obtain ⟨seconds, hseconds, rfl⟩ := exists_trees_of_read ht
  obtain ⟨trees, htrees, rfl⟩ := exists_trees_of_read hjoined
  have hterms : terms (first ++ separator :: second) = (firsts ++ seconds).map Tree.text := by
    rw [terms_append_separator, hfirsts.spelled, hseconds.spelled, List.map_append]
  obtain rfl := eq_of_spelled hterms htrees.spelled
  apply mapLast_append _ _ _ hseconds.ne_nil
  intro tree htree
  obtain ⟨before, rfl⟩ := List.getLast?_eq_some_iff.mp htree
  rw [hasOpenEnd_ofTrees] at hend
  simp only [Tree.tier, hend, Bool.false_and]

/-- The waits of two joined expressions are those of the first, and then those of the second. The
joined budget is exhausted exactly when that of the second expression is. -/
theorem waitFor_joined (policy : Policy) (first second : Text) (a b joined : Plan)
    (ha : (Plan.read policy first).result = .ok a) (hb : (Plan.read policy second).result = .ok b)
    (hjoined : (Plan.read policy (first ++ separator :: second)).result = .ok joined)
    (covered : Nat) (hcovered : a.maxAttempts = some covered) :
    joined.schedule.tiers = a.schedule.tiers ++ b.schedule.tiers ∧
    joined.maxAttempts = b.maxAttempts.map (covered + ·) ∧
    ∀ attempt : Int, 1 ≤ attempt → attempt < (10 ^ Numeral.digitLimit : Nat) →
      (attempt ≤ covered → ∃ wait, (joined.waitFor attempt).result = .ok wait ∧
        (a.waitFor attempt).result = .ok wait) ∧
      (covered < attempt →
        (∃ wait, (joined.waitFor attempt).result = .ok wait ∧
          (b.waitFor (attempt - covered)).result = .ok wait) ∨
        ∃ others, b.maxAttempts = some others ∧
          (joined.waitFor attempt).result =
            .error (.exhausted (.int (covered + others)) attempt) ∧
          (b.waitFor (attempt - covered)).result =
            .error (.exhausted (.int others) (attempt - covered))) := by
  obtain ⟨-, hs⟩ := plan_of_read ha
  obtain ⟨-, ht⟩ := plan_of_read hb
  obtain ⟨-, hu⟩ := plan_of_read hjoined
  obtain ⟨hend, rfl⟩ : a.schedule.hasOpenEnd = false ∧ a.schedule.budget = covered := by
    simpa [Plan.maxAttempts] using hcovered
  have htiers := tiers_of_joined hs ht hu hend
  have hbudget := budget_of_append htiers
  refine ⟨htiers, ?_, ?_⟩
  · simp only [Plan.maxAttempts, hasOpenEnd_of_append htiers, hbudget]
    cases b.schedule.hasOpenEnd <;> rfl
  · intro attempt hpos hlimit
    unfold Plan.waitFor
    rw [result_waitFor_eq_answer _ attempt (short_of_result hu) hpos hlimit,
      result_waitFor_eq_answer _ attempt (short_of_result hs) hpos hlimit]
    refine ⟨fun hle => ?_, fun hlt => ?_⟩
    · obtain ⟨wait, -, hwait⟩ := a.schedule.answer_of_le attempt hpos hle
      exact ⟨wait, by rw [answer_of_append_left htiers hpos hle, hwait], hwait⟩
    · rw [result_waitFor_eq_answer _ _ (short_of_result ht) (by omega) (by omega)]
      rcases answer_of_append_right htiers hlt with hwait | ⟨hclosed, hfault, hother⟩
      · exact Or.inl hwait
      · refine Or.inr ⟨b.schedule.budget, ?_, ?_, hother⟩
        · rw [Plan.maxAttempts, hclosed]
          rfl
        · rw [hfault, hbudget]
          rfl

theorem everyMinute_joined : ∃ a b joined : Plan,
    (Plan.read ⟨true⟩ "0/2".toList).result = .ok a ∧
    (Plan.read ⟨true⟩ "1m/2+".toList).result = .ok b ∧
    (Plan.read ⟨true⟩ "0/2,1m/2+".toList).result = .ok joined ∧
    a.maxAttempts = some 2 ∧ joined.maxAttempts = none ∧
    ∃ wait, (joined.waitFor 9).result = .ok wait ∧ (b.waitFor 7).result = .ok wait := by
  have ha := plan_read_of_read (read_text_of_short ⟨true⟩
    ⟨[⟨0, .seconds, 2, .bounded, Nat.two_pos⟩], by decide, by decide⟩
    ⟨by decide +kernel, by decide +kernel⟩)
  have hb := plan_read_of_read (read_text_of_short ⟨true⟩
    ⟨[⟨1, .minutes, 2, .unbounded, Nat.two_pos⟩], by decide, by decide⟩
    ⟨by decide +kernel, by decide +kernel⟩)
  have hjoined := plan_read_of_read (read_text_of_short ⟨true⟩ everyMinute
    ⟨by decide +kernel, by decide +kernel⟩)
  obtain ⟨-, hmax, hwaits⟩ := waitFor_joined ⟨true⟩ "0/2".toList "1m/2+".toList _ _ _ ha hb hjoined
    2 rfl
  have hlimit : (9 : Int) < (10 ^ Numeral.digitLimit : Nat) := by decide +kernel
  refine ⟨_, _, _, ha, hb, hjoined, rfl, hmax, ?_⟩
  rcases (hwaits 9 (by decide) hlimit).2 (by decide) with hwait | ⟨others, hothers, -⟩
  · exact hwait
  · cases hothers

end RetrySchedule.Schedule
