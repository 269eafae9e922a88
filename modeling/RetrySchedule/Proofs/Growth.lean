import Mathlib.Data.List.Pairwise
import RetrySchedule.Proofs.Capping

namespace RetrySchedule

namespace Schedule

/-- No tier has a shorter wait than the one in front of it, whatever their scales. -/
def Growing (s : Schedule) : Prop :=
  s.tiers.IsChain fun a b => a.wait.millis ≤ b.wait.millis

instance (s : Schedule) : Decidable s.Growing :=
  inferInstanceAs (Decidable (s.tiers.IsChain _))

section
variable {s : Schedule} (h : s.Growing)
include h

theorem Growing.pairwise_tiers :
    s.tiers.Pairwise fun a b => a.wait.millis ≤ b.wait.millis :=
  have : IsTrans Tier fun a b => a.wait.millis ≤ b.wait.millis := ⟨fun _ _ _ => Int.le_trans⟩
  List.isChain_iff_pairwise.mp h

theorem Growing.pairwise_waits : (waits s.tiers).Pairwise fun a b => a.millis ≤ b.millis := by
  apply List.pairwise_flatMap.mpr
  constructor
  · intro tier _
    exact List.pairwise_replicate.mpr (Or.inr (Int.le_refl _))
  · apply h.pairwise_tiers.imp
    intro a b hab x hx y hy
    rw [List.eq_of_mem_replicate hx, List.eq_of_mem_replicate hy]
    exact hab

theorem Growing.le_last {wait : Wait} (hwait : wait ∈ waits s.tiers) :
    wait.millis ≤ s.last.wait.millis := by
  have : Std.Refl fun a b : Tier => a.wait.millis ≤ b.wait.millis := ⟨fun _ => Int.le_refl _⟩
  obtain ⟨tier, htier, rfl⟩ := exists_tier_of_mem_waits hwait
  exact h.pairwise_tiers.rel_getLast htier

theorem Growing.answer_mono {early late : Int} (hle : early ≤ late) {wait : Wait}
    (hlate : s.answer late = .ok wait) :
    ∃ other, s.answer early = .ok other ∧ other.millis ≤ wait.millis := by
  have hindex : (early - 1).toNat ≤ (late - 1).toNat := by omega
  cases hplace : (waits s.tiers)[(late - 1).toNat]? with
  | some found =>
    rw [answer, hplace] at hlate
    obtain rfl := Except.ok.inj hlate
    obtain ⟨hlt, rfl⟩ := List.getElem?_eq_some_iff.mp hplace
    refine ⟨_, by rw [answer, List.getElem?_eq_getElem (hindex.trans_lt hlt)], ?_⟩
    rcases Nat.lt_or_eq_of_le hindex with hbefore | heq
    · exact List.pairwise_iff_getElem.mp h.pairwise_waits _ _ _ _ hbefore
    · simp only [heq, Int.le_refl]
  -- Past the list of waits it is an open end that answers, and the end has the longest wait.
  | none =>
    rw [answer, hplace] at hlate
    cases hend : s.hasOpenEnd with
    | false =>
      rw [hend] at hlate
      cases hlate
    | true =>
      rw [hend] at hlate
      obtain rfl := Except.ok.inj hlate
      rw [s.answer_of_open early hend]
      refine ⟨_, rfl, ?_⟩
      cases hfound : (waits s.tiers)[(early - 1).toNat]? with
      | some found => exact h.le_last (List.mem_of_getElem? hfound)
      | none => exact Int.le_refl _

theorem Growing.waitFor_mono (hshort : s.Short) {early late : Int} (hpos : 1 ≤ early)
    (hle : early ≤ late) {wait : Wait} (hlate : (s.waitFor late).result = .ok wait) :
    ∃ other, (s.waitFor early).result = .ok other ∧ other.millis ≤ wait.millis := by
  have hlimit : late < (10 ^ Numeral.digitLimit : Nat) := by
    by_contra hlong
    cases hlate.symm.trans (result_waitFor_of_long hshort (Int.not_lt.mp hlong))
  rw [result_waitFor_eq_answer s late hshort (by omega) hlimit] at hlate
  rw [result_waitFor_eq_answer s early hshort hpos (by omega)]
  exact h.answer_mono hle hlate

end
end Schedule

namespace Backoff

theorem capped_le_capped (cap : Argument) {less more : Fin Binary64.rankCount}
    (hle : less ≤ more) :
    (capped cap (.finite false less)).le (capped cap (.finite false more)) := by
  have hreal := Number.real_le_real hle
  unfold capped
  cases cap with
  | number bound =>
    change Number.le (if _ then _ else _) (if _ then _ else _)
    split_ifs with hless hmore hmore
    · exact Number.le_self (Number.ne_nan_of_lt hless).1
    · exact absurd (Number.lt_of_lt_of_le hless hreal) hmore
    · rw [Bool.not_eq_true, Number.lt_eq_not_le (Number.ne_nan_of_lt hmore).1 (by simp),
        Bool.not_eq_false'] at hless
      exact hless
    · exact hreal
  | _ => exact hreal

/-- A growing schedule gives a growing backoff, whatever the cap. If a retry is answered, so is
every one in front of it, with no more seconds than it; in particular the budget is not exhausted
for any of them. -/
theorem secondsFor_mono (policy : Policy) (expression : Text) (plan : Plan)
    (hread : (Plan.read policy expression).result = .ok plan) (hgrowing : plan.schedule.Growing)
    (cap : Argument) (b : Backoff)
    (hmade : (ofExpression policy cap (.text expression)).result = .ok b ∨ ofPlan cap plan = .ok b)
    (early late : Int) (hpos : 0 ≤ early) (hle : early ≤ late) (more : Number)
    (hlate : (b.secondsFor late).result = .ok more) :
    ∃ less, (b.secondsFor early).result = .ok less ∧ less.le more := by
  have hplan := ofPlan_of_made hread hmade
  obtain ⟨wait, rank, hwait, hseconds, -⟩ := exists_seconds_of_result hlate
  rw [(made_of_ofPlan hplan).1] at hwait
  have hshort := Schedule.short_of_result (Schedule.plan_of_read hread).2
  have hfirst : 1 ≤ early + 1 := by omega
  obtain ⟨other, hother, hmillis⟩ := hgrowing.waitFor_mono hshort hfirst (by omega) hwait
  obtain ⟨magnitude, scale, rfl⟩ := Schedule.exists_natural_wait hwait
  obtain ⟨smaller, finer, rfl⟩ := Schedule.exists_natural_wait hother
  rw [Wait.millis_natCast, Wait.millis_natCast, Int.ofNat_le] at hmillis
  obtain ⟨lower, hlower, hrank⟩ := Scale.seconds?_mono hmillis hseconds
  have hmore := result_secondsFor_of_seconds hplan hwait hseconds
  obtain rfl := Except.ok.inj (hlate.symm.trans hmore)
  exact ⟨_, result_secondsFor_of_seconds hplan hother hlower, capped_le_capped cap hrank⟩

theorem everyMinute_growing : ∃ (plan : Plan) (b : Backoff),
    (Plan.read ⟨true⟩ "0/2,1m/2+".toList).result = .ok plan ∧ plan.schedule.Growing ∧
      (ofExpression ⟨true⟩ (.number (.int 30)) (.text "0/2,1m/2+".toList)).result = .ok b ∧
      (∃ more, (b.secondsFor 2).result = .ok more) ∧
      ∃ less, (b.secondsFor 0).result = .ok less ∧ less.le (.int 30) := by
  have hplan := Schedule.plan_read_of_read (Schedule.read_everyMinute ⟨true⟩)
  have hgrowing : Schedule.everyMinute.canonical.Growing := by decide
  have hlt : (Number.int 30).lt (.real minute) := by decide +kernel
  obtain ⟨b, hmade, hlate⟩ := everyMinute_third (.int 30) (by decide +kernel)
  rw [if_pos hlt] at hlate
  exact ⟨_, b, hplan, hgrowing, hmade, ⟨_, hlate⟩,
    secondsFor_mono ⟨true⟩ _ _ hplan hgrowing (.number (.int 30)) b (Or.inl hmade) 0 2 (by decide)
      (by decide) _ hlate⟩

end Backoff
end RetrySchedule
