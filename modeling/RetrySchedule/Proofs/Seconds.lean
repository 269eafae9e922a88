import RetrySchedule.Proofs.Binary64.Rounding
import RetrySchedule.Wait

namespace RetrySchedule

def Wait.millis (wait : Wait) : Int :=
  wait.magnitude * wait.scale.millis

theorem Wait.millis_natCast (magnitude : Nat) (scale : Scale) :
    Wait.millis ⟨magnitude, scale⟩ = (magnitude * scale.millis : Nat) :=
  (Int.natCast_mul magnitude scale.millis).symm

namespace Scale
open Binary64

theorem millis_pos (scale : Scale) : 0 < scale.millis := by
  cases scale <;> decide

section
variable (scale : Scale) (magnitude : Nat)

theorem seconds?_natCast : scale.seconds? magnitude =
    if magnitude * scale.millis < 1000 * overflow then
      .ok (ofRatio false (magnitude * scale.millis) 1000)
    else .error .secondsRange := by
  have hsign : decide ((magnitude : Int) < 0) = false :=
    decide_eq_false (Int.not_lt.mpr (Int.natCast_nonneg magnitude))
  -- The bare name is unfolded: next to its arguments the rounding would be evaluated to see that
  -- the two sides agree.
  conv_lhs =>
    fun
    fun
    delta seconds?
  rw [hsign, Int.natAbs_natCast]
  split_ifs with hlt
  · obtain ⟨rank, hrank, -⟩ := ofRatio_of_lt false (magnitude * scale.millis) 1000 (by decide) hlt
    rw [hrank]
  · rw [ofRatio_of_le false _ 1000 (by decide) (Nat.not_lt.mp hlt)]

theorem seconds?_of_lt (h : magnitude * scale.millis < 1000 * overflow) :
    ∃ rank : Fin rankCount, scale.seconds? magnitude = .ok (.finite false rank) ∧
      rank.val = nearestRank (magnitude * scale.millis * unitsPerOne) 1000 := by
  obtain ⟨rank, hrank, hnearest⟩ :=
    ofRatio_of_lt false (magnitude * scale.millis) 1000 (by decide) h
  exact ⟨rank, by rw [seconds?_natCast, if_pos h, hrank], hnearest⟩

theorem seconds?_of_le (h : 1000 * overflow ≤ magnitude * scale.millis) :
    scale.seconds? magnitude = .error .secondsRange := by
  rw [seconds?_natCast, if_neg (Nat.not_lt.mpr h)]

/-- The seconds are a double of positive sign; a millisecond is too much to be rounded to zero. -/
theorem seconds?_eq_ok {seconds : Binary64} (h : scale.seconds? magnitude = .ok seconds) :
    ∃ rank : Fin rankCount, seconds = .finite false rank ∧ (rank.val = 0 → magnitude = 0) := by
  rcases Nat.lt_or_ge (magnitude * scale.millis) (1000 * overflow) with hlt | hge
  · obtain ⟨rank, hrank, hnearest⟩ := scale.seconds?_of_lt magnitude hlt
    refine ⟨rank, Except.ok.inj (h.symm.trans hrank), fun hzero => ?_⟩
    by_contra hne
    have hone : 1 ≤ magnitude * scale.millis :=
      Nat.mul_pos (Nat.pos_of_ne_zero hne) scale.millis_pos
    have hunits : 1000 < unitsPerOne := by decide +kernel
    have hlarge : unitsPerOne ≤ magnitude * scale.millis * unitsPerOne :=
      Nat.le_mul_of_pos_left _ hone
    have hpos := nearestRank_pos (magnitude * scale.millis * unitsPerOne) 1000 (by omega) (by omega)
    omega
  · cases h.symm.trans (scale.seconds?_of_le magnitude hge)

end

/-- Rounding keeps the order of waits, across scales. Nothing below a wait that can be made seconds
is too large to be made seconds. -/
theorem seconds?_mono {scale other : Scale} {less more : Nat}
    (hle : less * scale.millis ≤ more * other.millis) {rank : Fin rankCount}
    (hmore : other.seconds? more = .ok (.finite false rank)) :
    ∃ lower : Fin rankCount, scale.seconds? less = .ok (.finite false lower) ∧ lower ≤ rank := by
  rcases Nat.lt_or_ge (more * other.millis) (1000 * overflow) with hlt | hge
  · obtain ⟨upper, hupper, hrank⟩ := other.seconds?_of_lt more hlt
    obtain ⟨lower, hlower, hnearest⟩ := scale.seconds?_of_lt less (hle.trans_lt hlt)
    obtain ⟨-, rfl⟩ := finite.inj (Except.ok.inj (hupper.symm.trans hmore))
    refine ⟨lower, hlower, ?_⟩
    rw [Fin.le_def, hnearest, hrank]
    exact nearestRank_mono _ _ (by decide) (Nat.mul_le_mul_right _ hle)
  · cases hmore.symm.trans (other.seconds?_of_le more hge)

end Scale
end RetrySchedule
