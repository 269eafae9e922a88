import RetrySchedule.Number
import RetrySchedule.Proofs.Binary64.Rounding

namespace RetrySchedule

namespace Extended

theorem le_self (x : Extended) : x.le x := by
  cases x <;> simp [le]

theorem le_of_lt {x y : Extended} (h : x.lt y) : x.le y := by
  cases x <;> cases y <;> simp_all [lt, le]
  omega

theorem lt_of_lt_of_le {x y z : Extended} (hxy : x.lt y) (hyz : y.le z) : x.lt z := by
  cases x <;> cases y <;> cases z <;> simp_all [lt, le]
  omega

theorem units_le (m n : Int) : (units m).le (units n) ↔ m ≤ n :=
  decide_eq_true_iff

theorem units_lt (m n : Int) : (units m).lt (units n) ↔ m < n := by
  rw [lt, Bool.not_eq_true', ← Bool.not_eq_true, units_le, Int.not_le]

end Extended

namespace Number

theorem exists_extended {x : Number} (h : x ≠ .real .nan) : ∃ point, x.extended? = some point := by
  cases x with
  | flag b => exact ⟨_, rfl⟩
  | int n => exact ⟨_, rfl⟩
  | real y =>
    cases y with
    | nan => exact absurd rfl h
    | infinite negative => exact ⟨_, rfl⟩
    | finite negative rank => exact ⟨_, rfl⟩

theorem extended?_of_whole {x : Number} {n : Int} (h : x.whole? = some n) :
    x.extended? = some (.units (n * Binary64.unitsPerOne)) := by
  cases x with
  | flag b => simp only [extended?, h, Option.map_some]
  | int m => simp only [extended?, h, Option.map_some]
  | real y => cases h

theorem extended?_zero : extended? (.int 0) = some (.units 0) := by
  rw [extended?_of_whole rfl, Int.zero_mul]

theorem extended?_nonneg (rank : Fin Binary64.rankCount) :
    extended? (.real (.finite false rank)) = some (.units (Binary64.unitsOfRank rank)) := rfl

theorem le_nan (x : Number) : x.le (.real .nan) = false := by
  unfold le
  cases x.extended? <;> rfl

section
variable {x y : Number}

theorem le_eq_of_extended {a b : Extended} (hx : x.extended? = some a) (hy : y.extended? = some b) :
    x.le y = a.le b := by
  simp only [le, hx, hy]

theorem lt_eq_of_extended {a b : Extended} (hx : x.extended? = some a) (hy : y.extended? = some b) :
    x.lt y = a.lt b := by
  simp only [lt, hx, hy]

/-- The two comparisons are complementary. -/
theorem lt_eq_not_le (hx : x ≠ .real .nan) (hy : y ≠ .real .nan) : x.lt y = !y.le x := by
  obtain ⟨a, ha⟩ := exists_extended hx
  obtain ⟨b, hb⟩ := exists_extended hy
  rw [lt_eq_of_extended ha hb, le_eq_of_extended hb ha, Extended.lt]

theorem le_self (hx : x ≠ .real .nan) : x.le x := by
  obtain ⟨a, ha⟩ := exists_extended hx
  rw [le_eq_of_extended ha ha]
  exact a.le_self

theorem ne_nan_of_lt (h : x.lt y) : x ≠ .real .nan ∧ y ≠ .real .nan := by
  refine ⟨?_, ?_⟩
  · rintro rfl
    exact Bool.noConfusion h
  · rintro rfl
    unfold lt at h
    cases hx : x.extended? <;> rw [hx] at h <;> exact Bool.noConfusion h

theorem le_of_lt (h : x.lt y) : x.le y := by
  obtain ⟨hx, hy⟩ := ne_nan_of_lt h
  obtain ⟨a, ha⟩ := exists_extended hx
  obtain ⟨b, hb⟩ := exists_extended hy
  rw [lt_eq_of_extended ha hb] at h
  rw [le_eq_of_extended ha hb]
  exact Extended.le_of_lt h

theorem lt_of_lt_of_le {z : Number} (hxy : x.lt y) (hyz : y.le z) : x.lt z := by
  obtain ⟨hx, hy⟩ := ne_nan_of_lt hxy
  have hz : z ≠ .real .nan := by
    rintro rfl
    rw [le_nan] at hyz
    cases hyz
  obtain ⟨a, ha⟩ := exists_extended hx
  obtain ⟨b, hb⟩ := exists_extended hy
  obtain ⟨c, hc⟩ := exists_extended hz
  rw [lt_eq_of_extended ha hb] at hxy
  rw [le_eq_of_extended hb hc] at hyz
  rw [lt_eq_of_extended ha hc]
  exact Extended.lt_of_lt_of_le hxy hyz

end

theorem zero_le_real (rank : Fin Binary64.rankCount) :
    le (.int 0) (.real (.finite false rank)) := by
  rw [le_eq_of_extended extended?_zero (extended?_nonneg rank), Extended.units_le]
  omega

theorem real_le_real {less more : Fin Binary64.rankCount} (h : less ≤ more) :
    le (.real (.finite false less)) (.real (.finite false more)) := by
  rw [le_eq_of_extended (extended?_nonneg less) (extended?_nonneg more), Extended.units_le]
  exact Int.ofNat_le.mpr (Binary64.unitsOfRank_strictMono.monotone h)

theorem real_le_zero_iff (rank : Fin Binary64.rankCount) :
    le (.real (.finite false rank)) (.int 0) ↔ rank.val = 0 := by
  have hzero : Binary64.unitsOfRank 0 = 0 := by decide
  rw [le_eq_of_extended (extended?_nonneg rank) extended?_zero, Extended.units_le,
    ← Binary64.unitsOfRank_strictMono.injective.eq_iff, hzero]
  omega

theorem natAbs_lt_overflow {x : Number} {n : Int} {rank : Fin Binary64.rankCount}
    (hn : x.whole? = some n) (hpos : lt (.int 0) x) (hlt : x.lt (.real (.finite false rank))) :
    n.natAbs < Binary64.overflow := by
  rw [lt_eq_of_extended extended?_zero (extended?_of_whole hn), Extended.units_lt] at hpos
  rw [lt_eq_of_extended (extended?_of_whole hn) (extended?_nonneg _), Extended.units_lt] at hlt
  have hunits : (0 : Int) < Binary64.unitsPerOne := Int.natCast_pos.mpr Binary64.unitsPerOne_pos
  have hnpos : 0 < n := Int.pos_of_mul_pos_left hpos hunits
  obtain ⟨k, rfl⟩ := Int.eq_ofNat_of_zero_le hnpos.le
  have hrank : k * Binary64.unitsPerOne < Binary64.unitsOfRank rank := by
    exact_mod_cast hlt
  have hlast : Binary64.unitsOfRank rank ≤ Binary64.unitsOfRank (Binary64.rankCount - 1) :=
    Binary64.unitsOfRank_strictMono.monotone (Nat.le_pred_of_lt rank.isLt)
  -- The limit is above the greatest double, by half of the distance to the next magnitude.
  have hmiddle := Binary64.twiceMiddle_greatest
  have hnext : Binary64.unitsOfRank (Binary64.rankCount - 1) <
      Binary64.unitsOfRank (Binary64.rankCount - 1 + 1) :=
    Binary64.unitsOfRank_strictMono (Nat.lt_succ_self _)
  rw [Binary64.twiceMiddle] at hmiddle
  rw [Int.natAbs_natCast]
  apply Nat.lt_of_mul_lt_mul_right (a := Binary64.unitsPerOne)
  omega

theorem toReal?_of_whole {x : Number} {n : Int} {negative : Bool}
    {rank : Fin Binary64.rankCount} (hn : x.whole? = some n)
    (h : Binary64.ofInt n = .finite negative rank) :
    x.toReal? = some (.finite negative rank) := by
  unfold toReal?
  rw [hn, Option.map_some, h]
  cases x with
  | flag b => rfl
  | int m => rfl
  | real y => cases hn

theorem exists_toReal? {x : Number} {rank : Fin Binary64.rankCount} (hpos : lt (.int 0) x)
    (hlt : x.lt (.real (.finite false rank))) : ∃ y, x.toReal? = some y := by
  cases hn : x.whole? with
  | none =>
    cases x with
    | real y => exact ⟨y, rfl⟩
    | flag b => cases hn
    | int n => cases hn
  | some n =>
    have hsmall := natAbs_lt_overflow hn hpos hlt
    obtain ⟨rank, hrank, -⟩ := Binary64.ofRatio_of_lt (n < 0) n.natAbs 1 Nat.one_pos (by omega)
    exact ⟨_, toReal?_of_whole hn hrank⟩

end Number
end RetrySchedule
