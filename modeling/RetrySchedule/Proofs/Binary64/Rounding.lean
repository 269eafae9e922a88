import Mathlib.Algebra.GroupWithZero.Nat
import Mathlib.Order.Monotone.Basic
import Mathlib.Tactic.Ring
import RetrySchedule.Binary64.Rounding

namespace RetrySchedule

theorem exists_divEven_eq (num den : Nat) (h : 0 < den) : ∃ quotient rest : Nat,
    num = den * quotient + rest ∧ rest < den ∧
      divEven num den =
        if 2 * rest < den ∨ 2 * rest = den ∧ quotient % 2 = 0 then quotient else quotient + 1 := by
  refine ⟨num / den, num % den, (Nat.div_add_mod num den).symm, Nat.mod_lt num h, ?_⟩
  simp only [divEven, Bool.or_eq_true, Bool.and_eq_true, decide_eq_true_eq, beq_iff_eq]

/-- A quotient is at most half above its rounding, and half above an even one only. -/
theorem le_divEven (num den : Nat) (h : 0 < den) :
    2 * num ≤ den * (2 * divEven num den + 1) ∧
      (2 * num = den * (2 * divEven num den + 1) → divEven num den % 2 = 0) := by
  obtain ⟨quotient, rest, rfl, hrest, heq⟩ := exists_divEven_eq num den h
  rw [heq]
  split_ifs with hdown
  · have hexpand : den * (2 * quotient + 1) = 2 * (den * quotient) + den := by ring
    rw [hexpand]
    omega
  · have hexpand : den * (2 * (quotient + 1) + 1) = 2 * (den * quotient) + 3 * den := by ring
    rw [hexpand]
    omega

theorem divEven_le (num den : Nat) (h : 0 < den) :
    den * (2 * divEven num den) ≤ 2 * num + den ∧
      (den * (2 * divEven num den) = 2 * num + den → divEven num den % 2 = 0) := by
  obtain ⟨quotient, rest, rfl, hrest, heq⟩ := exists_divEven_eq num den h
  rw [heq]
  split_ifs with hdown
  · have hexpand : den * (2 * quotient) = 2 * (den * quotient) := by ring
    rw [hexpand]
    omega
  · have hexpand : den * (2 * (quotient + 1)) = 2 * (den * quotient) + 2 * den := by ring
    rw [hexpand]
    omega

theorem divEven_eq_of_lt {num den whole : Nat} (hbelow : den * (2 * whole) < 2 * num + den)
    (habove : 2 * num < den * (2 * whole + 1)) : divEven num den = whole := by
  have hden : 0 < den := by
    apply Nat.pos_of_ne_zero
    rintro rfl
    omega
  have hle := (le_divEven num den hden).1
  have hge := (divEven_le num den hden).1
  have hlow : den * (2 * whole) < den * (2 * divEven num den + 2) := by
    rw [Nat.mul_add] at hle ⊢
    omega
  have hhigh : den * (2 * divEven num den) < den * (2 * whole + 2) := by
    rw [Nat.mul_add] at habove ⊢
    omega
  have := Nat.lt_of_mul_lt_mul_left hlow
  have := Nat.lt_of_mul_lt_mul_left hhigh
  omega

theorem divEven_mul (den whole : Nat) (h : 0 < den) : divEven (den * whole) den = whole := by
  apply divEven_eq_of_lt
  · rw [Nat.mul_left_comm]
    omega
  · rw [Nat.mul_add, Nat.mul_left_comm]
    omega

theorem le_divEven_of_le {num den whole : Nat} (hden : 0 < den) (h : den * whole ≤ num) :
    whole ≤ divEven num den := by
  have hle := (le_divEven num den hden).1
  have hlt : den * (2 * whole) < den * (2 * divEven num den + 2) := by
    rw [Nat.mul_add] at hle ⊢
    rw [Nat.mul_left_comm]
    omega
  have := Nat.lt_of_mul_lt_mul_left hlt
  omega

namespace Binary64

theorem binade_pos : 0 < binade := by decide

theorem binade_even : binade % 2 = 0 := by decide

theorem unitsPerOne_pos : 0 < unitsPerOne := by decide +kernel

/-- A rank is a number of binades and a significand; the magnitude is the significand, doubled for
each of these binades. -/
theorem unitsOfRank_add (shift significand : Nat) (hlow : shift = 0 ∨ binade ≤ significand)
    (hhigh : significand ≤ 2 * binade) :
    unitsOfRank (shift * binade + significand) = significand * 2 ^ shift := by
  have hpos := binade_pos
  unfold unitsOfRank
  rcases Nat.lt_or_ge significand binade with hlt | hge
  · obtain rfl : shift = 0 := hlow.resolve_right (Nat.not_le.mpr hlt)
    rw [Nat.zero_mul, Nat.zero_add, if_pos hlt, Nat.pow_zero, Nat.mul_one]
  · rw [if_neg (by omega)]
    rcases Nat.lt_or_ge significand (2 * binade) with hlt | hfull
    · have hrank : shift * binade + significand =
          (significand - binade) + binade * (shift + 1) := by
        rw [Nat.mul_add, Nat.mul_comm binade shift]
        omega
      rw [hrank, Nat.add_mul_mod_self_left, Nat.add_mul_div_left _ _ hpos,
        Nat.mod_eq_of_lt (by omega), Nat.div_eq_of_lt (by omega), Nat.zero_add,
        Nat.add_sub_cancel, Nat.add_sub_cancel' hge, Nat.pow_eq]
    -- Twice a binade is the least significand of the binade behind.
    · obtain rfl : significand = 2 * binade := Nat.le_antisymm hhigh hfull
      have hrank : shift * binade + 2 * binade = binade * (shift + 2) := by ring
      rw [hrank, Nat.mul_mod_right, Nat.mul_div_cancel_left _ hpos, Nat.add_zero, Nat.pow_eq]
      simp only [Nat.add_succ_sub_one]
      ring

theorem exists_significand (rank : Nat) : ∃ shift significand : Nat,
    rank = shift * binade + significand ∧ (shift = 0 ∨ binade ≤ significand) ∧
      significand < 2 * binade := by
  have hpos := binade_pos
  have hsplit := Nat.div_add_mod rank binade
  have hrest := Nat.mod_lt rank hpos
  rw [Nat.mul_comm] at hsplit
  rcases Nat.eq_zero_or_pos (rank / binade) with hzero | hmore
  · rw [hzero, Nat.zero_mul] at hsplit
    exact ⟨0, rank, by omega, Or.inl rfl, by omega⟩
  · have hwhole : (rank / binade - 1) * binade + binade = rank / binade * binade := by
      rw [← Nat.succ_mul, Nat.succ_eq_add_one, Nat.sub_add_cancel hmore]
    exact ⟨rank / binade - 1, binade + rank % binade, by omega, Or.inr (by omega), by omega⟩

theorem le_unitsOfRank_succ (shift significand : Nat) (hlow : shift = 0 ∨ binade ≤ significand)
    (hhigh : significand ≤ 2 * binade) :
    (significand + 1) * 2 ^ shift ≤ unitsOfRank (shift * binade + significand + 1) := by
  rcases Nat.lt_or_ge significand (2 * binade) with hlt | hge
  · rw [Nat.add_assoc, unitsOfRank_add shift (significand + 1) (by omega) hlt]
  · obtain rfl : significand = 2 * binade := Nat.le_antisymm hhigh hge
    have hpos := binade_pos
    have hrank : shift * binade + 2 * binade + 1 = (shift + 1) * binade + (binade + 1) := by ring
    rw [hrank, unitsOfRank_add (shift + 1) (binade + 1) (Or.inr (by omega)) (by omega),
      Nat.pow_succ, Nat.mul_comm (2 ^ shift) 2, ← Nat.mul_assoc]
    apply Nat.mul_le_mul_right
    omega

theorem unitsOfRank_strictMono : StrictMono unitsOfRank := by
  apply strictMono_nat_of_lt_succ
  intro rank
  obtain ⟨shift, significand, rfl, hlow, hhigh⟩ := exists_significand rank
  rw [unitsOfRank_add shift significand hlow hhigh.le]
  apply Nat.lt_of_lt_of_le _ (le_unitsOfRank_succ shift significand hlow hhigh.le)
  exact Nat.mul_lt_mul_of_pos_right (Nat.lt_succ_self _) (Nat.two_pow_pos shift)

/-- Twice the middle between a magnitude and the next one. -/
def twiceMiddle (rank : Nat) : Nat :=
  unitsOfRank rank + unitsOfRank (rank + 1)

theorem twiceMiddle_strictMono : StrictMono twiceMiddle := by
  intro a b h
  exact Nat.add_lt_add (unitsOfRank_strictMono h) (unitsOfRank_strictMono (Nat.succ_lt_succ h))

section
variable (num den : Nat) (h : 0 < den)
include h

theorem excess_bounds :
    (excess (num / den) = 0 ∨ den * (binade * 2 ^ excess (num / den)) ≤ num) ∧
      num < den * (2 * binade * 2 ^ excess (num / den)) := by
  have hbinade : binade = 2 ^ 52 := Nat.pow_eq
  have hupper : num / den < 2 ^ ((num / den).log2 + 1) := Nat.lt_log2_self
  have hlt : num / den < 2 * binade * 2 ^ excess (num / den) := by
    rw [hbinade, ← Nat.pow_succ', ← Nat.pow_add]
    apply hupper.trans_le
    apply Nat.pow_le_pow_right Nat.two_pos
    unfold excess
    omega
  refine ⟨?_, ?_⟩
  · rcases Nat.eq_zero_or_pos (excess (num / den)) with hzero | hpos
    · exact Or.inl hzero
    · right
      have hlog : (num / den).log2 = 52 + excess (num / den) := by
        unfold excess at hpos ⊢
        omega
      have hne : num / den ≠ 0 := by
        intro hzero
        rw [hzero, Nat.log2_zero] at hlog
        omega
      have hlower : binade * 2 ^ excess (num / den) ≤ num / den := by
        rw [hbinade, ← Nat.pow_add, ← hlog]
        exact Nat.log2_self_le hne
      rw [Nat.mul_comm]
      exact (Nat.le_div_iff_mul_le h).mp hlower
  · rw [Nat.mul_comm]
    exact (Nat.div_lt_iff_lt_mul h).mp hlt

theorem exists_nearestRank_eq : ∃ shift : Nat,
    nearestRank num den = shift * binade + divEven num (den * 2 ^ shift) ∧
      (shift = 0 ∨ den * 2 ^ shift * binade ≤ num) ∧
      (shift = 0 ∨ binade ≤ divEven num (den * 2 ^ shift)) ∧
      divEven num (den * 2 ^ shift) ≤ 2 * binade := by
  obtain ⟨hlow, hhigh⟩ := excess_bounds num den h
  have hscale : 0 < den * 2 ^ excess (num / den) := Nat.mul_pos h (Nat.two_pow_pos _)
  have hlow' : excess (num / den) = 0 ∨ den * 2 ^ excess (num / den) * binade ≤ num := by
    rwa [Nat.mul_assoc, Nat.mul_comm _ binade]
  have hhigh' : num < den * 2 ^ excess (num / den) * (2 * binade) := by
    rwa [Nat.mul_assoc, Nat.mul_comm _ (2 * binade)]
  have habove := (le_divEven num _ hscale).1
  have hbelow := (divEven_le num _ hscale).1
  refine ⟨excess (num / den), rfl, hlow', ?_, ?_⟩
  · refine hlow'.imp_right fun hle => ?_
    -- Rounding is off by half at most, which is not enough to leave the binade.
    have hcompare : den * 2 ^ excess (num / den) * (2 * binade) <
        den * 2 ^ excess (num / den) *
          (2 * divEven num (den * 2 ^ excess (num / den)) + 2) := by
      rw [Nat.mul_add] at habove ⊢
      rw [Nat.mul_left_comm]
      omega
    have := Nat.lt_of_mul_lt_mul_left hcompare
    omega
  · have hcompare : den * 2 ^ excess (num / den) *
          (2 * divEven num (den * 2 ^ excess (num / den))) <
        den * 2 ^ excess (num / den) * (2 * (2 * binade) + 1) := by
      rw [Nat.mul_add, Nat.mul_left_comm _ 2 (2 * binade)]
      omega
    have := Nat.lt_of_mul_lt_mul_left hcompare
    omega

theorem le_twiceMiddle_nearestRank :
    2 * num ≤ den * twiceMiddle (nearestRank num den) ∧
      (2 * num = den * twiceMiddle (nearestRank num den) → nearestRank num den % 2 = 0) := by
  obtain ⟨shift, hrank, -, hlow, hhigh⟩ := exists_nearestRank_eq num den h
  have hscale : 0 < den * 2 ^ shift := Nat.mul_pos h (Nat.two_pow_pos shift)
  obtain ⟨habove, heven⟩ := le_divEven num _ hscale
  rw [hrank]
  generalize divEven num (den * 2 ^ shift) = significand at *
  have hmiddle : den * 2 ^ shift * (2 * significand + 1) ≤
      den * twiceMiddle (shift * binade + significand) := by
    have hnext := le_unitsOfRank_succ shift significand hlow hhigh
    rw [twiceMiddle, unitsOfRank_add shift significand hlow hhigh, Nat.mul_assoc]
    apply Nat.mul_le_mul_left
    calc 2 ^ shift * (2 * significand + 1)
        = significand * 2 ^ shift + (significand + 1) * 2 ^ shift := by ring
      _ ≤ _ := Nat.add_le_add_left hnext _
  refine ⟨habove.trans hmiddle, fun heq => ?_⟩
  have hsignificand := heven (Nat.le_antisymm habove (heq ▸ hmiddle))
  rw [Nat.add_mod, Nat.mul_mod, binade_even, Nat.mul_zero, Nat.zero_mod, hsignificand]

theorem twiceMiddle_le_of_succ_eq {rank : Nat} (hrank : rank + 1 = nearestRank num den) :
    den * twiceMiddle rank ≤ 2 * num ∧
      (den * twiceMiddle rank = 2 * num → nearestRank num den % 2 = 0) := by
  obtain ⟨shift, hnearest, hnum, hlow, hhigh⟩ := exists_nearestRank_eq num den h
  have hscale : 0 < den * 2 ^ shift := Nat.mul_pos h (Nat.two_pow_pos shift)
  obtain ⟨hbelow, heven⟩ := divEven_le num _ hscale
  rw [hnearest] at hrank ⊢
  generalize divEven num (den * 2 ^ shift) = significand at *
  have hunits := unitsOfRank_add shift significand hlow hhigh
  rcases Nat.lt_or_ge num (den * 2 ^ shift * significand) with hup | hdown
  -- The quotient was rounded up, so the rank in front has the significand in front.
  · have hfront : shift = 0 ∨ binade < significand := by
      refine hnum.imp_right fun hle => ?_
      exact Nat.lt_of_mul_lt_mul_left (hle.trans_lt hup)
    have hpos : 0 < significand := by
      apply Nat.pos_of_ne_zero
      rintro rfl
      omega
    have hprevious : rank = shift * binade + (significand - 1) := by omega
    have hmiddle : den * twiceMiddle rank + den * 2 ^ shift =
        den * 2 ^ shift * (2 * significand) := by
      rw [twiceMiddle, hrank, hunits, hprevious,
        unitsOfRank_add shift (significand - 1) (by omega) (by omega)]
      obtain ⟨previous, rfl⟩ := Nat.exists_eq_add_of_lt hpos
      rw [Nat.zero_add, Nat.add_sub_cancel]
      ring
    refine ⟨by omega, fun heq => ?_⟩
    have hsignificand := heven (by omega)
    rw [Nat.add_mod, Nat.mul_mod, binade_even, Nat.mul_zero, Nat.zero_mod, hsignificand]
  -- The quotient is at or above its rank, and the middle in front is below the rank.
  · have hlt : unitsOfRank rank < significand * 2 ^ shift := by
      rw [← hunits, ← hrank]
      exact unitsOfRank_strictMono (Nat.lt_succ_self rank)
    have hmiddle : den * twiceMiddle rank < den * (2 * (significand * 2 ^ shift)) := by
      apply Nat.mul_lt_mul_of_pos_left _ h
      rw [twiceMiddle, hrank, hunits]
      omega
    have hexpand : den * (2 * (significand * 2 ^ shift)) = 2 * (den * 2 ^ shift * significand) := by
      ring
    omega

theorem twiceMiddle_le_of_lt {rank : Nat} (hrank : rank < nearestRank num den) :
    den * twiceMiddle rank ≤ 2 * num ∧ (den * twiceMiddle rank = 2 * num → rank % 2 = 1) := by
  obtain ⟨previous, hprevious⟩ := Nat.exists_eq_add_one_of_ne_zero (Nat.ne_zero_of_lt hrank)
  obtain ⟨hle, heven⟩ := twiceMiddle_le_of_succ_eq num den h hprevious.symm
  rcases Nat.lt_or_ge rank previous with hlt | hge
  · have hmiddle : den * twiceMiddle rank < den * twiceMiddle previous :=
      Nat.mul_lt_mul_of_pos_left (twiceMiddle_strictMono hlt) h
    exact ⟨by omega, fun heq => by omega⟩
  · obtain rfl : rank = previous := by omega
    refine ⟨hle, fun heq => ?_⟩
    have := heven heq
    omega

/-- The middles decide the rounding: a quotient is rounded to a rank or below it exactly if it lies
below the middle behind that rank, or on it and the rank is even. Nearness and the quotients that
are too large for a double follow. -/
theorem nearestRank_le_iff (rank : Nat) : nearestRank num den ≤ rank ↔
    2 * num < den * twiceMiddle rank ∨ 2 * num = den * twiceMiddle rank ∧ rank % 2 = 0 := by
  constructor
  · intro hle
    obtain ⟨habove, heven⟩ := le_twiceMiddle_nearestRank num den h
    rcases Nat.lt_or_eq_of_le hle with hlt | rfl
    · left
      exact habove.trans_lt (Nat.mul_lt_mul_of_pos_left (twiceMiddle_strictMono hlt) h)
    · rcases Nat.lt_or_eq_of_le habove with hlt | heq
      · exact Or.inl hlt
      · exact Or.inr ⟨heq, heven heq⟩
  · intro hmiddle
    by_contra hrank
    obtain ⟨hbelow, hodd⟩ := twiceMiddle_le_of_lt num den h (Nat.lt_of_not_le hrank)
    rcases hmiddle with hlt | ⟨heq, heven⟩
    · omega
    · have := hodd heq.symm
      omega

theorem nearestRank_pos (hhalf : den < 2 * num) : 0 < nearestRank num den := by
  by_contra hzero
  have hmiddle := (nearestRank_le_iff num den h 0).mp (Nat.le_of_not_lt hzero)
  have hone : twiceMiddle 0 = 1 := by decide
  rw [hone, Nat.mul_one] at hmiddle
  omega

theorem nearestRank_mono {more : Nat} (hle : num ≤ more) :
    nearestRank num den ≤ nearestRank more den := by
  have hmiddle := (nearestRank_le_iff more den h _).mp (Nat.le_refl _)
  apply (nearestRank_le_iff num den h _).mpr
  omega

theorem exists_unitsOfRank_nearestRank {k : Nat} (hlt : num < den * 2 ^ (53 + k)) :
    ∃ shift ≤ k,
      unitsOfRank (nearestRank num den) = divEven num (den * 2 ^ shift) * 2 ^ shift := by
  obtain ⟨shift, hrank, hnum, hlow, hhigh⟩ := exists_nearestRank_eq num den h
  refine ⟨shift, ?_, by rw [hrank, unitsOfRank_add shift _ hlow hhigh]⟩
  rcases hnum with rfl | hle
  · exact Nat.zero_le k
  · have hbinade : binade = 2 ^ 52 := Nat.pow_eq
    rw [hbinade, Nat.mul_assoc, ← Nat.pow_add] at hle
    have hpow := Nat.lt_of_mul_lt_mul_left (hle.trans_lt hlt)
    have := (Nat.pow_lt_pow_iff_right (by decide)).mp hpow
    omega

/-- The nearest magnitude is off by half a step at most. -/
theorem nearestRank_error {k : Nat} (hlt : num < den * 2 ^ (53 + k)) :
    2 * num ≤ 2 * (den * unitsOfRank (nearestRank num den)) + den * 2 ^ k ∧
      2 * (den * unitsOfRank (nearestRank num den)) ≤ 2 * num + den * 2 ^ k := by
  obtain ⟨shift, hshift, hunits⟩ := exists_unitsOfRank_nearestRank num den h hlt
  have hscale : 0 < den * 2 ^ shift := Nat.mul_pos h (Nat.two_pow_pos shift)
  have hstep : den * 2 ^ shift ≤ den * 2 ^ k :=
    Nat.mul_le_mul_left den (Nat.pow_le_pow_right Nat.two_pos hshift)
  have habove := (le_divEven num _ hscale).1
  have hbelow := (divEven_le num _ hscale).1
  have hexpand : den * 2 ^ shift * (2 * divEven num (den * 2 ^ shift)) =
      2 * (den * unitsOfRank (nearestRank num den)) := by
    rw [hunits]
    ring
  rw [Nat.mul_add, hexpand] at habove
  rw [hexpand] at hbelow
  exact ⟨by omega, by omega⟩

/-- A multiple of the step is a magnitude itself. -/
theorem unitsOfRank_nearestRank_of_dvd {k : Nat} (hlt : num < den * 2 ^ (53 + k))
    (hdvd : den * 2 ^ k ∣ num) : den * unitsOfRank (nearestRank num den) = num := by
  obtain ⟨shift, hshift, hunits⟩ := exists_unitsOfRank_nearestRank num den h hlt
  have hscale : 0 < den * 2 ^ shift := Nat.mul_pos h (Nat.two_pow_pos shift)
  obtain ⟨whole, rfl⟩ := (Nat.mul_dvd_mul_left den (Nat.pow_dvd_pow 2 hshift)).trans hdvd
  rw [hunits, divEven_mul _ whole hscale]
  ring

end

theorem unitsOfRank_nearestRank_whole {den whole : Nat} (hden : 0 < den) (h : whole ≤ 2 ^ 53) :
    unitsOfRank (nearestRank (den * whole * unitsPerOne) den) = whole * unitsPerOne := by
  obtain ⟨k, hk⟩ : ∃ k, unitsPerOne = 2 ^ k := ⟨1074, by decide +kernel⟩
  apply Nat.eq_of_mul_eq_mul_left hden
  rw [Nat.mul_assoc]
  rcases Nat.lt_or_eq_of_le h with hlt | rfl
  · apply unitsOfRank_nearestRank_of_dvd (k := k) _ _ hden
    · rw [hk, Nat.pow_add]
      exact Nat.mul_lt_mul_of_pos_left (Nat.mul_lt_mul_of_pos_right hlt (Nat.two_pow_pos k)) hden
    · rw [hk]
      exact Nat.mul_dvd_mul_left _ (Nat.dvd_mul_left _ _)
  -- The steps are twice as large from here on, and this number is even.
  · apply unitsOfRank_nearestRank_of_dvd (k := k + 1) _ _ hden
    · rw [hk, ← Nat.pow_add]
      exact Nat.mul_lt_mul_of_pos_left (Nat.pow_lt_pow_right (by decide) (by omega)) hden
    · rw [hk, ← Nat.pow_add]
      exact Nat.mul_dvd_mul_left _ (Nat.pow_dvd_pow 2 (by omega))

/-- How far a magnitude is from a quotient, in parts of the denominator. -/
def distance (num den rank : Nat) : Nat :=
  ((den * unitsOfRank rank : Nat) - (num : Int)).natAbs

/-- No magnitude is nearer to the quotient, and only an even rank has one that is as near. -/
structure IsNearest (num den rank : Nat) : Prop where
  nearest : ∀ other, distance num den rank ≤ distance num den other
  even : ∀ other, other ≠ rank → distance num den other = distance num den rank → rank % 2 = 0

section
variable (num den : Nat) (h : 0 < den)
include h

theorem distance_of_gt {other : Nat} (hother : nearestRank num den < other) :
    distance num den (nearestRank num den) ≤ distance num den other ∧
      (distance num den other = distance num den (nearestRank num den) →
        nearestRank num den % 2 = 0) := by
  obtain ⟨habove, heven⟩ := le_twiceMiddle_nearestRank num den h
  have hnext : den * unitsOfRank (nearestRank num den + 1) ≤ den * unitsOfRank other :=
    Nat.mul_le_mul_left den (unitsOfRank_strictMono.monotone hother)
  have hlt : den * unitsOfRank (nearestRank num den) < den * unitsOfRank other :=
    Nat.mul_lt_mul_of_pos_left (unitsOfRank_strictMono hother) h
  rw [twiceMiddle, Nat.mul_add] at habove heven
  unfold distance
  refine ⟨by omega, fun heq => heven (by omega)⟩

theorem distance_of_lt {other : Nat} (hother : other < nearestRank num den) :
    distance num den (nearestRank num den) ≤ distance num den other ∧
      (distance num den other = distance num den (nearestRank num den) →
        nearestRank num den % 2 = 0) := by
  obtain ⟨previous, hprevious⟩ := Nat.exists_eq_add_one_of_ne_zero (Nat.ne_zero_of_lt hother)
  obtain ⟨hbelow, heven⟩ := twiceMiddle_le_of_succ_eq num den h hprevious.symm
  have hfront : den * unitsOfRank other ≤ den * unitsOfRank previous :=
    Nat.mul_le_mul_left den (unitsOfRank_strictMono.monotone (by omega))
  have hlt : den * unitsOfRank other < den * unitsOfRank (nearestRank num den) :=
    Nat.mul_lt_mul_of_pos_left (unitsOfRank_strictMono hother) h
  rw [twiceMiddle, ← hprevious, Nat.mul_add] at hbelow heven
  unfold distance
  refine ⟨by omega, fun heq => heven (by omega)⟩

theorem isNearest_nearestRank : IsNearest num den (nearestRank num den) := by
  refine ⟨fun other => ?_, fun other hne => ?_⟩
  · rcases Nat.lt_trichotomy other (nearestRank num den) with hlt | rfl | hgt
    · exact (distance_of_lt num den h hlt).1
    · exact Nat.le_refl _
    · exact (distance_of_gt num den h hgt).1
  · rcases Nat.lt_or_gt_of_ne hne with hlt | hgt
    · exact (distance_of_lt num den h hlt).2
    · exact (distance_of_gt num den h hgt).2

end

/-- The least number that is too large for a double. It is the middle behind the greatest one, whose
rank is odd. -/
def overflow : Nat := 2 ^ 1024 - 2 ^ 970

theorem twiceMiddle_greatest : twiceMiddle (rankCount - 1) = 2 * (overflow * unitsPerOne) := by
  decide +kernel

theorem nearestRank_lt_rankCount_iff (num den : Nat) (h : 0 < den) :
    nearestRank (num * unitsPerOne) den < rankCount ↔ num < den * overflow := by
  have hcount : 0 < rankCount := by decide
  have hodd : (rankCount - 1) % 2 = 1 := by decide
  have hunits : 0 < 2 * unitsPerOne := Nat.mul_pos Nat.two_pos unitsPerOne_pos
  have hleft : 2 * (num * unitsPerOne) = num * (2 * unitsPerOne) := by ring
  have hright : den * (2 * (overflow * unitsPerOne)) = den * overflow * (2 * unitsPerOne) := by ring
  rw [Nat.lt_iff_le_pred hcount, nearestRank_le_iff _ _ h, twiceMiddle_greatest, hodd, hleft,
    hright, Nat.mul_lt_mul_right hunits]
  omega

theorem ofRatio_of_lt (negative : Bool) (num den : Nat) (hden : 0 < den)
    (h : num < den * overflow) : ∃ rank : Fin rankCount,
      ofRatio negative num den = .finite negative rank ∧
        rank.val = nearestRank (num * unitsPerOne) den := by
  have hrank := (nearestRank_lt_rankCount_iff num den hden).mpr h
  exact ⟨⟨_, hrank⟩, dif_pos hrank, rfl⟩

theorem ofRatio_of_le (negative : Bool) (num den : Nat) (hden : 0 < den)
    (h : den * overflow ≤ num) : ofRatio negative num den = .infinite negative := by
  have hrank : ¬ nearestRank (num * unitsPerOne) den < rankCount := by
    rw [nearestRank_lt_rankCount_iff num den hden]
    omega
  exact dif_neg hrank

end Binary64
end RetrySchedule
