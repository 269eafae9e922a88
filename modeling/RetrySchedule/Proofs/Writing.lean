import RetrySchedule.Proofs.Counting
import RetrySchedule.Proofs.Reading.Expression

namespace RetrySchedule
open Term

namespace Tier

/-- The tier with a wait of zero counted in seconds. -/
def canonical (tier : Tier) : Tier :=
  { tier with scale := if tier.magnitude = 0 then .seconds else tier.scale }

theorem fits_iff_length (tier : Tier) : tier.fits ↔
    (Numeral.ofNat tier.magnitude).length ≤ Numeral.digitLimit ∧
      (Numeral.ofNat tier.count).length ≤ Numeral.digitLimit := by
  rw [fits_iff, Numeral.length_ofNat_le_iff, Numeral.length_ofNat_le_iff]

end Tier

namespace Schedule

def canonical (s : Schedule) : Schedule where
  tiers := s.tiers.map Tier.canonical
  tiers_ne_nil := by simpa using s.tiers_ne_nil
  bounded_before_last := by
    intro tier htier
    rw [← List.map_dropLast] at htier
    obtain ⟨original, horiginal, rfl⟩ := List.mem_map.mp htier
    exact s.bounded_before_last original horiginal

end Schedule

namespace Term.Tree

def ofTier (tier : Tier) : Tree where
  amount :=
    if h : 0 < tier.magnitude then .measured (.ofNat tier.magnitude h) tier.scale else .zero
  rate := if tier.count = 1 then none else some (.ofNat tier.count tier.count_pos)
  marked := tier.isOpen

theorem amount_ofTier_text (tier : Tier) : (ofTier tier).amount.text =
    if tier.magnitude = 0 then ['0'] else Numeral.ofNat tier.magnitude ++ tier.scale.symbol := by
  rcases Nat.eq_zero_or_pos tier.magnitude with hzero | hpos
  · simp only [ofTier, hzero, Nat.lt_irrefl, dite_false, if_true]
    rfl
  · simp only [ofTier, hpos, dite_true, Nat.ne_of_gt hpos, if_false, Amount.text,
      Counting.digits_ofNat]

theorem assemble_eq (amount : Text) (rate : Option Counting) (extent : Extent) :
    Tier.assemble amount (rate.map Counting.digits) extent =
      amount ++ rateText rate ++ markText (extent == .unbounded) := by
  cases rate <;> cases extent <;> rfl

theorem text_ofTier (tier : Tier) : (ofTier tier).text = tier.text := by
  have hrate : (ofTier tier).rate.map Counting.digits =
      if tier.count = 1 then none else some (Numeral.ofNat tier.count) := by
    by_cases hone : tier.count = 1
    · simp only [ofTier, hone, if_true, Option.map_none]
    · simp only [ofTier, hone, if_false, Option.map_some, Counting.digits_ofNat]
  rw [Tier.text, ← hrate, assemble_eq, ← amount_ofTier_text]
  rfl

theorem count_ofTier (tier : Tier) : (ofTier tier).count = tier.count := by
  by_cases hone : tier.count = 1
  · simp only [count, ofTier, hone, if_true]
    rfl
  · simp only [count, ofTier, hone, if_false, Option.elim_some, Counting.value_ofNat]

theorem short_ofTier (tier : Tier) (h : tier.fits) : (ofTier tier).Short := by
  obtain ⟨hmagnitude, hcount⟩ := tier.fits_iff_length.mp h
  intro n hn
  rcases List.mem_append.mp hn with hn | hn
  · by_cases hpos : 0 < tier.magnitude
    · simp only [ofTier, hpos, dite_true, Amount.numeral, Option.toList_some,
        List.mem_singleton] at hn
      rwa [hn, Counting.digits_ofNat]
    · simp [ofTier, hpos, Amount.numeral] at hn
  · by_cases hone : tier.count = 1
    · simp [ofTier, hone] at hn
    · simp only [ofTier, hone, if_false, Option.toList_some, List.mem_singleton] at hn
      rwa [hn, Counting.digits_ofNat]

/-- A term denotes the tier that it is written for, if an open tier stands last. -/
theorem tier_ofTier (tier : Tier) (isLast : Bool)
    (h : isLast = false → tier.extent = .bounded) : (ofTier tier).tier isLast = tier.canonical := by
  have hamount : (ofTier tier).amount.magnitude = tier.magnitude ∧
      (ofTier tier).amount.scale = tier.canonical.scale := by
    rcases Nat.eq_zero_or_pos tier.magnitude with hzero | hpos
    · simp [ofTier, Tier.canonical, hzero, Amount.magnitude, Amount.scale]
    · simp [ofTier, Tier.canonical, hpos, Nat.ne_of_gt hpos, Amount.magnitude, Amount.scale,
        Counting.value_ofNat]
  have hextent : (if (ofTier tier).marked && isLast then .unbounded else .bounded) =
      tier.extent := by
    cases isLast with
    | true => cases he : tier.extent <;> simp [ofTier, Tier.isOpen, he]
    | false => simp [h rfl]
  unfold Tree.tier
  simp only [hamount.1, hamount.2, count_ofTier, hextent]
  rfl

theorem canonical_tier (tree : Tree) (isLast : Bool) :
    (tree.tier isLast).canonical = tree.tier isLast := by
  obtain ⟨_ | ⟨n, scale⟩, rate, marked⟩ := tree
  · rfl
  · have hpos : n.value ≠ 0 := Nat.ne_of_gt n.value_pos
    simp [Tier.canonical, tier, Amount.magnitude, Amount.scale, hpos]

/-- The term without a rate of one, and without its marker unless it is the last one. -/
def normal (tree : Tree) (isLast : Bool) : Tree where
  amount := tree.amount
  rate := tree.rate.filter (·.value != 1)
  marked := tree.marked && isLast

theorem ofTier_tier (tree : Tree) (isLast : Bool) :
    ofTier (tree.tier isLast) = tree.normal isLast := by
  have hamount : (ofTier (tree.tier isLast)).amount = tree.amount := by
    cases ha : tree.amount with
    | zero => simp [ofTier, tier, ha, Amount.magnitude]
    | measured n scale =>
      simp [ofTier, tier, ha, Amount.magnitude, Amount.scale, n.value_pos, Counting.ofNat_value]
  have hrate : (ofTier (tree.tier isLast)).rate = tree.rate.filter (·.value != 1) := by
    cases hrate : tree.rate with
    | none => simp [ofTier, tier, count, hrate]
    | some n =>
      by_cases hone : n.value = 1
      · simp [ofTier, tier, count, hrate, hone, Option.filter_some]
      · simp [ofTier, tier, count, hrate, hone, Option.filter_some, Counting.ofNat_value]
  have hmarked : (ofTier (tree.tier isLast)).marked = (tree.marked && isLast) := by
    simp only [ofTier, Tier.isOpen, tier]
    cases tree.marked && isLast <;> rfl
  rw [normal, ← hamount, ← hrate, ← hmarked]

theorem text_tier (tree : Tree) (isLast : Bool) :
    (tree.tier isLast).text = (tree.normal isLast).text := by
  rw [← text_ofTier, ofTier_tier]

theorem fits_tier (tree : Tree) (isLast : Bool) (h : tree.Short) :
    (tree.tier isLast).fits := by
  rw [Tier.fits_iff_length]
  constructor
  · cases ha : tree.amount with
    | zero => simp [tier, ha, Amount.magnitude, Numeral.ofNat, Numeral.digitLimit]
    | measured n scale =>
      have hn := h n (by simp [numerals, ha, Amount.numeral])
      simpa only [tier, ha, Amount.magnitude, Counting.numeral_value] using hn
  · cases hrate : tree.rate with
    | none => simp [tier, count, hrate, Numeral.ofNat, Numeral.digitLimit, Nat.toDigits_of_lt_base]
    | some n =>
      have hn := h n (by simp [numerals, hrate])
      simpa only [tier, count, hrate, Option.elim_some, Counting.numeral_value] using hn

end Term.Tree

namespace Schedule

theorem text_eq_joined (s : Schedule) :
    s.text = [separator].intercalate ((s.tiers.map Tree.ofTier).map Tree.text) := by
  unfold text
  rw [List.map_map]
  congr 1
  exact List.map_congr_left fun tier _ => (Tree.text_ofTier tier).symm

theorem tiersOf_ofTier (tiers : List Tier) (h : ∀ tier ∈ tiers.dropLast, tier.extent = .bounded) :
    tiersOf (tiers.map Tree.ofTier) = tiers.map Tier.canonical := by
  rw [tiersOf, mapLast_map]
  rcases List.eq_nil_or_concat tiers with rfl | ⟨before, last, rfl⟩
  · rfl
  · rw [List.concat_eq_append] at h ⊢
    rw [List.dropLast_concat] at h
    rw [mapLast_concat, List.map_append, List.map_singleton,
      Tree.tier_ofTier last true Bool.noConfusion]
    congr 1
    exact List.map_congr_left fun tier htier =>
      Tree.tier_ofTier tier false fun _ => h tier htier

theorem canonical_ofTrees (trees : List Tree) (h : trees ≠ []) :
    (ofTrees trees h).canonical = ofTrees trees h := by
  have htiers : (tiersOf trees).map Tier.canonical = tiersOf trees := by
    rw [tiersOf, map_mapLast]
    simp only [Tree.canonical_tier]
  simp only [canonical, ofTrees, htiers]

theorem fits_of_mem_tiersOf (trees : List Tree) (h : ∀ tree ∈ trees, tree.Short) (tier : Tier)
    (htier : tier ∈ tiersOf trees) : tier.fits := by
  obtain ⟨tree, htree, isLast, rfl⟩ := mem_mapLast _ _ htier
  exact tree.fits_tier isLast (h tree htree)

end Schedule
end RetrySchedule
