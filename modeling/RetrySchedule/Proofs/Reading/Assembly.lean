import RetrySchedule.Proofs.Reading.RoundTrip

namespace RetrySchedule.Schedule
open Term

/-- The text is read, by itself and under some policy, as this one tier. -/
def ReadsAlone (piece : Text) (tier : Tier) : Prop :=
  ∃ (policy : Policy) (s : Schedule), (read policy piece).result = .ok s ∧ s.tiers = [tier]

theorem sound_singleton (policy : Policy) {tree : Tree} (h : tree.Short) : Sound policy [tree] := by
  refine ⟨?_, ?_⟩
  · intro other hother
    rwa [List.mem_singleton.mp hother]
  · intro _ other hother
    exact absurd hother List.not_mem_nil

theorem readsAlone_iff {piece : Text} {tier : Tier} : ReadsAlone piece tier ↔
    ∃ tree : Tree, piece = tree.text ∧ tree.Short ∧ tier = tree.tier true := by
  constructor
  · rintro ⟨policy, s, hread, hsingle⟩
    obtain ⟨trees, hlegible, rfl⟩ := exists_trees_of_read hread
    have hlength : trees.length = 1 := by
      rw [← length_mapLast Tree.tier trees]
      exact congrArg List.length hsingle
    obtain ⟨tree, rfl⟩ := List.length_eq_one_iff.mp hlength
    refine ⟨tree, ?_, hlegible.short tree (List.mem_cons_self ..), ?_⟩
    -- A single term leaves no separator, and no white space is around an expression that is read.
    · obtain ⟨whole, hwhole, htrim⟩ := List.map_eq_singleton_iff.mp hlegible.spelled
      have hjoin : [separator].intercalate (piece.splitOn separator) = piece :=
        List.intercalate_splitOn separator
      rw [hwhole, List.intercalate_singleton] at hjoin
      rw [← htrim, hjoin, Text.trim_of_solid piece hlegible.solid]
    · exact (List.singleton_inj.mp hsingle).symm
  · rintro ⟨tree, rfl, hshort, rfl⟩
    have hcount : tree.count < 10 ^ Numeral.digitLimit :=
      ((tree.tier true).fits_iff.mp (tree.fits_tier true hshort)).2
    have hlegible := legible_joined ⟨true⟩ [tree] (by simp) (sound_singleton ⟨true⟩ hshort)
      (by simpa using hcount)
    rw [List.map_singleton, List.intercalate_singleton] at hlegible
    exact ⟨⟨true⟩, _, hlegible.read, rfl⟩

theorem exists_trees_of_readsAlone {pieces : List Text} {singles : List Tier}
    (h : List.Forall₂ ReadsAlone pieces singles) : ∃ trees : List Tree,
      pieces = trees.map Tree.text ∧ singles = trees.map (·.tier true) ∧
        ∀ tree ∈ trees, tree.Short := by
  induction h with
  | nil => exact ⟨[], rfl, rfl, by simp⟩
  | cons hpiece _ ih =>
    obtain ⟨tree, rfl, hshort, rfl⟩ := readsAlone_iff.mp hpiece
    obtain ⟨trees, rfl, rfl, hshorts⟩ := ih
    exact ⟨tree :: trees, rfl, rfl, List.forall_mem_cons.mpr ⟨hshort, hshorts⟩⟩

theorem marked_of_bounded {tree : Tree} (h : (tree.tier true).extent = .bounded) :
    tree.marked = false := by
  cases hmarked : tree.marked with
  | false => rfl
  | true => simp [Tree.tier, hmarked] at h

section
variable {trees : List Tree}
  (hclosed : ∀ tier ∈ (trees.map (·.tier true)).dropLast, tier.extent = .bounded)
include hclosed

theorem unmarked_of_closed : ∀ tree ∈ trees.dropLast, tree.marked = false := by
  intro tree htree
  apply marked_of_bounded
  apply hclosed
  rw [← List.map_dropLast]
  exact List.mem_map_of_mem htree

theorem tiersOf_of_closed : tiersOf trees = trees.map (·.tier true) := by
  have hunmarked := unmarked_of_closed hclosed
  rcases List.eq_nil_or_concat trees with rfl | ⟨before, last, rfl⟩
  · rfl
  · rw [List.concat_eq_append] at hunmarked ⊢
    rw [List.dropLast_concat] at hunmarked
    rw [tiersOf, mapLast_concat, List.map_append, List.map_singleton]
    congr 1
    apply List.map_congr_left
    intro tree htree
    simp only [Tree.tier, hunmarked tree htree, Bool.false_and]

end

theorem sum_count_of_tiers (trees : List Tree) :
    ((trees.map (·.tier true)).map Tier.count).sum = (trees.map Tree.count).sum := by
  rw [List.map_map]
  rfl

theorem read_joined_of_large (policy : Policy) (trees : List Tree) (hne : trees ≠ [])
    (hsound : Sound policy trees)
    (hlarge : 10 ^ Numeral.digitLimit ≤ (trees.map Tree.count).sum) :
    (read policy ([separator].intercalate (trees.map Tree.text))).result =
      .error (.numeral .tooLongToWrite) := by
  have hterms := terms_joined trees hne
  have houtline := hasOutline_of_solid _ trees hterms (solid_joined trees)
  exact read_of_large_budget policy _ trees houtline hterms hsound hlarge

/-- Texts of one term each, all but the last one closed, make an expression of their tiers, provided
that the sum of the counts can be written. The tiers are a schedule in any case: where the reading
fails it is the note on the schedule that cannot be put into words. -/
theorem read_assembled (pieces : List Text) (singles : List Tier) (hne : pieces ≠ [])
    (halone : List.Forall₂ ReadsAlone pieces singles)
    (hclosed : ∀ tier ∈ singles.dropLast, tier.extent = .bounded) (policy : Policy) :
    ∃ s : Schedule, s.tiers = singles ∧ ofTiers singles = .ok s ∧
      ((singles.map Tier.count).sum < 10 ^ Numeral.digitLimit →
        (read policy ([separator].intercalate pieces)).result = .ok s) ∧
      (10 ^ Numeral.digitLimit ≤ (singles.map Tier.count).sum →
        (Note.scheduleRead ([separator].intercalate pieces) singles.length s.budget
            s.hasOpenEnd).message = .error (.numeral .tooLongToWrite) ∧
          (read policy ([separator].intercalate pieces)).result =
            .error (.numeral .tooLongToWrite)) ∧
      ((∃ t, (read policy ([separator].intercalate pieces)).result = .ok t) ↔
        (singles.map Tier.count).sum < 10 ^ Numeral.digitLimit) := by
  obtain ⟨trees, rfl, rfl, hshort⟩ := exists_trees_of_readsAlone halone
  have htrees : trees ≠ [] := by simpa using hne
  have hsound : Sound policy trees := ⟨hshort, fun _ => unmarked_of_closed hclosed⟩
  have htiers := tiersOf_of_closed hclosed
  rw [sum_count_of_tiers]
  have hsmall : (trees.map Tree.count).sum < 10 ^ Numeral.digitLimit →
      (read policy ([separator].intercalate (trees.map Tree.text))).result =
        .ok (ofTrees trees htrees) :=
    fun h => (legible_joined policy trees htrees hsound h).read
  have hlarge : 10 ^ Numeral.digitLimit ≤ (trees.map Tree.count).sum →
      (read policy ([separator].intercalate (trees.map Tree.text))).result =
        .error (.numeral .tooLongToWrite) :=
    read_joined_of_large policy trees htrees hsound
  refine ⟨ofTrees trees htrees, htiers, ?_, hsmall, fun h => ⟨?_, hlarge h⟩, ?_, ?_⟩
  · rw [← htiers]
    exact ofTiers_tiersOf trees htrees
  · have hfits : Numeral.fits (ofTrees trees htrees).budget = false := by
      rw [← Bool.not_eq_true, Numeral.fits_natCast, budget_ofTrees]
      exact Nat.not_lt.mpr h
    exact Note.message_scheduleRead_of_not_fits _ _ _ hfits
  · rintro ⟨t, ht⟩
    by_contra h
    cases (hlarge (Nat.not_lt.mp h)).symm.trans ht
  · intro h
    exact ⟨_, hsmall h⟩

theorem everyMinute_assembled :
    List.Forall₂ ReadsAlone ["0/2".toList, "1m/2+".toList]
      [⟨0, .seconds, 2, .bounded, Nat.two_pos⟩, ⟨1, .minutes, 2, .unbounded, Nat.two_pos⟩] ∧
    ∃ s : Schedule, (read ⟨true⟩ "0/2,1m/2+".toList).result = .ok s ∧
      s.tiers =
        [⟨0, .seconds, 2, .bounded, Nat.two_pos⟩, ⟨1, .minutes, 2, .unbounded, Nat.two_pos⟩] := by
  have hfirst := read_text_of_short ⟨true⟩
    ⟨[⟨0, .seconds, 2, .bounded, Nat.two_pos⟩], by decide, by decide⟩
    ⟨by decide +kernel, by decide +kernel⟩
  have hsecond := read_text_of_short ⟨true⟩
    ⟨[⟨1, .minutes, 2, .unbounded, Nat.two_pos⟩], by decide, by decide⟩
    ⟨by decide +kernel, by decide +kernel⟩
  have halone : List.Forall₂ ReadsAlone ["0/2".toList, "1m/2+".toList]
      [⟨0, .seconds, 2, .bounded, Nat.two_pos⟩, ⟨1, .minutes, 2, .unbounded, Nat.two_pos⟩] :=
    .cons ⟨⟨true⟩, _, hfirst, rfl⟩ (.cons ⟨⟨true⟩, _, hsecond, rfl⟩ .nil)
  obtain ⟨s, htiers, -, hread, -⟩ := read_assembled _ _ (by simp) halone (by decide) ⟨true⟩
  exact ⟨halone, s, hread (by decide +kernel), htiers⟩

/-- The greatest count that can be written and one attempt more: both terms are read alone, but the
sum of their counts is the least number that cannot be written. -/
theorem greatest_count_not_assembled : ∃ first second : Tier,
    List.Forall₂ ReadsAlone
      ["0/".toList ++ Numeral.ofNat (10 ^ Numeral.digitLimit - 1), "0".toList] [first, second] ∧
    first.extent = .bounded ∧
    ¬ ∃ s, (read ⟨true⟩ ([separator].intercalate
      ["0/".toList ++ Numeral.ofNat (10 ^ Numeral.digitLimit - 1), "0".toList])).result = .ok s := by
  have hlimit : 1 < 10 ^ Numeral.digitLimit := Nat.one_lt_pow (by decide) (by decide)
  have hpos : 0 < 10 ^ Numeral.digitLimit - 1 := by omega
  let full : Tree := ⟨.zero, some (Counting.ofNat _ hpos), false⟩
  let one : Tree := ⟨.zero, none, false⟩
  have hfull : full.text = "0/".toList ++ Numeral.ofNat (10 ^ Numeral.digitLimit - 1) := by
    simp [full, Tree.text, Tree.rateText, Tree.markText, Amount.text, Counting.digits_ofNat]
  have hshort : full.Short := by
    intro n hn
    obtain rfl := List.mem_singleton.mp hn
    rw [Counting.digits_ofNat, Numeral.length_ofNat_le_iff]
    omega
  have hone : one.Short := fun n hn => absurd hn List.not_mem_nil
  have hsum : ([full, one].map Tree.count).sum = 10 ^ Numeral.digitLimit := by
    simp only [full, one, Tree.count, List.map_cons, List.map_nil, List.sum_cons, List.sum_nil,
      Option.elim_some, Option.elim_none, Counting.value_ofNat]
    omega
  have hsound : Sound ⟨true⟩ [full, one] := by
    refine ⟨?_, ?_⟩
    · exact List.forall_mem_cons.mpr ⟨hshort, List.forall_mem_singleton.mpr hone⟩
    · intro _ tree htree
      rw [List.mem_singleton.mp htree]
  have hfault := read_joined_of_large ⟨true⟩ [full, one] (by simp) hsound hsum.ge
  rw [List.map_cons, List.map_singleton, hfull] at hfault
  refine ⟨full.tier true, one.tier true, ?_, rfl, ?_⟩
  · refine .cons (readsAlone_iff.mpr ⟨full, hfull.symm, hshort, rfl⟩) (.cons ?_ .nil)
    exact readsAlone_iff.mpr ⟨one, rfl, hone, rfl⟩
  · rintro ⟨s, hs⟩
    cases hs.symm.trans hfault

end RetrySchedule.Schedule
