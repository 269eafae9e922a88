import RetrySchedule.Proofs.Reading.Language
import RetrySchedule.Proofs.Writing

namespace RetrySchedule.Schedule
open Term

theorem legible_joined (policy : Policy) (trees : List Tree) (hne : trees ≠ [])
    (hsound : Sound policy trees)
    (hbudget : (trees.map Tree.count).sum < 10 ^ Numeral.digitLimit) :
    Legible policy ([separator].intercalate (trees.map Tree.text)) trees := by
  have hterms := terms_joined trees hne
  have houtline := hasOutline_of_solid _ trees hterms (solid_joined trees)
  exact legible_of_sound houtline hterms hsound hbudget

theorem read_text_of_short (policy : Policy) (s : Schedule) (h : s.Short) :
    (read policy s.text).result = .ok s.canonical := by
  have hne : s.tiers.map Tree.ofTier ≠ [] := by simpa using s.tiers_ne_nil
  have hshort : ∀ tree ∈ s.tiers.map Tree.ofTier, tree.Short := by
    intro tree htree
    obtain ⟨tier, htier, rfl⟩ := List.mem_map.mp htree
    exact Tree.short_ofTier tier (h.tiers tier htier)
  have hplaced : ∀ tree ∈ (s.tiers.map Tree.ofTier).dropLast, tree.marked = false := by
    intro tree htree
    rw [← List.map_dropLast] at htree
    obtain ⟨tier, htier, rfl⟩ := List.mem_map.mp htree
    have hbounded := s.bounded_before_last tier htier
    simp only [Tree.ofTier, Tier.isOpen, hbounded]
    rfl
  have hcounts : (s.tiers.map Tree.ofTier).map Tree.count = s.tiers.map Tier.count := by
    rw [List.map_map]
    exact List.map_congr_left fun tier _ => Tree.count_ofTier tier
  have hlegible := legible_joined policy _ hne ⟨hshort, fun _ => hplaced⟩
    (by rw [hcounts, ← s.budget_eq]; exact h.budget)
  rw [text_eq_joined, hlegible.read]
  simp only [ofTrees, tiersOf_ofTier _ s.bounded_before_last]
  rfl

section
variable {policy : Policy} {expression : Text} {s : Schedule}

theorem short_of_result (h : (read policy expression).result = .ok s) : s.Short := by
  obtain ⟨trees, hlegible, rfl⟩ := exists_trees_of_read h
  refine ⟨fits_of_mem_tiersOf trees hlegible.short, ?_⟩
  rw [budget_ofTrees]
  exact hlegible.budget

theorem canonical_of_result (h : (read policy expression).result = .ok s) : s.canonical = s := by
  obtain ⟨trees, hlegible, rfl⟩ := exists_trees_of_read h
  exact canonical_ofTrees trees hlegible.ne_nil

/-- Under any policy the text of what was read is read as the same schedule. -/
theorem read_text_of_result (h : (read policy expression).result = .ok s) (other : Policy) :
    (read other s.text).result = .ok s := by
  rw [read_text_of_short other s (short_of_result h), canonical_of_result h]

theorem eq_of_text_eq {other : Policy} {given : Text} {t : Schedule}
    (hs : (read policy expression).result = .ok s) (ht : (read other given).result = .ok t)
    (h : s.text = t.text) : s = t := by
  have hread := read_text_of_result hs policy
  rw [h, read_text_of_result ht policy] at hread
  exact (Except.ok.inj hread).symm

end

/-- Reading undoes writing. A schedule within the digit limit is written and read back in canonical
form, whatever the policy; one that was read is read back as it is, so its text tells it from all
others that can be read. -/
theorem read_written :
    (∀ s : Schedule,
      (∀ tier ∈ s.tiers, (Numeral.ofNat tier.magnitude).length ≤ Numeral.digitLimit ∧
        (Numeral.ofNat tier.count).length ≤ Numeral.digitLimit) →
      s.budget < 10 ^ Numeral.digitLimit →
      ∃ written, s.write = .ok written ∧
        ∀ policy, (read policy written).result = .ok s.canonical) ∧
    (∀ (policy other : Policy) (expression : Text) (s : Schedule),
      (read policy expression).result = .ok s →
      ∃ written, s.write = .ok written ∧ (read other written).result = .ok s) ∧
    ∀ (policy other : Policy) (expression given : Text) (s t : Schedule),
      (read policy expression).result = .ok s → (read other given).result = .ok t →
      (s = t ↔ s.write = t.write) := by
  refine ⟨?_, ?_, ?_⟩
  · intro s hnumerals hbudget
    have hshort : s.Short :=
      ⟨fun tier htier => tier.fits_iff_length.mpr (hnumerals tier htier), hbudget⟩
    exact ⟨s.text, hshort.write, fun policy => read_text_of_short policy s hshort⟩
  · intro policy other expression s h
    exact ⟨s.text, (short_of_result h).write, read_text_of_result h other⟩
  · intro policy other expression given s t hs ht
    refine ⟨congrArg write, fun h => ?_⟩
    rw [(short_of_result hs).write, (short_of_result ht).write] at h
    exact eq_of_text_eq hs ht (Except.ok.inj h)

/-- Two attempts at once, then one every minute, with a wait of zero that is counted in hours. -/
def everyMinute : Schedule :=
  ⟨[⟨0, .hours, 2, .bounded, Nat.two_pos⟩, ⟨1, .minutes, 2, .unbounded, Nat.two_pos⟩],
    by decide, by decide⟩

theorem everyMinute_written :
    (∀ tier ∈ everyMinute.tiers, (Numeral.ofNat tier.magnitude).length ≤ Numeral.digitLimit ∧
      (Numeral.ofNat tier.count).length ≤ Numeral.digitLimit) ∧
    everyMinute.budget < 10 ^ Numeral.digitLimit ∧
    everyMinute.write = .ok "0/2,1m/2+".toList ∧
    ∀ policy, (read policy "0/2,1m/2+".toList).result =
      .ok ⟨[⟨0, .seconds, 2, .bounded, Nat.two_pos⟩, ⟨1, .minutes, 2, .unbounded, Nat.two_pos⟩],
        by decide, by decide⟩ := by
  have hnumerals : ∀ tier ∈ everyMinute.tiers,
      (Numeral.ofNat tier.magnitude).length ≤ Numeral.digitLimit ∧
        (Numeral.ofNat tier.count).length ≤ Numeral.digitLimit := by
    decide +kernel
  have hbudget : everyMinute.budget < 10 ^ Numeral.digitLimit := by decide +kernel
  obtain ⟨written, hwritten, hread⟩ := read_written.1 everyMinute hnumerals hbudget
  have hwrite : everyMinute.write = .ok "0/2,1m/2+".toList := by decide +kernel
  obtain rfl := Except.ok.inj (hwrite.symm.trans hwritten)
  exact ⟨hnumerals, hbudget, hwrite, hread⟩

theorem read_everyMinute (policy : Policy) :
    (read policy "0/2,1m/2+".toList).result = .ok everyMinute.canonical :=
  read_text_of_short policy everyMinute ⟨by decide +kernel, by decide +kernel⟩

end RetrySchedule.Schedule
