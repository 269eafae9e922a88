import RetrySchedule.Plan
import RetrySchedule.Proofs.Reading.Language
import RetrySchedule.Proofs.Reading.Markers

namespace RetrySchedule.Schedule
open Term

/-- The expression without the markers of its terms, that of the last term excepted. -/
def erased (expression : Text) : Text :=
  [separator].intercalate
    (mapLast (fun piece isLast => if isLast then piece else unmark piece)
      (expression.splitOn separator))

/-- The terms before the last one that have a marker. -/
def misplaced (expression : Text) : List Text :=
  (terms expression).dropLast.filter fun term => term.getLast? == some openSign

section
variable {expression : Text} {trees : List Tree}

theorem erased_eq_intercalate (padded : List Padded)
    (h : expression.splitOn separator = padded.map Padded.text) :
    erased expression =
      [separator].intercalate ((mapLast Padded.settled padded).map Padded.text) := by
  have hpiece : ∀ (p : Padded) (isLast : Bool),
      (if isLast then p.text else unmark p.text) = (p.settled isLast).text := by
    intro p isLast
    cases isLast with
    | true => rw [if_pos rfl, p.settled_true]
    | false => rw [if_neg Bool.false_ne_true, p.unmark_text]
  rw [erased, h, mapLast_map, map_mapLast]
  simp only [hpiece]

theorem terms_erased (h : terms expression = trees.map Tree.text) :
    terms (erased expression) = (mapLast Tree.settled trees).map Tree.text := by
  obtain ⟨padded, hne, hpieces, -, rfl⟩ := exists_padded_of_terms h
  rw [erased_eq_intercalate padded hpieces, terms_intercalate]
  · rw [List.map_map, mapLast_map, map_mapLast, map_mapLast]
    simp only [Function.comp_apply, Padded.trim_text]
    rfl
  · rw [← List.length_pos_iff, List.length_map, length_mapLast]
    exact List.length_pos_iff.mpr hne
  · intro piece hpiece
    obtain ⟨p, -, rfl⟩ := List.mem_map.mp hpiece
    exact p.separator_not_mem_text

theorem solid_erased (h : terms expression = trees.map Tree.text) (hsolid : expression.Solid) :
    (erased expression).Solid := by
  obtain ⟨padded, -, hpieces, rfl, rfl⟩ := exists_padded_of_terms h
  have hleads : (mapLast Padded.settled padded).map Padded.lead = padded.map Padded.lead :=
    (map_mapLast Padded.lead Padded.settled padded).trans (mapLast_const Padded.lead padded)
  have htrails : (mapLast Padded.settled padded).map Padded.trail = padded.map Padded.trail :=
    (map_mapLast Padded.trail Padded.settled padded).trans (mapLast_const Padded.trail padded)
  rwa [erased_eq_intercalate padded hpieces, solid_padded_iff, hleads, htrails,
    ← solid_padded_iff]

theorem mapLast_settled_eq_self_iff (trees : List Tree) :
    mapLast Tree.settled trees = trees ↔ ∀ tree ∈ trees.dropLast, tree.marked = false := by
  simp only [mapLast_eq_self_iff Tree.settled Tree.settled_true, Tree.settled_false_eq_self_iff]

theorem Legible.erased {policy : Policy} (h : Legible policy expression trees) :
    Legible ⟨true⟩ (erased expression) (mapLast Tree.settled trees) := by
  have hterms := terms_erased h.spelled
  have hsolid := solid_erased h.spelled h.solid
  have houtline := hasOutline_of_solid _ _ hterms hsolid
  have hshort : ∀ tree ∈ mapLast Tree.settled trees, tree.Short := by
    intro tree htree
    obtain ⟨original, horiginal, isLast, rfl⟩ := mem_mapLast _ _ htree
    exact h.short original horiginal
  have hplaced : ∀ tree ∈ (mapLast Tree.settled trees).dropLast, tree.marked = false := by
    rw [← mapLast_settled_eq_self_iff, mapLast_mapLast]
    simp only [Tree.settled_settled]
  have hcounts : (mapLast Tree.settled trees).map Tree.count = trees.map Tree.count :=
    (map_mapLast Tree.count Tree.settled trees).trans (mapLast_const Tree.count trees)
  exact legible_of_sound houtline hterms ⟨hshort, fun _ => hplaced⟩ (hcounts ▸ h.budget)

theorem ofTrees_settled (hne : trees ≠ []) (hne' : mapLast Tree.settled trees ≠ []) :
    ofTrees (mapLast Tree.settled trees) hne' = ofTrees trees hne := by
  simp only [ofTrees, tiersOf, mapLast_mapLast, Tree.tier_settled]

theorem Legible.of_strict (h : Legible ⟨true⟩ expression trees) (policy : Policy) :
    Legible policy expression trees :=
  { h with placed := fun _ => h.placed rfl }

theorem Legible.of_placed {policy : Policy} (h : Legible policy expression trees)
    (hplaced : ∀ tree ∈ trees.dropLast, tree.marked = false) (other : Policy) :
    Legible other expression trees :=
  legible_of_sound h.hasOutline h.spelled ⟨h.short, fun _ => hplaced⟩ h.budget

theorem misplaced_eq (h : terms expression = trees.map Tree.text) :
    misplaced expression = (trees.dropLast.filter Tree.marked).map Tree.text := by
  have hmarked :
      ((fun term : Text => term.getLast? == some openSign) ∘ Tree.text) = Tree.marked := by
    funext tree
    rw [Function.comp_apply, Bool.eq_iff_iff, tree.marked_iff, beq_iff_eq]
    rfl
  rw [misplaced, h, ← List.map_dropLast, List.filter_map, hmarked]

theorem ignoredNotes_eq (h : terms expression = trees.map Tree.text) :
    ignoredNotes expression trees = (misplaced expression).map (.markerIgnored · expression) := by
  have hnotes : ∀ l : List Tree, (l.map (ignoredNote expression · false)).flatten =
      ((l.filter Tree.marked).map Tree.text).map (.markerIgnored · expression) := by
    intro l
    induction l with
    | nil => rfl
    | cons tree l ih =>
      rw [List.map_cons, List.flatten_cons, ih]
      cases hmarked : tree.marked <;> simp [ignoredNote, hmarked]
  rw [misplaced_eq h]
  rcases List.eq_nil_or_concat trees with rfl | ⟨before, last, rfl⟩
  · rfl
  · have hlast : ignoredNote expression last true = [] := by simp [ignoredNote]
    rw [ignoredNotes, List.concat_eq_append, mapLast_concat, List.dropLast_concat, hlast,
      List.flatten_append, hnotes]
    simp

theorem count_openSign_of_terms (h : terms expression = trees.map Tree.text) :
    expression.count openSign = (trees.map fun tree => tree.marked.toNat).sum := by
  obtain ⟨padded, -, -, rfl, rfl⟩ := exists_padded_of_terms h
  rw [count_intercalate separator openSign (by decide), List.map_map, List.map_map]
  congr 1
  exact List.map_congr_left fun p _ => p.count_openSign

theorem count_openSign_erased (h : terms expression = trees.map Tree.text) :
    expression.count openSign =
      (erased expression).count openSign + (misplaced expression).length := by
  rw [count_openSign_of_terms h, count_openSign_of_terms (terms_erased h), misplaced_eq h,
    List.length_map]
  have hsum : ∀ l : List Tree,
      (l.map fun tree => tree.marked.toNat).sum = (l.filter Tree.marked).length := by
    intro l
    induction l with
    | nil => rfl
    | cons tree l ih =>
      rw [List.map_cons, List.sum_cons, ih]
      cases hmarked : tree.marked <;> simp [hmarked, Nat.add_comm]
  have hnone : ∀ l : List Tree, (l.map (·.settled false)).filter Tree.marked = [] := by
    intro l
    simp [List.filter_eq_nil_iff, Tree.settled]
  rcases List.eq_nil_or_concat trees with rfl | ⟨before, last, rfl⟩
  · rfl
  · rw [hsum, hsum, List.concat_eq_append, mapLast_concat, List.dropLast_concat, Tree.settled_true,
      List.filter_append, List.filter_append, hnone, List.nil_append, List.length_append,
      Nat.add_comm]

theorem erased_eq_self_iff (h : terms expression = trees.map Tree.text) :
    erased expression = expression ↔ ∀ tree ∈ trees.dropLast, tree.marked = false := by
  constructor
  · intro he
    have hterms := terms_erased h
    rw [he] at hterms
    exact (mapLast_settled_eq_self_iff trees).mp (eq_of_spelled hterms h)
  · intro hplaced
    -- Equal terms are not enough here: the white space around them must be the same as well.
    obtain ⟨padded, -, hpieces, hjoin, rfl⟩ := exists_padded_of_terms h
    have hsettled : mapLast Padded.settled padded = padded := by
      rw [mapLast_eq_self_iff Padded.settled Padded.settled_true]
      intro p hp
      apply p.settled_false_of_unmarked
      apply hplaced
      rw [← List.map_dropLast]
      exact List.mem_map_of_mem hp
    rw [erased_eq_intercalate padded hpieces, hsettled, hjoin]

theorem Legible.notes {policy : Policy} (h : Legible policy expression trees) :
    (Schedule.read policy expression).notes =
      (misplaced expression).map (.markerIgnored · expression) ++
        [.scheduleRead expression (ofTrees trees h.ne_nil).tiers.length
          (ofTrees trees h.ne_nil).budget (ofTrees trees h.ne_nil).hasOpenEnd] := by
  have hnotes := (read_of_sound policy expression trees h.hasOutline h.spelled h.sound h.ne_nil
    h.budget).2
  have hlength : (ofTrees trees h.ne_nil).tiers.length = trees.length :=
    length_mapLast Tree.tier trees
  rw [hnotes, ignoredNotes_eq h.spelled, budget_ofTrees, hlength]

theorem Legible.misplaced_eq_nil (h : Legible ⟨true⟩ expression trees) :
    misplaced expression = [] := by
  rw [misplaced, List.filter_eq_nil_iff]
  intro term hterm
  rw [beq_iff_eq]
  exact h.placed rfl term hterm

theorem read_strict_iff (h : Legible ⟨false⟩ expression trees) :
    (∃ s, (read ⟨true⟩ expression).result = .ok s) ↔ erased expression = expression := by
  rw [erased_eq_self_iff h.spelled]
  constructor
  · rintro ⟨s, hs⟩
    obtain ⟨other, hstrict⟩ := exists_legible_of_read s hs
    rw [eq_of_spelled h.spelled hstrict.spelled]
    exact hstrict.sound.placed rfl
  · intro hplaced
    exact ⟨_, (h.of_placed hplaced ⟨true⟩).read⟩

/-- The schedule that is read does not depend on the policy. -/
theorem read_unique {p q : Policy} {s t : Schedule} (hs : (read p expression).result = .ok s)
    (ht : (read q expression).result = .ok t) : s = t := by
  obtain ⟨trees, hp, rfl⟩ := exists_trees_of_read hs
  obtain ⟨other, hq, rfl⟩ := exists_trees_of_read ht
  obtain rfl := eq_of_spelled hp.spelled hq.spelled
  rfl

end

theorem plan_of_read {policy : Policy} {expression : Text} {plan : Plan}
    (h : (Plan.read policy expression).result = .ok plan) :
    plan.expression = expression ∧ (read policy expression).result = .ok plan.schedule := by
  rw [Plan.read] at h
  cases hread : (read policy expression).result with
  | error fault =>
    rw [Outcome.result_bind_of_error _ _ _ hread] at h
    cases h
  | ok s =>
    rw [Outcome.result_bind_of_ok _ _ _ hread] at h
    cases h
    exact ⟨rfl, rfl⟩

theorem plan_read_of_read {policy : Policy} {expression : Text} {s : Schedule}
    (h : (read policy expression).result = .ok s) :
    (Plan.read policy expression).result = .ok ⟨expression, s⟩ := by
  rw [Plan.read, Outcome.result_bind_of_ok _ _ _ h]
  rfl

/-- Lenient reading is strict reading of the expression without its misplaced markers. -/
theorem lenient_reads_erased (expression : Text) :
    (∀ s, (read ⟨true⟩ expression).result = .ok s →
      (read ⟨false⟩ expression).result = .ok s ∧
        ∀ note ∈ (read ⟨false⟩ expression).notes, note.level ≠ .warning) ∧
    (∀ s, (read ⟨false⟩ expression).result = .ok s →
      (read ⟨true⟩ (erased expression)).result = .ok s ∧
      ((∃ t, (read ⟨true⟩ expression).result = .ok t) ↔ erased expression = expression) ∧
      (read ⟨false⟩ expression).notes =
        (misplaced expression).map (.markerIgnored · expression) ++
          [.scheduleRead expression s.tiers.length s.budget s.hasOpenEnd] ∧
      (read ⟨false⟩ expression).notes.map Note.level =
        List.replicate (misplaced expression).length .warning ++ [.debug] ∧
      expression.count openSign =
        (erased expression).count openSign + (misplaced expression).length) ∧
    (∀ fault, (read ⟨false⟩ expression).result = .error fault →
      ∃ blamed, (read ⟨true⟩ expression).result = .error blamed) ∧
    ∀ (p q : Policy) (other : Text) (a b : Plan), (Plan.read p expression).result = .ok a →
      (Plan.read q other).result = .ok b → a.expression = b.expression → a = b := by
  refine ⟨?_, ?_, ?_, ?_⟩
  · intro s hs
    obtain ⟨trees, hstrict⟩ := exists_legible_of_read s hs
    have hlenient := hstrict.of_strict ⟨false⟩
    rw [hlenient.notes, hstrict.misplaced_eq_nil]
    refine ⟨hlenient.read.trans (hstrict.read.symm.trans hs), ?_⟩
    simp [Note.level]
  · intro s hs
    obtain ⟨trees, hlenient⟩ := exists_legible_of_read s hs
    obtain rfl := Except.ok.inj (hlenient.read.symm.trans hs)
    have herased := hlenient.erased.read
    rw [ofTrees_settled hlenient.ne_nil] at herased
    refine ⟨herased, read_strict_iff hlenient, hlenient.notes, ?_,
      count_openSign_erased hlenient.spelled⟩
    rw [hlenient.notes]
    simp [Note.level, Function.comp_def]
  -- A strict reading that succeeds would make the lenient one succeed.
  · intro fault hfault
    cases hstrict : (read ⟨true⟩ expression).result with
    | error blamed => exact ⟨blamed, rfl⟩
    | ok s =>
      obtain ⟨trees, hlegible⟩ := exists_legible_of_read s hstrict
      cases hfault.symm.trans (hlegible.of_strict ⟨false⟩).read
  · intro p q other a b ha hb htext
    obtain ⟨rfl, hs⟩ := plan_of_read ha
    obtain ⟨rfl, ht⟩ := plan_of_read hb
    rw [← htext] at ht
    obtain ⟨expression, s⟩ := a
    obtain ⟨other, t⟩ := b
    obtain rfl : expression = other := htext
    obtain rfl : s = t := read_unique hs ht
    rfl

end RetrySchedule.Schedule
