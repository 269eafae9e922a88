import RetrySchedule.Proofs.Grammar

namespace RetrySchedule.Term

theorem marked_divide_iff (t : Text) : (divide t).marked ↔ t.getLast? = some openSign := by
  rw [divide, splitMarker]
  by_cases hlast : t.getLast? = some openSign
  · simp [hlast]
  · simp [hlast]

theorem isSome_splitRate_iff (t : Text) : (splitRate t).2.isSome ↔ rateSign ∈ t := by
  rw [splitRate]
  split
  · rename_i hdrop
    have hnone := List.dropWhile_eq_nil_iff.mp hdrop
    refine iff_of_false Bool.false_ne_true fun hmem => ?_
    simpa using hnone rateSign hmem
  · rename_i sign rate hdrop
    refine iff_of_true rfl ?_
    have hhead := List.head?_dropWhile_not (· != rateSign) t
    rw [hdrop] at hhead
    obtain rfl : sign = rateSign := by simpa using hhead
    apply (List.dropWhile_suffix (· != rateSign)).mem
    rw [hdrop]
    exact List.mem_cons_self

theorem isSome_rate_divide_iff (t : Text) : (divide t).rate.isSome ↔
    rateSign ∈ if (divide t).marked then t.dropLast else t := by
  rw [divide, splitMarker]
  by_cases hlast : t.getLast? == some openSign
  · simp only [if_pos hlast, if_true]
    exact isSome_splitRate_iff _
  · simp only [if_neg hlast, Bool.false_eq_true, if_false]
    exact isSome_splitRate_iff _

/-- Only the shape of the signs that a text shows can be its shape. -/
theorem flags_of_hasShape {rated marked : Bool} {t : Text} (h : hasShape rated marked t) :
    (divide t).rate.isSome = rated ∧ (divide t).marked = marked := by
  obtain ⟨tree, rfl, rfl, rfl⟩ := (hasShape_iff rated marked t).mp h
  rw [divide_text]
  exact ⟨Option.isSome_map, rfl⟩

/-- The shapes divide the grammar: a term has exactly one of them, a text outside the grammar none,
and which one it is can be told from the signs of the text. The parts of a term are unique. -/
theorem shapes_divide_grammar (t : Text) :
    ((∃ rated marked, hasShape rated marked t) ↔ ∃ tree : Tree, t = tree.text) ∧
    (∀ rated marked, hasShape rated marked t ↔
      ∃ tree : Tree, t = tree.text ∧ tree.rate.isSome = rated ∧ tree.marked = marked) ∧
    (∀ rated marked rated' marked', hasShape rated marked t → hasShape rated' marked' t →
      rated = rated' ∧ marked = marked') ∧
    (∀ rated marked, hasShape rated marked t →
      (divide t).rate.isSome = rated ∧ (divide t).marked = marked) ∧
    ((divide t).marked ↔ t.getLast? = some '+') ∧
    ((divide t).rate.isSome ↔ '/' ∈ if (divide t).marked then t.dropLast else t) ∧
    ∀ tree other : Tree, t = tree.text → t = other.text → tree = other := by
  refine ⟨?_, fun rated marked => hasShape_iff rated marked t, ?_,
    fun rated marked h => flags_of_hasShape h, marked_divide_iff t, isSome_rate_divide_iff t, ?_⟩
  · constructor
    · rintro ⟨rated, marked, h⟩
      obtain ⟨tree, ht, -⟩ := (hasShape_iff rated marked t).mp h
      exact ⟨tree, ht⟩
    · rintro ⟨tree, ht⟩
      exact ⟨tree.rate.isSome, tree.marked, (hasShape_iff _ _ t).mpr ⟨tree, ht, rfl, rfl⟩⟩
  · intro rated marked rated' marked' h h'
    obtain ⟨hrated, hmarked⟩ := flags_of_hasShape h
    obtain ⟨hrated', hmarked'⟩ := flags_of_hasShape h'
    exact ⟨hrated.symm.trans hrated', hmarked.symm.trans hmarked'⟩
  · intro tree other ht hother
    exact Tree.text_injective (ht.symm.trans hother)

/-- A plus sign in front of the last place leaves the text unmarked, and then no shape fits. -/
example : divide "1m+/3".toList = ⟨"1m+".toList, some "3".toList, false⟩ ∧
    ∀ rated marked, hasShape rated marked "1m+/3".toList = false := by
  decide

end RetrySchedule.Term
