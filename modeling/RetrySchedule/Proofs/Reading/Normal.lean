import RetrySchedule.Proofs.Reading.Markers
import RetrySchedule.Proofs.Reading.RoundTrip

namespace RetrySchedule
open Term

namespace Term

/-- A term without a rate of one, and without its marker unless it is the last one. -/
def normalTerm (term : Text) (isLast : Bool) : Text :=
  let body := Text.eraseSuffix [openSign] term
  let marker := if isLast then term.drop body.length else []
  Text.eraseSuffix [rateSign, '1'] body ++ marker

namespace Tree

/-- Only a rate of one ends as a rate of one does. -/
theorem eraseSuffix_rateOne (a : Amount) (rate : Option Counting) :
    Text.eraseSuffix [rateSign, '1'] (a.text ++ rateText rate) =
      a.text ++ rateText (rate.filter (·.value != 1)) := by
  have hslash : '/' ∉ a.text := a.not_mem_text (by decide) (by decide)
  cases rate with
  | none =>
    rw [Option.filter_none, rateText, List.append_nil]
    apply Text.eraseSuffix_of_not_suffix
    intro h
    exact hslash (h.subset (List.mem_cons_self ..))
  | some n =>
    by_cases hone : n.value = 1
    · have hrate : rateText (some n) = ['/', '1'] := by rw [rateText, n.value_eq_one_iff.mp hone]
      rw [Option.filter_some_neg (by simp [hone]), hrate, rateText, List.append_nil]
      exact Text.eraseSuffix_append a.text ['/', '1']
    · rw [Option.filter_some_pos (by simp [hone])]
      apply Text.eraseSuffix_of_not_suffix
      rintro ⟨front, hfront⟩
      obtain ⟨-, -, hdigits⟩ := (List.append_cons_inj_of_notMem hslash
        (n.not_mem_digits (by decide))).mp hfront.symm
      exact hone (n.value_eq_one_iff.mpr hdigits)

theorem text_normal (tree : Tree) (isLast : Bool) :
    (tree.normal isLast).text = normalTerm tree.text isLast := by
  have hmark : markText (tree.marked && isLast) =
      if isLast then markText tree.marked else [] := by
    cases isLast <;> simp [markText]
  rw [normalTerm, eraseSuffix_openSign, drop_text, eraseSuffix_rateOne, ← hmark]
  rfl

end Tree
end Term

namespace Schedule

/-- The terms of an expression in normal form, without the white space around them. -/
def normal (expression : Text) : Text :=
  [separator].intercalate (mapLast normalTerm (terms expression))

theorem text_ofTrees (expression : Text) (trees : List Tree) (hne : trees ≠ [])
    (h : terms expression = trees.map Tree.text) :
    (ofTrees trees hne).text = normal expression := by
  have htiers : (ofTrees trees hne).tiers = mapLast Tree.tier trees := rfl
  rw [text, normal, htiers, h, mapLast_map, map_mapLast]
  simp only [Tree.text_tier, Tree.text_normal]
  rfl

theorem text_of_result {policy : Policy} {expression : Text} {s : Schedule}
    (h : (read policy expression).result = .ok s) : s.text = normal expression := by
  obtain ⟨trees, hlegible, rfl⟩ := exists_trees_of_read h
  exact text_ofTrees expression trees hlegible.ne_nil hlegible.spelled

/-- What is written for a schedule that was read is the normal form of its expression. Expressions
are read as the same schedule exactly if they have the same normal form. -/
theorem written_eq_normal :
    (∀ (policy : Policy) (expression : Text) (s : Schedule),
      (read policy expression).result = .ok s → s.write = .ok (normal expression)) ∧
    ∀ (policy other : Policy) (expression given : Text) (s t : Schedule),
      (read policy expression).result = .ok s → (read other given).result = .ok t →
      (s = t ↔ normal expression = normal given) := by
  refine ⟨?_, ?_⟩
  · intro policy expression s h
    rw [(short_of_result h).write, text_of_result h]
  · intro policy other expression given s t hs ht
    rw [← text_of_result hs, ← text_of_result ht]
    exact ⟨congrArg text, eq_of_text_eq hs ht⟩

def twoMarkers : List Tree :=
  [⟨.measured (.ofNat 1 Nat.one_pos) .seconds, none, true⟩,
    ⟨.zero, some (.ofNat 1 Nat.one_pos), false⟩,
    ⟨.measured (.ofNat 1 Nat.one_pos) .minutes, some (.ofNat 2 Nat.two_pos), true⟩]

theorem twoMarkers_written : ∃ s,
    (read ⟨false⟩ "1s+, 0/1,1m/2+".toList).result = .ok s ∧
      s.write = .ok "1s,0,1m/2+".toList := by
  have hsound : Sound ⟨false⟩ twoMarkers := by
    refine ⟨?_, fun h => Bool.noConfusion h⟩
    unfold Tree.Short
    decide +kernel
  have hlegible : Legible ⟨false⟩ "1s+, 0/1,1m/2+".toList twoMarkers :=
    legible_of_sound (by decide +kernel) (by decide +kernel) hsound (by decide +kernel)
  have hnormal : normal "1s+, 0/1,1m/2+".toList = "1s,0,1m/2+".toList := by decide +kernel
  refine ⟨_, hlegible.read, ?_⟩
  rw [← hnormal]
  exact written_eq_normal.1 ⟨false⟩ _ _ hlegible.read

end Schedule
end RetrySchedule
