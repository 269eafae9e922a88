import Mathlib.Data.List.Basic
import RetrySchedule.Text.Pattern

namespace RetrySchedule.Text

theorem mem_runRests (allowed : Char → Bool) (t rest : Text) :
    rest ∈ runRests allowed t ↔ ∃ run : Text, t = run ++ rest ∧ ∀ c ∈ run, allowed c := by
  induction t with
  | nil => simp [runRests]
  | cons c t ih =>
    constructor
    · intro h
      rcases List.mem_cons.mp h with rfl | later
      · exact ⟨[], rfl, by simp⟩
      · by_cases hc : allowed c
        · rw [if_pos hc] at later
          obtain ⟨run, rfl, hrun⟩ := ih.mp later
          exact ⟨c :: run, rfl, by simpa using ⟨hc, hrun⟩⟩
        · simp [hc] at later
    · rintro ⟨run, ht, hrun⟩
      cases run with
      | nil => simp [runRests, ht]
      | cons d run =>
        obtain ⟨rfl, rfl⟩ := List.cons.inj ht
        have hc : allowed c := hrun c (by simp)
        simp only [runRests, hc, if_true, List.mem_cons]
        exact Or.inr (ih.mpr ⟨run, rfl, fun d hd => hrun d (by simp [hd])⟩)

namespace Pattern

/-- The texts that have the form. -/
def Accepts : Pattern → Text → Prop
  | words options, t => t ∈ options
  | one allowed, t => ∃ c, allowed c ∧ t = [c]
  | many allowed, t => ∀ c ∈ t, allowed c
  | choice first second, t => first.Accepts t ∨ second.Accepts t
  | seq first second, t => ∃ u v, t = u ++ v ∧ first.Accepts u ∧ second.Accepts v

theorem mem_rests (p : Pattern) (t rest : Text) :
    rest ∈ p.rests t ↔ ∃ start, t = start ++ rest ∧ p.Accepts start := by
  induction p generalizing t rest with
  | words options =>
    simp only [rests, List.mem_filterMap, Option.ite_none_right_eq_some, Option.some.injEq,
      List.isPrefixOf_iff_prefix, Accepts]
    constructor
    · rintro ⟨word, hword, ⟨tail, rfl⟩, hrest⟩
      exact ⟨word, by simpa using hrest, hword⟩
    · rintro ⟨word, rfl, hword⟩
      exact ⟨word, hword, List.prefix_append _ _, List.drop_left⟩
  | one allowed =>
    cases t with
    | nil => simp [rests, Accepts]
    | cons c t =>
      by_cases hc : allowed c
      · simp only [rests, hc, if_true, List.mem_singleton, Accepts]
        constructor
        · rintro rfl
          exact ⟨[c], rfl, c, hc, rfl⟩
        · rintro ⟨_, ht, d, _, rfl⟩
          exact (List.cons.inj ht).2.symm
      · simp only [rests, hc, Accepts]
        constructor
        · simp
        · rintro ⟨_, ht, d, hd, rfl⟩
          exact absurd ((List.cons.inj ht).1 ▸ hd) hc
  | many allowed => exact mem_runRests allowed t rest
  | choice first second ihf ihs =>
    simp only [rests, List.mem_append, ihf, ihs, Accepts]
    constructor
    · rintro (⟨start, ht, h⟩ | ⟨start, ht, h⟩)
      · exact ⟨start, ht, Or.inl h⟩
      · exact ⟨start, ht, Or.inr h⟩
    · rintro ⟨start, ht, h | h⟩
      · exact Or.inl ⟨start, ht, h⟩
      · exact Or.inr ⟨start, ht, h⟩
  | seq first second ihf ihs =>
    simp only [rests, List.mem_flatMap, ihf, ihs, Accepts]
    constructor
    · rintro ⟨middle, ⟨u, rfl, hu⟩, v, rfl, hv⟩
      exact ⟨u ++ v, by simp, u, v, rfl, hu, hv⟩
    · rintro ⟨_, rfl, u, v, rfl, hu, hv⟩
      exact ⟨v ++ rest, ⟨u, by simp, hu⟩, v, rfl, hv⟩

/-- The rests that are tried decide the language of a pattern. -/
theorem covers_iff (p : Pattern) (t : Text) : p.covers t ↔ p.Accepts t := by
  have h := mem_rests p t []
  simp only [List.append_nil, exists_eq_left'] at h
  simpa only [covers, List.any_eq_true, List.isEmpty_iff, exists_eq_right] using h

end Pattern
end RetrySchedule.Text
