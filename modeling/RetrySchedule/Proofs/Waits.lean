import RetrySchedule.Proofs.Lists
import RetrySchedule.Proofs.Selection

namespace RetrySchedule.Schedule

/-- The waits of the attempts that some tiers serve, in the order of the attempts. -/
def waits (tiers : List Tier) : List Wait :=
  tiers.flatMap fun tier => List.replicate tier.count tier.wait

theorem waits_cons (tier : Tier) (rest : List Tier) :
    waits (tier :: rest) = List.replicate tier.count tier.wait ++ waits rest := by
  rw [waits, List.flatMap_cons, waits]

theorem waits_append (before after : List Tier) :
    waits (before ++ after) = waits before ++ waits after := by
  rw [waits, List.flatMap_append, waits, waits]

theorem exists_tier_of_mem_waits {tiers : List Tier} {wait : Wait} (h : wait ∈ waits tiers) :
    ∃ tier ∈ tiers, wait = tier.wait := by
  obtain ⟨tier, htier, hwait⟩ := List.mem_flatMap.mp h
  exact ⟨tier, htier, List.eq_of_mem_replicate hwait⟩

theorem map_wait_served (first : Nat) (tiers : List Tier) :
    (served first tiers).map (fun found => found.2.wait) = waits tiers := by
  have hwaits : waits tiers = waits ((tiers.zipIdx first).map Prod.fst) := by
    rw [List.zipIdx_map_fst]
  rw [hwaits, waits, List.flatMap_map, served, List.map_flatMap]
  simp only [List.map_replicate]

theorem length_waits (s : Schedule) : (waits s.tiers).length = s.budget := by
  rw [s.budget_eq, ← map_wait_served 0, List.length_map, length_served]

theorem wait_locate (tiers : List Tier) (attempt : Int) (hpos : 1 ≤ attempt) :
    (locate tiers attempt).map (fun found => found.2.wait) =
      (waits tiers)[(attempt - 1).toNat]? := by
  rw [locate_eq_getElem? tiers attempt hpos, ← map_wait_served 0, List.getElem?_map]

/-- The answer to an attempt: the wait in its place or, past the last place, that of an open end. -/
def answer (s : Schedule) (attempt : Int) : Except Fault Wait :=
  match (waits s.tiers)[(attempt - 1).toNat]? with
  | some wait => .ok wait
  | none =>
      if s.hasOpenEnd then .ok s.last.wait else .error (.exhausted (.int s.budget) attempt)

section
variable (s : Schedule) (attempt : Int)

theorem answer_of_le (hpos : 1 ≤ attempt) (hle : attempt ≤ s.budget) :
    ∃ wait, (waits s.tiers)[(attempt - 1).toNat]? = some wait ∧ s.answer attempt = .ok wait := by
  have hindex : (attempt - 1).toNat < (waits s.tiers).length := by
    rw [length_waits]
    omega
  have hwait := List.getElem?_eq_getElem hindex
  exact ⟨_, hwait, by rw [answer, hwait]⟩

theorem answer_of_lt (hlt : (s.budget : Int) < attempt) :
    s.answer attempt =
      if s.hasOpenEnd then .ok s.last.wait else .error (.exhausted (.int s.budget) attempt) := by
  have hindex : (waits s.tiers).length ≤ (attempt - 1).toNat := by
    rw [length_waits]
    omega
  rw [answer, List.getElem?_eq_none hindex]

theorem result_waitFor_eq_answer (h : s.Short) (hpos : 1 ≤ attempt)
    (hattempt : attempt < (10 ^ Numeral.digitLimit : Nat)) :
    (s.waitFor attempt).result = s.answer attempt := by
  have hfits : Numeral.fits attempt := (Numeral.fits_iff attempt).mpr (by omega)
  have hbudget : Numeral.fits s.budget := (Numeral.fits_natCast _).mpr h.budget
  rw [result_waitFor]
  rcases Int.lt_or_le s.budget attempt with hlt | hle
  · rw [s.answer_of_lt attempt hlt]
    cases hend : s.hasOpenEnd with
    | true =>
      obtain ⟨message, -, hresult⟩ := tierFor_of_open s attempt hlt hend hfits hbudget
        (h.tiers _ (List.getLast_mem s.tiers_ne_nil))
      rw [hresult]
      rfl
    | false =>
      rw [tierFor_of_closed s attempt hlt hend hfits hbudget]
      rfl
  · obtain ⟨position, tier, hlocate, htier, -⟩ :=
      locate_of_le s.tiers attempt hpos (s.budget_eq ▸ hle)
    obtain ⟨message, -, hresult⟩ := tierFor_of_locate s attempt position tier hpos hle hlocate hfits
      (h.tiers tier (List.mem_of_getElem? htier))
    have hwait := wait_locate s.tiers attempt hpos
    rw [hlocate] at hwait
    rw [hresult, answer, ← hwait]
    rfl

theorem answer_cases : (∃ wait, s.answer attempt = .ok wait) ∨
    s.hasOpenEnd = false ∧ s.answer attempt = .error (.exhausted (.int s.budget) attempt) := by
  cases hplace : (waits s.tiers)[(attempt - 1).toNat]? with
  | some wait => exact Or.inl ⟨wait, by rw [answer, hplace]⟩
  | none =>
    cases hend : s.hasOpenEnd with
    | true => exact Or.inl ⟨s.last.wait, by rw [answer, hplace, hend]; rfl⟩
    | false => exact Or.inr ⟨rfl, by rw [answer, hplace, hend]; rfl⟩

theorem answer_of_open (hend : s.hasOpenEnd) :
    s.answer attempt = .ok ((waits s.tiers)[(attempt - 1).toNat]?.getD s.last.wait) := by
  rw [answer, hend]
  cases (waits s.tiers)[(attempt - 1).toNat]? <;> rfl

end

theorem last_eq_of_concat {s : Schedule} {before : List Tier} {tier : Tier}
    (h : s.tiers = before ++ [tier]) : s.last = tier := by
  simp only [last, h, List.getLast_concat]

theorem answer_congr {s t : Schedule} (hwaits : waits s.tiers = waits t.tiers)
    (hend : s.hasOpenEnd = t.hasOpenEnd) (hlast : s.last.wait = t.last.wait) (attempt : Int) :
    s.answer attempt = t.answer attempt := by
  have hbudget : s.budget = t.budget := by rw [← length_waits, hwaits, length_waits]
  rw [answer, hwaits, hend, hlast, hbudget, answer]

/-- How often an open last tier serves before it serves all the rest makes no difference. -/
theorem answer_of_open_concat {s t : Schedule} {before : List Tier} {a b : Tier}
    (hs : s.tiers = before ++ [a]) (ht : t.tiers = before ++ [b]) (ha : a.isOpen) (hb : b.isOpen)
    (hwait : a.wait = b.wait) (attempt : Int) : s.answer attempt = t.answer attempt := by
  have hone : ∀ tier : Tier, waits [tier] = List.replicate tier.count tier.wait := by
    intro tier
    rw [waits_cons]
    exact List.append_nil _
  have hopen : s.hasOpenEnd ∧ t.hasOpenEnd := by
    rw [hasOpenEnd, last_eq_of_concat hs, hasOpenEnd, last_eq_of_concat ht]
    exact ⟨ha, hb⟩
  rw [answer_of_open s attempt hopen.1, answer_of_open t attempt hopen.2, last_eq_of_concat hs,
    last_eq_of_concat ht, hs, ht, waits_append, waits_append, hone, hone, hwait,
    getD_append_replicate, getD_append_replicate]

section
variable {s t joined : Schedule} (h : joined.tiers = s.tiers ++ t.tiers)
include h

theorem budget_of_append : joined.budget = s.budget + t.budget := by
  rw [← length_waits, h, waits_append, List.length_append, length_waits, length_waits]

theorem last_of_append : joined.last = t.last := by
  simp only [last, h, List.getLast_append_of_ne_nil _ t.tiers_ne_nil]

theorem hasOpenEnd_of_append : joined.hasOpenEnd = t.hasOpenEnd := by
  rw [hasOpenEnd, last_of_append h, hasOpenEnd]

theorem answer_of_append_left {attempt : Int} (hpos : 1 ≤ attempt) (hle : attempt ≤ s.budget) :
    joined.answer attempt = s.answer attempt := by
  obtain ⟨wait, hwait, hanswer⟩ := s.answer_of_le attempt hpos hle
  have hindex := (List.getElem?_eq_some_iff.mp hwait).1
  rw [hanswer, answer, h, waits_append, List.getElem?_append_left hindex, hwait]

/-- Past the budget of the first schedule the second one answers, as to an attempt of its own. -/
theorem answer_of_append_right {attempt : Int} (hlt : (s.budget : Int) < attempt) :
    (∃ wait, joined.answer attempt = .ok wait ∧ t.answer (attempt - s.budget) = .ok wait) ∨
      t.hasOpenEnd = false ∧
        joined.answer attempt = .error (.exhausted (.int joined.budget) attempt) ∧
        t.answer (attempt - s.budget) =
          .error (.exhausted (.int t.budget) (attempt - s.budget)) := by
  have hindex : (waits s.tiers).length ≤ (attempt - 1).toNat := by
    rw [length_waits]
    omega
  have hshift : (attempt - 1).toNat - (waits s.tiers).length =
      (attempt - s.budget - 1).toNat := by
    rw [length_waits]
    omega
  have hplace : (waits joined.tiers)[(attempt - 1).toNat]? =
      (waits t.tiers)[(attempt - s.budget - 1).toNat]? := by
    rw [h, waits_append, List.getElem?_append_right hindex, hshift]
  unfold answer
  rw [hplace, hasOpenEnd_of_append h, last_of_append h]
  cases (waits t.tiers)[(attempt - s.budget - 1).toNat]? with
  | some wait => exact Or.inl ⟨wait, rfl, rfl⟩
  | none =>
    cases t.hasOpenEnd with
    | true => exact Or.inl ⟨t.last.wait, rfl, rfl⟩
    | false => exact Or.inr ⟨rfl, rfl, rfl⟩

end
end RetrySchedule.Schedule
