import RetrySchedule.Proofs.Journal
import RetrySchedule.Proofs.Schedule
import RetrySchedule.Selection

namespace RetrySchedule.Schedule

/-- The positions of tiers, counted from the given one, each as often as its tier serves. -/
def unrolled (first : Nat) (tiers : List Tier) : List Nat :=
  (tiers.zipIdx first).flatMap fun (tier, position) => List.replicate tier.count position

/-- The attempts that some tiers serve, each as its tier and the position of that. -/
def served (first : Nat) (tiers : List Tier) : List (Nat × Tier) :=
  (tiers.zipIdx first).flatMap fun (tier, position) => List.replicate tier.count (position, tier)

theorem served_cons (first : Nat) (tier : Tier) (rest : List Tier) :
    served first (tier :: rest) =
      List.replicate tier.count (first, tier) ++ served (first + 1) rest := by
  rw [served, List.zipIdx_cons, List.flatMap_cons, served]

theorem map_fst_served (first : Nat) (tiers : List Tier) :
    (served first tiers).map Prod.fst = unrolled first tiers := by
  simp only [served, unrolled, List.map_flatMap, List.map_replicate]

theorem length_served (first : Nat) (tiers : List Tier) :
    (served first tiers).length = (tiers.map Tier.count).sum := by
  have hcounts : ((tiers.zipIdx first).map Prod.fst).map Tier.count = tiers.map Tier.count := by
    rw [List.zipIdx_map_fst]
  rw [List.map_map] at hcounts
  simp only [served, List.length_flatMap, List.length_replicate]
  exact congrArg List.sum hcounts

theorem getElem?_of_mem_served {tiers : List Tier} {position : Nat} {tier : Tier}
    (h : (position, tier) ∈ served 0 tiers) : tiers[position]? = some tier := by
  obtain ⟨⟨found, place⟩, hfound, hmem⟩ := List.mem_flatMap.mp h
  cases List.eq_of_mem_replicate hmem
  exact List.mk_mem_zipIdx_iff_getElem?.mp hfound

/-- The walk along the tiers is a look-up among the attempts that they serve. -/
theorem map_locate (first : Nat) (tiers : List Tier) (attempt : Int) (hpos : 1 ≤ attempt) :
    (locate tiers attempt).map (fun found => (first + found.1, found.2)) =
      (served first tiers)[(attempt - 1).toNat]? := by
  -- Both the attempt and the first position move on from tier to tier, so the induction is over
  -- all of them.
  induction tiers generalizing first attempt with
  | nil => rfl
  | cons tier rest ih =>
    rw [locate, served_cons]
    by_cases hlast : attempt - tier.count ≤ 0
    -- The attempt lies in the block of this tier.
    · have hindex : (attempt - 1).toNat < tier.count := by omega
      rw [if_pos hlast, List.getElem?_append_left (by rwa [List.length_replicate]),
        List.getElem?_replicate, if_pos hindex]
      rfl
    -- The whole block is passed, and what remains of the attempt is looked up in the rest.
    · have hindex : tier.count ≤ (attempt - 1).toNat := by omega
      have hshift : (attempt - 1).toNat - tier.count = (attempt - tier.count - 1).toNat := by omega
      rw [if_neg hlast, List.getElem?_append_right (by rwa [List.length_replicate]),
        List.length_replicate, hshift, ← ih (first + 1) _ (by omega), Option.map_map]
      congr 1
      funext found
      simp only [Function.comp_apply, Nat.add_assoc, Nat.add_comm 1]

theorem locate_eq_getElem? (tiers : List Tier) (attempt : Int) (hpos : 1 ≤ attempt) :
    locate tiers attempt = (served 0 tiers)[(attempt - 1).toNat]? := by
  rw [← map_locate 0 tiers attempt hpos]
  simp only [Nat.zero_add, Option.map_id']

theorem locate_of_le (tiers : List Tier) (attempt : Int) (hpos : 1 ≤ attempt)
    (hle : attempt ≤ ((tiers.map Tier.count).sum : Nat)) :
    ∃ position tier, locate tiers attempt = some (position, tier) ∧
      tiers[position]? = some tier ∧
      (unrolled 0 tiers)[(attempt - 1).toNat]? = some position := by
  have hindex : (attempt - 1).toNat < (served 0 tiers).length := by
    rw [length_served]
    omega
  have hfound := List.getElem?_eq_getElem hindex
  refine ⟨_, _, (locate_eq_getElem? tiers attempt hpos).trans hfound,
    getElem?_of_mem_served (List.getElem_mem hindex), ?_⟩
  rw [← map_fst_served, List.getElem?_map, hfound]
  rfl

section
variable (s : Schedule) (attempt : Int)

theorem tierFor_of_lt_one (h : attempt < 1) (hfits : Numeral.fits attempt) :
    s.tierFor attempt = Outcome.fail (.attemptBelowOne attempt) := by
  have hstated : Fault.stating (.int attempt) (.attemptBelowOne attempt) =
      .attemptBelowOne attempt := if_pos hfits
  rw [tierFor, checkAttempt, if_pos h, hstated]
  rfl

theorem tierFor_of_one_le (h : 1 ≤ attempt) :
    s.tierFor attempt =
      match if attempt ≤ s.budget then locate s.tiers attempt else none with
      | some (position, tier) =>
          (liftM (Fault.ofNumeral tier.write) : Outcome Text) >>= fun written =>
            Outcome.leave (.tierServes attempt position written) >>= fun _ => pure tier
      | none =>
          if s.hasOpenEnd then
            (liftM (Fault.ofNumeral s.last.write) : Outcome Text) >>= fun written =>
              Outcome.leave (.lastServes attempt (.int s.budget) written) >>= fun _ => pure s.last
          else Outcome.fail (exhaustedFault (.int s.budget) attempt) := by
  rw [tierFor, checkAttempt, if_neg (by omega)]
  rfl

theorem tierFor_of_locate (position : Nat) (tier : Tier) (hpos : 1 ≤ attempt)
    (hle : attempt ≤ s.budget) (hlocate : locate s.tiers attempt = some (position, tier))
    (hfits : Numeral.fits attempt) (htier : tier.fits) :
    ∃ message, (Note.tierServes attempt position tier.text).message = .ok message ∧
      s.tierFor attempt = ⟨[⟨.tierServes attempt position tier.text, message⟩], .ok tier⟩ := by
  obtain ⟨message, hmessage⟩ := Note.message_tierServes position tier.text hfits
  refine ⟨message, hmessage, ?_⟩
  rw [tierFor_of_one_le s attempt hpos, if_pos hle, hlocate]
  simp only [tier.ofNumeral_write htier, Outcome.lift_bind_ok,
    Outcome.leave_bind_pure _ message tier hmessage]

theorem tierFor_of_open (hlt : (s.budget : Int) < attempt) (hopen : s.hasOpenEnd)
    (hfits : Numeral.fits attempt) (hbudget : Numeral.fits s.budget) (hlast : s.last.fits) :
    ∃ message, (Note.lastServes attempt (.int s.budget) s.last.text).message = .ok message ∧
      s.tierFor attempt =
        ⟨[⟨.lastServes attempt (.int s.budget) s.last.text, message⟩], .ok s.last⟩ := by
  obtain ⟨message, hmessage⟩ := Note.message_lastServes s.last.text hfits hbudget
  refine ⟨message, hmessage, ?_⟩
  rw [tierFor_of_one_le s attempt (by omega), if_neg (by omega)]
  simp only [hopen, if_true, s.last.ofNumeral_write hlast, Outcome.lift_bind_ok,
    Outcome.leave_bind_pure _ message s.last hmessage]

theorem tierFor_of_closed (hlt : (s.budget : Int) < attempt) (hclosed : s.hasOpenEnd = false)
    (hfits : Numeral.fits attempt) (hbudget : Numeral.fits s.budget) :
    s.tierFor attempt = Outcome.fail (.exhausted (.int s.budget) attempt) := by
  have hstated : exhaustedFault (.int s.budget) attempt = .exhausted (.int s.budget) attempt := by
    have hinner : Fault.stating (.int s.budget) (.exhausted (.int s.budget) attempt) =
        .exhausted (.int s.budget) attempt := if_pos hbudget
    rw [exhaustedFault, hinner]
    exact if_pos hfits
  rw [tierFor_of_one_le s attempt (by omega), if_neg (by omega)]
  simp only [hclosed, Bool.false_eq_true, if_false, hstated]

/-- An attempt past the budget is told of before it is answered, by a note or by a fault, so one
with too many digits has no answer, whatever the end of the schedule. -/
theorem tierFor_of_not_fits (hpos : 1 ≤ attempt) (hlt : (s.budget : Int) < attempt)
    (hfits : Numeral.fits attempt = false) (hlast : s.last.fits) :
    s.tierFor attempt = Outcome.fail (.numeral .tooLongToWrite) := by
  rw [tierFor_of_one_le s attempt hpos, if_neg (by omega)]
  cases hend : s.hasOpenEnd with
  | true =>
    have hnote := Note.message_lastServes_of_not_fits (.int s.budget) s.last.text hfits
    simp only [if_true, s.last.ofNumeral_write hlast, Outcome.lift_bind_ok,
      Outcome.leave_bind_of_error _ _ _ hnote]
  | false =>
    have hstated : exhaustedFault (.int s.budget) attempt = .numeral .tooLongToWrite := by
      have hlong : Number.fits (.int attempt) = false := hfits
      rw [exhaustedFault, Fault.stating, hlong, if_neg Bool.false_ne_true]
    simp only [Bool.false_eq_true, if_false, hstated]

theorem result_waitFor :
    (s.waitFor attempt).result = (s.tierFor attempt).result.map Tier.wait := by
  rw [waitFor]
  cases hresult : (s.tierFor attempt).result with
  | ok tier => rw [Outcome.result_bind_of_ok _ _ _ hresult]; rfl
  | error fault => rw [Outcome.result_bind_of_error _ _ _ hresult]; rfl

end

end RetrySchedule.Schedule
