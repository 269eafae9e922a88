import RetrySchedule.Proofs.Reading.Lenience
import RetrySchedule.Proofs.Reading.RoundTrip
import RetrySchedule.Proofs.Reading.Spelling
import RetrySchedule.Proofs.Waits

namespace RetrySchedule
open Term

namespace Term.Tree

def wait (tree : Tree) : Wait :=
  ⟨tree.amount.magnitude, tree.amount.scale⟩

theorem waits_copies (tree : Tree) :
    (tree.copies.flatMap fun copy => List.replicate copy.count copy.wait) =
      List.replicate tree.count tree.wait := by
  have hcopies : (tree.copies.flatMap fun copy => List.replicate copy.count copy.wait) =
      tree.copies.flatMap fun _ => [tree.wait] := by
    apply List.flatMap_congr
    intro copy hcopy
    obtain ⟨hamount, hrate, -⟩ := mem_copies hcopy
    rw [count, hrate, wait, hamount]
    rfl
  rw [hcopies, ← tree.length_copies]
  induction tree.copies with
  | nil => rfl
  | cons copy rest ih =>
    rw [List.flatMap_cons, ih, List.length_cons, List.replicate_succ, List.singleton_append]

/-- A term that ends in a rate and a marker stays a term without the rate. -/
theorem exists_rate_of_trim (tree : Tree) {front rate : Text}
    (h : Text.trim (front ++ rateSign :: rate ++ [openSign]) = tree.text) :
    ∃ (a : Amount) (n : Counting), tree = ⟨a, some n, true⟩ ∧ rate = n.digits ∧
      Text.trim (front ++ [openSign]) = text ⟨a, none, true⟩ := by
  obtain ⟨lead, hsplit, hlead⟩ :=
    Text.exists_lead_of_concat (front ++ rateSign :: rate) openSign (by decide)
  rw [h] at hsplit
  have hmarked : tree.marked := by
    rw [tree.marked_iff, ← List.getLast?_append_of_ne_nil lead tree.text_ne_nil, ← hsplit]
    exact List.getLast?_concat
  obtain ⟨a, r, marked⟩ := tree
  obtain rfl : marked = true := hmarked
  have hbody : front ++ rateSign :: rate = lead ++ a.text ++ rateText r := by
    rw [text, ← List.append_assoc, ← List.append_assoc] at hsplit
    exact List.append_cancel_right hsplit
  -- The only slash of the text is that of its rate.
  have hslash : '/' ∉ lead ++ a.text := by
    intro hc
    rcases List.mem_append.mp hc with hc | hc
    · exact absurd (hlead '/' hc) (by decide)
    · exact a.not_mem_text (by decide) (by decide) hc
  cases r with
  | none =>
    rw [rateText, List.append_nil] at hbody
    exact absurd (hbody ▸ List.mem_append_right front (List.mem_cons_self ..)) hslash
  | some n =>
    obtain ⟨rfl, -, rfl⟩ := (List.append_cons_inj_of_notMem hslash
      (n.not_mem_digits (by decide))).mp hbody.symm
    have htrim := Text.trim_padded lead (text ⟨a, none, true⟩) [] hlead (by simp) (solid_text _)
    refine ⟨a, n, rfl, rfl, ?_⟩
    rw [← htrim]
    simp [text, rateText, markText, openSign]

end Term.Tree

namespace Schedule

section
variable {expression : Text} {trees : List Tree}

theorem waits_tiersOf (trees : List Tree) :
    waits (tiersOf trees) = trees.flatMap fun tree => List.replicate tree.count tree.wait := by
  have hwaits : (tiersOf trees).map (fun tier => List.replicate tier.count tier.wait) =
      trees.map fun tree => List.replicate tree.count tree.wait :=
    (map_mapLast _ Tree.tier trees).trans
      (mapLast_const (fun tree : Tree => List.replicate tree.count tree.wait) trees)
  rw [waits, List.flatMap_def, hwaits, ← List.flatMap_def]

section
variable (hne : trees ≠ []) (hne' : trees.flatMap Tree.copies ≠ [])

theorem hasOpenEnd_flatMap_copies :
    (ofTrees (trees.flatMap Tree.copies) hne').hasOpenEnd = (ofTrees trees hne).hasOpenEnd := by
  obtain ⟨before, tree, rfl⟩ := (List.eq_nil_or_concat trees).resolve_left hne
  simp only [List.concat_eq_append, flatMap_copies_concat, hasOpenEnd_ofTrees]

theorem budget_flatMap_copies :
    (ofTrees (trees.flatMap Tree.copies) hne').budget = (ofTrees trees hne).budget := by
  rw [budget_ofTrees, budget_ofTrees, sum_count_flatMap_copies]

theorem answer_flatMap_copies (attempt : Int) :
    (ofTrees (trees.flatMap Tree.copies) hne').answer attempt =
      (ofTrees trees hne).answer attempt := by
  have hwaits : waits (tiersOf (trees.flatMap Tree.copies)) = waits (tiersOf trees) := by
    simp only [waits_tiersOf, List.flatMap_assoc, Tree.waits_copies]
  apply answer_congr hwaits (hasOpenEnd_flatMap_copies hne hne')
  obtain ⟨before, tree, rfl⟩ := (List.eq_nil_or_concat trees).resolve_left hne
  simp only [List.concat_eq_append, flatMap_copies_concat, last_ofTrees]
  rfl

end

/-- A rate in front of the marker of an expression is that of its last term, which stays a term
without it. -/
theorem exists_last_rate {front rate : Text}
    (h : terms (front ++ rateSign :: rate ++ [openSign]) = trees.map Tree.text)
    (hrate : separator ∉ rate) : ∃ (before : List Tree) (a : Amount) (n : Counting),
      trees = before ++ [⟨a, some n, true⟩] ∧ rate = n.digits ∧
        terms (front ++ [openSign]) = (before ++ [(⟨a, none, true⟩ : Tree)]).map Tree.text := by
  obtain ⟨others, piece, hpiece⟩ := exists_last_piece front
  have hend : separator ∉ rateSign :: rate ++ [openSign] := by
    simp only [List.mem_append, List.mem_cons, List.not_mem_nil, or_false, not_or]
    exact ⟨⟨by decide, hrate⟩, by decide⟩
  rw [List.append_assoc, hpiece _ hend, ← List.append_assoc] at h
  obtain ⟨before, final, rfl, hothers, hfinal⟩ := List.map_eq_append_iff.mp h.symm
  obtain ⟨tree, rfl, htree⟩ := List.map_eq_singleton_iff.mp hfinal
  obtain ⟨a, n, rfl, hn, hterm⟩ := tree.exists_rate_of_trim htree.symm
  refine ⟨before, a, n, rfl, hn, ?_⟩
  rw [hpiece _ (by decide), hterm, ← hothers, List.map_append, List.map_singleton]

section
variable {before : List Tree} {a : Amount} {n : Counting}

theorem Sound.drop_last_rate {policy : Policy} (h : Sound policy (before ++ [⟨a, some n, true⟩])) :
    Sound policy (before ++ [⟨a, none, true⟩]) := by
  obtain ⟨hshort, hplaced⟩ := h
  rw [List.dropLast_concat] at hplaced
  refine ⟨fun tree htree => ?_, fun hstrict => ?_⟩
  · rcases List.mem_append.mp htree with htree | htree
    · exact hshort tree (List.mem_append_left _ htree)
    · rw [List.mem_singleton.mp htree]
      intro m hm
      apply hshort ⟨a, some n, true⟩ (List.mem_concat_self ..) m
      exact List.mem_append_left _ (by simpa [Tree.numerals] using hm)
  · rw [List.dropLast_concat]
    exact hplaced hstrict

theorem sum_count_drop_last_rate (before : List Tree) (a : Amount) (n : Counting) :
    ((before ++ [(⟨a, none, true⟩ : Tree)]).map Tree.count).sum + n.value =
      ((before ++ [(⟨a, some n, true⟩ : Tree)]).map Tree.count).sum + 1 := by
  simp [Tree.count]
  omega

theorem Legible.drop_last_rate {policy : Policy} {front rate : Text}
    (h : Legible policy (front ++ rateSign :: rate ++ [openSign]) (before ++ [⟨a, some n, true⟩]))
    (hterms : terms (front ++ [openSign]) = (before ++ [(⟨a, none, true⟩ : Tree)]).map Tree.text) :
    Legible policy (front ++ [openSign]) (before ++ [⟨a, none, true⟩]) := by
  have hsign : Text.blank openSign = false := by decide
  have hsolid : (front ++ [openSign]).Solid := by
    constructor
    · cases front with
      | nil => simpa using hsign
      | cons c front => exact h.solid.1
    · simpa using hsign
  have hbudget := h.budget
  have hsum := sum_count_drop_last_rate before a n
  have hpos := n.value_pos
  exact legible_of_sound (hasOutline_of_solid _ _ hterms hsolid) hterms h.sound.drop_last_rate
    (by omega)

theorem answer_drop_last_rate (hne : before ++ [⟨a, none, true⟩] ≠ [])
    (hne' : before ++ [⟨a, some n, true⟩] ≠ []) (attempt : Int) :
    (ofTrees (before ++ [⟨a, none, true⟩]) hne).answer attempt =
      (ofTrees (before ++ [⟨a, some n, true⟩]) hne').answer attempt := by
  have htiers : ∀ (tree : Tree) (h : before ++ [tree] ≠ []),
      (ofTrees (before ++ [tree]) h).tiers = before.map (·.tier false) ++ [tree.tier true] :=
    fun tree _ => mapLast_concat Tree.tier before tree
  refine answer_of_open_concat (htiers _ hne) (htiers _ hne') ?_ ?_ ?_ attempt <;> rfl

end

theorem waitFor_eq_answer {policy : Policy} {plan : Plan} (h : Legible policy expression trees)
    (hplan : (Plan.read policy expression).result = .ok plan) {attempt : Int} (hpos : 1 ≤ attempt)
    (hattempt : attempt < (10 ^ Numeral.digitLimit : Nat)) :
    (plan.waitFor attempt).result = (ofTrees trees h.ne_nil).answer attempt := by
  obtain ⟨-, hread⟩ := plan_of_read hplan
  have hshort := short_of_result hread
  rw [Plan.waitFor, result_waitFor_eq_answer _ attempt hshort hpos hattempt,
    Except.ok.inj (hread.symm.trans h.read)]

end

/-- Spelling out the rates of an expression changes neither how many attempts it covers nor any of
its waits. The rate of an open last term can be left out, which changes the budget only. -/
theorem waitFor_spelledOut (policy : Policy) (expression : Text) (a : Plan)
    (ha : (Plan.read policy expression).result = .ok a) :
    (∃ b, (Plan.read policy (spelledOut expression)).result = .ok b ∧
      b.maxAttempts = a.maxAttempts ∧
      ∀ attempt : Int, 1 ≤ attempt → attempt < (10 ^ Numeral.digitLimit : Nat) →
        (∃ wait, (b.waitFor attempt).result = .ok wait ∧ (a.waitFor attempt).result = .ok wait) ∨
        ∃ budget, (b.waitFor attempt).result = .error (.exhausted (.int budget) attempt) ∧
          (a.waitFor attempt).result = .error (.exhausted (.int budget) attempt)) ∧
    ∀ front rate : Text, expression = front ++ rateSign :: rate ++ [openSign] → separator ∉ rate →
      ∃ c, (Plan.read policy (front ++ [openSign])).result = .ok c ∧
        c.schedule.budget + Nat.ofDigitChars 10 rate 0 = a.schedule.budget + 1 ∧
        ∀ attempt : Int, 1 ≤ attempt → attempt < (10 ^ Numeral.digitLimit : Nat) →
          ∃ wait, (c.waitFor attempt).result = .ok wait ∧
            (a.waitFor attempt).result = .ok wait := by
  obtain ⟨-, hs⟩ := plan_of_read ha
  obtain ⟨trees, hlegible, hschedule⟩ := exists_trees_of_read hs
  refine ⟨?_, ?_⟩
  · have hspelled := hlegible.spelledOut
    have hb := plan_read_of_read hspelled.read
    refine ⟨_, hb, ?_, fun attempt hpos hattempt => ?_⟩
    · rw [Plan.maxAttempts, Plan.maxAttempts, ← hschedule,
        hasOpenEnd_flatMap_copies hlegible.ne_nil, budget_flatMap_copies hlegible.ne_nil]
    · rw [waitFor_eq_answer hspelled hb hpos hattempt, waitFor_eq_answer hlegible ha hpos hattempt,
        answer_flatMap_copies hlegible.ne_nil]
      rcases answer_cases (ofTrees trees hlegible.ne_nil) attempt with ⟨wait, h⟩ | ⟨-, h⟩
      · exact Or.inl ⟨wait, h, h⟩
      · exact Or.inr ⟨_, h, h⟩
  · rintro front rate rfl hrate
    obtain ⟨before, amount, n, rfl, rfl, hterms⟩ := exists_last_rate hlegible.spelled hrate
    have hdropped := hlegible.drop_last_rate hterms
    have hc := plan_read_of_read hdropped.read
    refine ⟨_, hc, ?_, fun attempt hpos hattempt => ?_⟩
    · rw [← hschedule, budget_ofTrees, budget_ofTrees]
      exact sum_count_drop_last_rate before amount n
    · -- An open end always has a wait to answer with, so the faults need not be compared.
      have hopen : (ofTrees _ hlegible.ne_nil).hasOpenEnd := hasOpenEnd_ofTrees before _ _
      rw [waitFor_eq_answer hdropped hc hpos hattempt, waitFor_eq_answer hlegible ha hpos hattempt,
        answer_drop_last_rate _ hlegible.ne_nil]
      exact ⟨_, answer_of_open _ attempt hopen, answer_of_open _ attempt hopen⟩

theorem everyMinute_spelledOut : ∃ a b c : Plan,
    (Plan.read ⟨true⟩ "0/2,1m/2+".toList).result = .ok a ∧
    (Plan.read ⟨true⟩ "0,0,1m,1m+".toList).result = .ok b ∧
    (Plan.read ⟨true⟩ "0/2,1m+".toList).result = .ok c ∧
    b.maxAttempts = a.maxAttempts ∧ c.schedule.budget + 2 = a.schedule.budget + 1 ∧
    ∃ wait, (a.waitFor 9).result = .ok wait ∧ (b.waitFor 9).result = .ok wait ∧
      (c.waitFor 9).result = .ok wait := by
  have ha := plan_read_of_read (read_text_of_short ⟨true⟩ everyMinute
    ⟨by decide +kernel, by decide +kernel⟩)
  have hlimit : (9 : Int) < (10 ^ Numeral.digitLimit : Nat) := by decide +kernel
  obtain ⟨⟨b, hb, hmax, hspelled⟩, hdropped⟩ := waitFor_spelledOut ⟨true⟩ "0/2,1m/2+".toList _ ha
  obtain ⟨c, hc, hbudget, hopen⟩ := hdropped "0/2,1m".toList ['2'] (by decide) (by decide)
  obtain ⟨wait, hcwait, hwait⟩ := hopen 9 (by decide) hlimit
  refine ⟨_, b, c, ha, hb, hc, hmax, hbudget, wait, hwait, ?_, hcwait⟩
  rcases hspelled 9 (by decide) hlimit with ⟨other, hbwait, hother⟩ | ⟨budget, -, hfault⟩
  · rw [hbwait, ← hother, hwait]
  · cases hwait.symm.trans hfault

end Schedule
end RetrySchedule
