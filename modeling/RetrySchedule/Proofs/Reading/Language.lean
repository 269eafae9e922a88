import RetrySchedule.Proofs.Reading.Expression
import RetrySchedule.Proofs.Reading.Outline

namespace RetrySchedule.Schedule
open Term

section
variable (policy : Policy) (expression : Text)

theorem not_blank_of_hasOutline (h : hasOutline expression) :
    expression.all Text.blank = false := by
  obtain ⟨⟨c, hc, hdigit⟩, -⟩ := (hasOutline_iff expression).mp h
  rw [List.all_eq_false]
  exact ⟨c, List.mem_of_mem_head? hc, by simp [Text.blank_of_isDigit hdigit]⟩

theorem read_of_blank (h : expression.all Text.blank) :
    read policy expression = Outcome.fail (.reading (.blank expression)) := by
  rw [read, Makers.read, if_pos h]

theorem read_of_not_hasOutline (hblank : expression.all Text.blank = false)
    (h : hasOutline expression = false) :
    read policy expression = Outcome.fail (.reading (.outline expression)) := by
  rw [read, Makers.read, hblank, h]
  rfl

theorem read_of_hasOutline (h : hasOutline expression) :
    read policy expression =
      readTerms policy expression (terms expression) >>= fun tiers =>
        liftM (ofTiers tiers) >>= fun schedule =>
          Outcome.leave (.scheduleRead expression tiers.length schedule.budget
            schedule.hasOpenEnd) >>= fun _ => pure schedule := by
  rw [read, Makers.read, not_blank_of_hasOutline expression h, h]
  rfl

theorem leave_scheduleRead (tiers budget : Nat) (openEnd : Bool)
    (h : budget < 10 ^ Numeral.digitLimit) :
    (Outcome.leave (.scheduleRead expression tiers budget openEnd)).result = .ok () ∧
      (Outcome.leave (.scheduleRead expression tiers budget openEnd)).notes =
        [.scheduleRead expression tiers budget openEnd] := by
  obtain ⟨message, hmessage⟩ :=
    Note.message_scheduleRead expression tiers openEnd ((Numeral.fits_natCast budget).mpr h)
  rw [Outcome.leave_of_ok _ _ hmessage]
  exact ⟨rfl, rfl⟩

theorem leave_scheduleRead_of_large (tiers budget : Nat) (openEnd : Bool)
    (h : 10 ^ Numeral.digitLimit ≤ budget) :
    Outcome.leave (.scheduleRead expression tiers budget openEnd) =
      Outcome.fail (.numeral .tooLongToWrite) := by
  have hfits : Numeral.fits budget = false := by
    rw [← Bool.not_eq_true, Numeral.fits_natCast]
    exact Nat.not_lt.mpr h
  exact Outcome.leave_of_error _ _
    (Note.message_scheduleRead_of_not_fits expression tiers openEnd hfits)

section Sound
variable (trees : List Tree) (houtline : hasOutline expression)
  (hterms : terms expression = trees.map Tree.text) (hsound : Sound policy trees)
include houtline hterms hsound

theorem read_of_sound (hne : trees ≠ [])
    (hbudget : (trees.map Tree.count).sum < 10 ^ Numeral.digitLimit) :
    (read policy expression).result = .ok (ofTrees trees hne) ∧
      (read policy expression).notes = ignoredNotes expression trees ++
        [.scheduleRead expression trees.length (trees.map Tree.count).sum
          (ofTrees trees hne).hasOpenEnd] := by
  obtain ⟨hresult, hnotes⟩ := readTerms_of_sound policy expression trees hsound
  rw [← hterms] at hresult hnotes
  obtain ⟨hleft, hnote⟩ := leave_scheduleRead expression trees.length
    (trees.map Tree.count).sum (ofTrees trees hne).hasOpenEnd hbudget
  rw [read_of_hasOutline policy expression houtline, Outcome.result_bind_of_ok _ _ _ hresult,
    Outcome.notes_bind_of_ok _ _ _ hresult, hnotes, ofTiers_tiersOf trees hne,
    Outcome.lift_bind_ok, budget_ofTrees, tiersOf, length_mapLast,
    Outcome.result_bind_of_ok _ _ _ hleft, Outcome.notes_bind_of_ok _ _ _ hleft, hnote]
  exact ⟨rfl, rfl⟩

theorem read_of_large_budget (hbudget : 10 ^ Numeral.digitLimit ≤ (trees.map Tree.count).sum) :
    (read policy expression).result = .error (.numeral .tooLongToWrite) := by
  have hne : trees ≠ [] := by
    rintro rfl
    exact terms_ne_nil expression hterms
  obtain ⟨hresult, -⟩ := readTerms_of_sound policy expression trees hsound
  rw [← hterms] at hresult
  rw [read_of_hasOutline policy expression houtline, Outcome.result_bind_of_ok _ _ _ hresult,
    ofTiers_tiersOf trees hne, Outcome.lift_bind_ok, budget_ofTrees, tiersOf, length_mapLast,
    leave_scheduleRead_of_large expression _ _ _ hbudget]
  rfl

end Sound

end

/-- The reading of an expression gets as far as one of its terms. -/
structure Reaches (policy : Policy) (expression : Text) (before : List Tree) (term : Text)
    (after : List Text) : Prop where
  outline : hasOutline expression
  spelled : terms expression = before.map Tree.text ++ term :: after
  admitted : ∀ tree ∈ before, Admitted policy tree false

/-- What makes an expression readable under a policy, given its terms as trees of the grammar. -/
structure Legible (policy : Policy) (expression : Text) (trees : List Tree) : Prop where
  solid : expression.Solid
  spelled : terms expression = trees.map Tree.text
  placed : policy.strict → ∀ term ∈ (terms expression).dropLast, term.getLast? ≠ some '+'
  short : ∀ tree ∈ trees, tree.Short
  budget : (trees.map Tree.count).sum < 10 ^ Numeral.digitLimit

section
variable {policy : Policy} {expression : Text} {trees : List Tree}

theorem Reaches.read {before : List Tree} {term : Text} {after : List Text} {fault : Fault}
    (h : Reaches policy expression before term after)
    (hoffends : Offends policy expression term after fault) :
    (read policy expression).result = .error fault := by
  have hresult := readTerms_of_offends policy expression before term after fault h.admitted hoffends
  rw [← h.spelled] at hresult
  rw [read_of_hasOutline policy expression h.outline, Outcome.result_bind_of_error _ _ _ hresult]

theorem Legible.sound (h : Legible policy expression trees) : Sound policy trees := by
  refine ⟨h.short, fun hstrict tree htree => ?_⟩
  have hterm : tree.text ∈ (terms expression).dropLast := by
    rw [h.spelled, ← List.map_dropLast]
    exact List.mem_map_of_mem htree
  rw [← Bool.not_eq_true, Tree.marked_iff]
  exact h.placed hstrict tree.text hterm

theorem Legible.hasOutline (h : Legible policy expression trees) : Term.hasOutline expression :=
  hasOutline_of_solid expression trees h.spelled h.solid

theorem Legible.ne_nil (h : Legible policy expression trees) : trees ≠ [] := by
  rintro rfl
  exact terms_ne_nil expression h.spelled

theorem Legible.read (h : Legible policy expression trees) :
    (read policy expression).result = .ok (ofTrees trees h.ne_nil) :=
  (read_of_sound policy expression trees h.hasOutline h.spelled h.sound h.ne_nil h.budget).1

inductive Ends (policy : Policy) (expression : Text) : Except Fault Schedule → Prop
  | blank (h : expression.all Text.blank) :
      Ends policy expression (.error (.reading (.blank expression)))
  | outline (hblank : expression.all Text.blank = false)
      (h : Term.hasOutline expression = false) :
      Ends policy expression (.error (.reading (.outline expression)))
  | offended (before : List Tree) (term : Text) (after : List Text) (fault : Fault)
      (hreaches : Reaches policy expression before term after)
      (h : Offends policy expression term after fault) :
      Ends policy expression (.error fault)
  | large (trees : List Tree) (houtline : Term.hasOutline expression)
      (hterms : terms expression = trees.map Tree.text) (hsound : Sound policy trees)
      (h : 10 ^ Numeral.digitLimit ≤ (trees.map Tree.count).sum) :
      Ends policy expression (.error (.numeral .tooLongToWrite))
  | legible (trees : List Tree) (h : Legible policy expression trees) :
      Ends policy expression (.ok (ofTrees trees h.ne_nil))

theorem legible_of_sound (houtline : Term.hasOutline expression)
    (hterms : terms expression = trees.map Tree.text) (hsound : Sound policy trees)
    (hbudget : (trees.map Tree.count).sum < 10 ^ Numeral.digitLimit) :
    Legible policy expression trees := by
  refine ⟨solid_of_hasOutline expression houtline, hterms, ?_, hsound.short, hbudget⟩
  intro hstrict term hterm
  rw [hterms, ← List.map_dropLast] at hterm
  obtain ⟨tree, htree, rfl⟩ := List.mem_map.mp hterm
  rw [ne_eq, ← Tree.marked_iff, Bool.not_eq_true]
  exact hsound.placed hstrict tree htree

theorem read_ends (policy : Policy) (expression : Text) :
    Ends policy expression (read policy expression).result := by
  cases hblank : expression.all Text.blank with
  | true =>
    rw [read_of_blank policy expression hblank]
    exact .blank hblank
  | false =>
    cases houtline : Term.hasOutline expression with
    | false =>
      rw [read_of_not_hasOutline policy expression hblank houtline]
      exact .outline hblank houtline
    | true =>
      rcases sound_or_offends policy expression (terms expression) with
        ⟨trees, hterms, hsound⟩ | ⟨before, term, after, fault, hterms, hbefore, h⟩
      · rcases Nat.lt_or_ge (trees.map Tree.count).sum (10 ^ Numeral.digitLimit) with
          hsmall | hlarge
        · have hlegible := legible_of_sound houtline hterms hsound hsmall
          rw [hlegible.read]
          exact .legible trees hlegible
        · rw [read_of_large_budget policy expression trees houtline hterms hsound hlarge]
          exact .large trees houtline hterms hsound hlarge
      · have hreaches : Reaches policy expression before term after := ⟨houtline, hterms, hbefore⟩
        rw [hreaches.read h]
        exact .offended before term after fault hreaches h

theorem exists_legible_of_read (s : Schedule) (h : (read policy expression).result = .ok s) :
    ∃ trees : List Tree, Legible policy expression trees := by
  have hends := read_ends policy expression
  rw [h] at hends
  cases hends with
  | legible trees hlegible => exact ⟨trees, hlegible⟩

theorem exists_trees_of_read {s : Schedule} (h : (read policy expression).result = .ok s) :
    ∃ (trees : List Tree) (hlegible : Legible policy expression trees),
      ofTrees trees hlegible.ne_nil = s := by
  obtain ⟨trees, hlegible⟩ := exists_legible_of_read s h
  exact ⟨trees, hlegible, Except.ok.inj (hlegible.read.symm.trans h)⟩

theorem eq_of_spelled {other : List Tree} (h : terms expression = trees.map Tree.text)
    (h' : terms expression = other.map Tree.text) : trees = other :=
  Tree.text_injective.list_map (h.symm.trans h')

end

/-- The language of expressions and its meaning. An expression is read exactly if it is legible, and
then each of its terms gives the tier that it denotes; a marker counts in the last term only. -/
theorem read_iff_legible (policy : Policy) (expression : Text) :
    ((∃ s, (read policy expression).result = .ok s) ↔
      ∃ trees, Legible policy expression trees) ∧
    ∀ s (trees : List Tree), (read policy expression).result = .ok s →
      terms expression = trees.map Tree.text →
        s.tiers.length = (terms expression).length ∧
        ∀ (i : Nat) (tree : Tree), trees[i]? = some tree →
          s.tiers[i]? = some (tree.tier (decide (i + 1 = (terms expression).length))) := by
  refine ⟨⟨fun ⟨s, h⟩ => exists_legible_of_read s h, fun ⟨trees, h⟩ => ⟨_, h.read⟩⟩, ?_⟩
  intro s trees h hterms
  -- The trees of the expression are unique, so they are those of the reading.
  obtain ⟨other, hlegible⟩ := exists_legible_of_read s h
  obtain rfl := eq_of_spelled hterms hlegible.spelled
  obtain rfl := Except.ok.inj (hlegible.read.symm.trans h)
  have hlength : (terms expression).length = trees.length := by rw [hterms, List.length_map]
  rw [hlength]
  refine ⟨length_mapLast Tree.tier trees, fun i tree htree => ?_⟩
  have htier := mapLast_getElem? Tree.tier trees i
  rw [htree] at htier
  exact htier

end RetrySchedule.Schedule
