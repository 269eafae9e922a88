import RetrySchedule.Proofs.Journal
import RetrySchedule.Proofs.Lists
import RetrySchedule.Proofs.Reading.Term
import RetrySchedule.Proofs.Schedule

namespace RetrySchedule.Schedule
open Term Makers

def tiersOf : List Tree → List Tier :=
  mapLast Tree.tier

theorem bounded_of_mem_dropLast_tiersOf (trees : List Tree) (tier : Tier)
    (h : tier ∈ (tiersOf trees).dropLast) : tier.extent = .bounded := by
  rcases List.eq_nil_or_concat trees with rfl | ⟨before, last, rfl⟩
  · exact absurd h List.not_mem_nil
  · rw [tiersOf, List.concat_eq_append, mapLast_concat, List.dropLast_concat] at h
    obtain ⟨tree, -, rfl⟩ := List.mem_map.mp h
    simp [Tree.tier]

theorem tiersOf_ne_nil (trees : List Tree) (h : trees ≠ []) : tiersOf trees ≠ [] := by
  rw [← List.length_pos_iff, tiersOf, length_mapLast]
  exact List.length_pos_iff.mpr h

def ofTrees (trees : List Tree) (h : trees ≠ []) : Schedule :=
  ⟨tiersOf trees, tiersOf_ne_nil trees h, bounded_of_mem_dropLast_tiersOf trees⟩

theorem ofTiers_tiersOf (trees : List Tree) (h : trees ≠ []) :
    ofTiers (tiersOf trees) = .ok (ofTrees trees h) := by
  rw [ofTiers, dif_neg (tiersOf_ne_nil trees h), dif_pos (bounded_of_mem_dropLast_tiersOf trees)]
  rfl

theorem budget_ofTrees (trees : List Tree) (h : trees ≠ []) :
    (ofTrees trees h).budget = (trees.map Tree.count).sum := by
  have hcounts : (tiersOf trees).map Tier.count = trees.map Tree.count :=
    (map_mapLast Tier.count Tree.tier trees).trans (mapLast_const Tree.count trees)
  exact (budget_eq _).trans (congrArg List.sum hcounts)

theorem last_ofTrees (before : List Tree) (tree : Tree) (h : before ++ [tree] ≠ []) :
    (ofTrees (before ++ [tree]) h).last = tree.tier true := by
  simp only [last, ofTrees, tiersOf, mapLast_concat, List.getLast_concat]

theorem hasOpenEnd_ofTrees (before : List Tree) (tree : Tree) (h : before ++ [tree] ≠ []) :
    (ofTrees (before ++ [tree]) h).hasOpenEnd = tree.marked := by
  rw [hasOpenEnd, last_ofTrees, Tier.isOpen, Tree.tier]
  cases tree.marked <;> rfl

/-- The terms of an expression whose tiers are all accepted under a policy. -/
structure Sound (policy : Policy) (trees : List Tree) : Prop where
  short : ∀ tree ∈ trees, tree.Short
  placed : policy.strict → ∀ tree ∈ trees.dropLast, tree.marked = false

/-- A term that is accepted where it stands. -/
structure Admitted (policy : Policy) (tree : Tree) (isLast : Bool) : Prop where
  short : tree.Short
  placed : isLast = false → policy.strict → tree.marked = false

theorem Admitted.anywhere {policy : Policy} {tree : Tree} (h : Admitted policy tree false)
    (isLast : Bool) : Admitted policy tree isLast :=
  ⟨h.short, fun _ => h.placed rfl⟩

def ignoredNote (expression : Text) (tree : Tree) (isLast : Bool) : List Note :=
  if tree.marked && !isLast then [.markerIgnored tree.text expression] else []

def ignoredNotes (expression : Text) (trees : List Tree) : List Note :=
  (mapLast (ignoredNote expression) trees).flatten

/-- Why a term cannot be read where it stands: by itself, or for its marker. -/
def Offends (policy : Policy) (expression term : Text) (after : List Text) (fault : Fault) : Prop :=
  Tier.ofTerm term = .error fault ∨
    ∃ tree : Tree, term = tree.text ∧ tree.Short ∧ tree.marked ∧ after ≠ [] ∧ policy.strict ∧
      fault = .reading (.misplacedMarker term expression)

section
variable (policy : Policy) (expression : Text)

theorem readTerms_cons (term : Text) (rest : List Text) :
    readTerms policy expression (term :: rest) =
      (liftM (Tier.ofTerm term) : Outcome Tier) >>= fun tier =>
        checked.place policy expression term rest.isEmpty tier >>= fun placed =>
          readTerms policy expression rest >>= fun others => pure (placed :: others) := rfl

theorem readTerms_of_error (term : Text) (rest : List Text) (fault : Fault)
    (h : Tier.ofTerm term = .error fault) :
    (readTerms policy expression (term :: rest)).result = .error fault := by
  rw [readTerms_cons, h]
  rfl

theorem readTerms_of_misplaced (tree : Tree) (rest : List Text) (h : tree.Short)
    (hmarked : tree.marked) (hrest : rest ≠ []) (hstrict : policy.strict) :
    (readTerms policy expression (tree.text :: rest)).result =
      .error (.reading (.misplacedMarker tree.text expression)) := by
  have hopen : (tree.tier true).isOpen = true := by simp [Tier.isOpen, Tree.tier, hmarked]
  have hmore : rest.isEmpty = false := by simpa using hrest
  rw [readTerms_cons, Tier.ofTerm_text tree h]
  simp only [Outcome.lift_bind_ok, place, hopen, hmore, settle, hstrict]
  rfl

theorem settle_lenient (tree : Tree) (h : policy.strict = false) :
    (checked.settle policy expression tree.text (tree.tier true)).result = .ok (tree.tier false) ∧
      (checked.settle policy expression tree.text (tree.tier true)).notes =
        [.markerIgnored tree.text expression] := by
  have hclosed : Tier.ofInts (tree.tier true).magnitude (tree.tier true).scale
      (tree.tier true).count .bounded = .ok (tree.tier false) := by
    rw [Tree.tier, Tier.ofInts_cast, Tree.tier]
    simp only [Bool.and_false, Bool.false_eq_true, if_false]
  have hmade : checked.tier = Tier.ofInts := rfl
  rw [settle, if_neg (by simp [h]), hmade, hclosed]
  exact ⟨rfl, rfl⟩

/-- A marker that others follow is taken off, with a note, where the policy lets it pass. -/
theorem place_of_admitted (tree : Tree) (isLast : Bool) (h : Admitted policy tree isLast) :
    (checked.place policy expression tree.text isLast (tree.tier true)).result =
        .ok (tree.tier isLast) ∧
      (checked.place policy expression tree.text isLast (tree.tier true)).notes =
        ignoredNote expression tree isLast := by
  cases isLast with
  | true =>
    rw [place, ignoredNote]
    simp only [Bool.not_true, Bool.and_false]
    exact ⟨rfl, rfl⟩
  | false =>
    cases hmarked : tree.marked with
    | false =>
      have hclosed : (tree.tier true).isOpen = false := by
        simp [Tier.isOpen, Tree.tier, hmarked]
      have htier : tree.tier true = tree.tier false := by simp [Tree.tier, hmarked]
      rw [place, hclosed, ignoredNote, hmarked, htier]
      exact ⟨rfl, rfl⟩
    | true =>
      have hlenient : policy.strict = false := by
        by_contra hstrict
        rw [Bool.not_eq_false] at hstrict
        exact Bool.noConfusion (hmarked.symm.trans (h.placed rfl hstrict))
      have hopen : (tree.tier true).isOpen = true := by simp [Tier.isOpen, Tree.tier, hmarked]
      rw [place, hopen, ignoredNote, hmarked]
      exact settle_lenient policy expression tree hlenient

theorem readTerms_cons_text (tree : Tree) (rest : List Text)
    (h : Admitted policy tree rest.isEmpty) :
    (readTerms policy expression (tree.text :: rest)).result =
        (readTerms policy expression rest).result.map (tree.tier rest.isEmpty :: ·) ∧
      (readTerms policy expression (tree.text :: rest)).notes =
        ignoredNote expression tree rest.isEmpty ++ (readTerms policy expression rest).notes := by
  obtain ⟨hresult, hnotes⟩ := place_of_admitted policy expression tree rest.isEmpty h
  rw [readTerms_cons, Tier.ofTerm_text tree h.short, Outcome.lift_bind_ok,
    Outcome.result_bind_of_ok _ _ _ hresult, Outcome.notes_bind_of_ok _ _ _ hresult, hnotes]
  cases hrest : (readTerms policy expression rest).result with
  | ok others =>
    rw [Outcome.result_bind_of_ok _ _ _ hrest, Outcome.notes_bind_of_ok _ _ _ hrest,
      Outcome.notes_pure, List.append_nil]
    exact ⟨rfl, rfl⟩
  | error fault =>
    rw [Outcome.result_bind_of_error _ _ _ hrest, Outcome.notes_bind_of_error _ _ _ hrest]
    exact ⟨rfl, rfl⟩

theorem sound_cons (tree : Tree) (rest : List Tree) : Sound policy (tree :: rest) ↔
    Admitted policy tree rest.isEmpty ∧ Sound policy rest := by
  constructor
  · rintro ⟨hshort, hplaced⟩
    obtain ⟨hhead, htail⟩ := List.forall_mem_cons.mp hshort
    cases rest with
    | nil =>
      exact ⟨⟨hhead, fun h => Bool.noConfusion h⟩, htail, fun _ _ h => absurd h (by simp)⟩
    | cons next rest =>
      refine ⟨⟨hhead, fun _ hstrict => ?_⟩, htail, fun hstrict t ht => ?_⟩
      · exact hplaced hstrict tree (List.mem_cons_self ..)
      · exact hplaced hstrict t (List.mem_cons_of_mem _ ht)
  · rintro ⟨hfirst, hshort, hplaced⟩
    refine ⟨List.forall_mem_cons.mpr ⟨hfirst.short, hshort⟩, fun hstrict t ht => ?_⟩
    cases rest with
    | nil => exact absurd ht (by simp)
    | cons next rest =>
      rcases List.mem_cons.mp ht with rfl | ht
      · exact hfirst.placed rfl hstrict
      · exact hplaced hstrict t ht

theorem readTerms_of_sound (trees : List Tree) (h : Sound policy trees) :
    (readTerms policy expression (trees.map Tree.text)).result = .ok (tiersOf trees) ∧
      (readTerms policy expression (trees.map Tree.text)).notes =
        ignoredNotes expression trees := by
  induction trees with
  | nil => exact ⟨rfl, rfl⟩
  | cons tree rest ih =>
    obtain ⟨hfirst, hrest⟩ := (sound_cons policy tree rest).mp h
    obtain ⟨hresult, hnotes⟩ := ih hrest
    have hempty : (rest.map Tree.text).isEmpty = rest.isEmpty := List.isEmpty_map
    have hstep := readTerms_cons_text policy expression tree (rest.map Tree.text) (hempty ▸ hfirst)
    rw [hresult, hnotes, hempty] at hstep
    exact hstep

theorem readTerms_of_offends (before : List Tree) (term : Text) (after : List Text)
    (fault : Fault) (hbefore : ∀ tree ∈ before, Admitted policy tree false)
    (h : Offends policy expression term after fault) :
    (readTerms policy expression (before.map Tree.text ++ term :: after)).result =
      .error fault := by
  induction before with
  | nil =>
    rcases h with h | ⟨tree, rfl, htree, hmarked, hafter, hstrict, rfl⟩
    · exact readTerms_of_error policy expression term after fault h
    · exact readTerms_of_misplaced policy expression tree after htree hmarked hafter hstrict
  | cons tree before ih =>
    obtain ⟨htree, hbefore⟩ := List.forall_mem_cons.mp hbefore
    have hstep := readTerms_cons_text policy expression tree
      (before.map Tree.text ++ term :: after) (htree.anywhere _)
    rw [ih hbefore] at hstep
    exact hstep.1

/-- Either all terms are accepted, or there is a first one that offends. -/
theorem sound_or_offends (terms : List Text) :
    (∃ trees : List Tree, terms = trees.map Tree.text ∧ Sound policy trees) ∨
      ∃ (before : List Tree) (term : Text) (after : List Text) (fault : Fault),
        terms = before.map Tree.text ++ term :: after ∧
        (∀ tree ∈ before, Admitted policy tree false) ∧
        Offends policy expression term after fault := by
  induction terms with
  | nil => exact Or.inl ⟨[], rfl, by simp, by simp⟩
  | cons term rest ih =>
    -- The first term is read by itself, and only then is its marker looked at: what is misplaced
    -- is always a term of the grammar.
    rcases Tier.ofTerm_cases term with ⟨tree, rfl, hshort, -⟩ | ⟨cause, -, h⟩ | ⟨n, -, -, h⟩
    · by_cases hplaced : rest.isEmpty = false → policy.strict → tree.marked = false
      · rcases ih with ⟨trees, rfl, hsound⟩ | ⟨before, term, after, fault, rfl, hbefore, h⟩
        · rw [List.isEmpty_map] at hplaced
          exact Or.inl ⟨tree :: trees, rfl,
            (sound_cons policy tree trees).mpr ⟨⟨hshort, hplaced⟩, hsound⟩⟩
        · have htree : Admitted policy tree false := ⟨hshort, fun _ => hplaced (by simp)⟩
          exact Or.inr ⟨tree :: before, term, after, fault, rfl,
            List.forall_mem_cons.mpr ⟨htree, hbefore⟩, h⟩
      · simp only [Classical.not_imp, Bool.not_eq_false] at hplaced
        obtain ⟨hrest, hstrict, hmarked⟩ := hplaced
        have hoffends : Offends policy expression tree.text rest
            (.reading (.misplacedMarker tree.text expression)) :=
          Or.inr ⟨tree, rfl, hshort, hmarked, by simpa using hrest, hstrict, rfl⟩
        exact Or.inr ⟨[], tree.text, rest, _, rfl, by simp, hoffends⟩
    · exact Or.inr ⟨[], term, rest, _, rfl, by simp, Or.inl h⟩
    · exact Or.inr ⟨[], term, rest, _, rfl, by simp, Or.inl h⟩

end
end RetrySchedule.Schedule
