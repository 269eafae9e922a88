import RetrySchedule.Proofs.Reading.Faults

namespace RetrySchedule

namespace Tier
open Term

/-- The complaint about a misplaced marker is told from all other complaints by its words. -/
theorem Flaw.message_ne {term : Text} {cause : ReadingFault} (h : Flaw term cause)
    (expression : Text) :
    cause.message ≠ (ReadingFault.misplacedMarker term expression).message := by
  intro heq
  have hlist := congrArg String.toList heq
  cases h with
  | empty h =>
    subst h
    simp [ReadingFault.message, Text.quoted] at hlist
  | repeatCount rate => simp [ReadingFault.message] at hlist
  | noScale => simp [ReadingFault.message] at hlist
  | malformed cause => simp [ReadingFault.message, ReadingFault.malformedMessage] at hlist

/-- What stands before the unit of a term is refused as a numeral, and nothing in front of this is
wrong with the term. -/
structure Unnumbered (term : Text) (refused : NumeralFault) : Prop where
  ne_nil : term ≠ []
  rate : ∀ rate ∈ (divide term).rate, isCounting rate
  amount : (divide term).amount ≠ zeroAmount
  numeral : ∃ (numeral : Text) (scale : Scale), (divide term).amount = numeral ++ scale.symbol ∧
    (scale = .seconds → numeral.getLast? ≠ some 'm') ∧ Numeral.read numeral = .error refused

theorem refuses_iff {amount : Text} {refused : NumeralFault} : Refuses amount refused ↔
    amount ≠ zeroAmount ∧ ∃ (numeral : Text) (scale : Scale), amount = numeral ++ scale.symbol ∧
      (scale = .seconds → numeral.getLast? ≠ some 'm') ∧ Numeral.read numeral = .error refused := by
  have hfront : ∀ (numeral : Text) (scale : Scale), (numeral ++ scale.symbol).take
      ((numeral ++ scale.symbol).length - scale.symbol.length) = numeral := by
    intro numeral scale
    rw [List.length_append, Nat.add_sub_cancel, List.take_left]
  constructor
  · rintro ⟨hzero, scale, hscale, hread⟩
    obtain ⟨numeral, rfl, hlast⟩ := Scale.ofSuffix?_eq_some_iff.mp hscale
    rw [hfront] at hread
    exact ⟨hzero, numeral, scale, rfl, hlast, hread⟩
  · rintro ⟨hzero, numeral, scale, rfl, hlast, hread⟩
    refine ⟨hzero, scale, Scale.ofSuffix?_eq_some_iff.mpr ⟨numeral, rfl, hlast⟩, ?_⟩
    rw [hfront]
    exact hread

section
variable {term : Text}

theorem isCounting_of_readCount {rate : Option Text} {count : Int}
    (h : readCount term rate = .ok count) : ∀ given ∈ rate, isCounting given := by
  rintro given rfl
  by_contra hform
  rw [readCount, if_neg hform] at h
  cases h

theorem exists_count_of_isCounting {cause : ReadingFault}
    (h : ofTerm term = .error (.reading cause))
    (hform : ∀ rate ∈ (divide term).rate, isCounting rate) :
    ∃ count, readCount term (divide term).rate = .ok count := by
  cases hrate : (divide term).rate with
  | none => exact ⟨1, rfl⟩
  | some rate =>
    obtain ⟨n, rfl⟩ := (isCounting_iff rate).mp (hform rate hrate)
    have hshort : ¬ Numeral.digitLimit < n.digits.length := by
      intro hlong
      cases h.symm.trans ((ofTerm_eq_numeral_iff term _).mpr ⟨n, hrate, hlong, rfl⟩)
    exact ⟨n.value, by rw [readCount_counting, if_neg hshort]⟩

theorem Unnumbered.ofTerm_ne_ok {refused : NumeralFault} (h : Unnumbered term refused)
    (tier : Tier) : ofTerm term ≠ .ok tier := by
  intro hread
  cases hcount : readCount term (divide term).rate with
  | ok count =>
    have hrefused := (ofTerm_eq_refused_iff term refused).mpr
      ⟨⟨count, hcount⟩, refuses_iff.mpr ⟨h.amount, h.numeral⟩⟩
    cases hread.symm.trans hrefused
  | error fault =>
    rw [ofTerm_of_ne_nil term h.ne_nil, hcount] at hread
    cases hread

theorem exists_overlong_of_text {tree : Tree} {cause : ReadingFault}
    (h : ofTerm tree.text = .error (.reading cause)) :
    ∃ n, tree.amount.numeral = some n ∧ Numeral.digitLimit < n.digits.length := by
  by_contra hnone
  have hshort : tree.Short := by
    intro n hn
    by_contra hlong
    rw [Nat.not_le] at hlong
    rcases List.mem_append.mp hn with hamount | hrate
    · exact hnone ⟨n, Option.mem_toList.mp hamount, hlong⟩
    · have hdivided : (divide tree.text).rate = some n.digits := by
        rw [divide_text, Option.mem_toList.mp hrate]
        rfl
      cases h.symm.trans ((ofTerm_eq_numeral_iff _ _).mpr ⟨n, hdivided, hlong, rfl⟩)
  cases h.symm.trans (ofTerm_text tree hshort)

theorem cause?_eq_some_iff {cause : ReadingFault} (h : ofTerm term = .error (.reading cause))
    (refused : NumeralFault) : cause.cause? = some refused ↔ Unnumbered term refused := by
  constructor
  · intro hcause
    cases flaw_of_ofTerm h with
    | malformed given =>
      obtain rfl : given = some refused := hcause
      obtain ⟨⟨count, hcount⟩, hrefuses⟩ := (ofTerm_eq_refused_iff term refused).mp h
      obtain ⟨hzero, hnumeral⟩ := refuses_iff.mp hrefuses
      refine ⟨?_, isCounting_of_readCount hcount, hzero, hnumeral⟩
      rintro rfl
      cases h
    | _ => cases hcause
  · rintro ⟨-, hform, hzero, hnumeral⟩
    have hrefused := (ofTerm_eq_refused_iff term refused).mpr
      ⟨exists_count_of_isCounting h hform, refuses_iff.mpr ⟨hzero, hnumeral⟩⟩
    obtain rfl := Fault.reading.inj (Except.error.inj (h.symm.trans hrefused))
    rfl

end
end Tier

namespace Schedule
open Term

/-- What is wrong with a term in its place. -/
inductive Wrong (policy : Policy) (term : Text) (isLast : Bool) : Prop
  | foreign (h : ∀ tree : Tree, term ≠ tree.text)
  | overlong (tree : Tree) (n : Counting) (hterm : term = tree.text)
      (hn : tree.amount.numeral = some n) (h : Numeral.digitLimit < n.digits.length)
  | misplaced (hstrict : policy.strict) (hmarked : term.getLast? = some '+')
      (h : isLast = false)

theorem Admitted.not_wrong {policy : Policy} {tree : Tree} {isLast : Bool}
    (h : Admitted policy tree isLast) : ¬ Wrong policy tree.text isLast := by
  intro hwrong
  cases hwrong with
  | foreign hforeign => exact hforeign tree rfl
  | overlong other n hterm hn hlong =>
    obtain rfl := Tree.text_injective hterm
    have hshort := h.short n (List.mem_append_left _ (Option.mem_toList.mpr hn))
    omega
  | misplaced hstrict hmarked hlast =>
    have hunmarked := h.placed hlast hstrict
    rw [← Bool.not_eq_true, tree.marked_iff] at hunmarked
    exact hunmarked hmarked

section
variable {policy : Policy} {expression term : Text} {after : List Text} {cause : ReadingFault}
  (h : Offends policy expression term after (.reading cause))
include h

theorem Offends.wrong : Wrong policy term after.isEmpty := by
  rcases h with hread | ⟨tree, rfl, -, hmarked, hafter, hstrict, -⟩
  · by_cases hterm : ∃ tree : Tree, term = tree.text
    · obtain ⟨tree, rfl⟩ := hterm
      obtain ⟨n, hn, hlong⟩ := Tier.exists_overlong_of_text hread
      exact .overlong tree n rfl hn hlong
    · exact .foreign fun tree htree => hterm ⟨tree, htree⟩
  · exact .misplaced hstrict (tree.marked_iff.mp hmarked) (by simpa using hafter)

theorem Offends.message_eq_iff :
    cause.message = (ReadingFault.misplacedMarker term expression).message ↔
      ∃ tree : Tree, term = tree.text ∧ tree.Short := by
  rcases h with hread | ⟨tree, rfl, hshort, -, -, -, hcause⟩
  · refine iff_of_false ((Tier.flaw_of_ofTerm hread).message_ne expression) ?_
    rintro ⟨tree, rfl, hshort⟩
    cases hread.symm.trans (Tier.ofTerm_text tree hshort)
  · obtain rfl := Fault.reading.inj hcause
    exact iff_of_true rfl ⟨tree, rfl, hshort⟩

theorem Offends.cause?_eq_some_iff (refused : NumeralFault) :
    cause.cause? = some refused ↔ Tier.Unnumbered term refused := by
  rcases h with hread | ⟨tree, rfl, hshort, -, -, -, hcause⟩
  · exact Tier.cause?_eq_some_iff hread refused
  · obtain rfl := Fault.reading.inj hcause
    refine iff_of_false (fun hrefused => ?_) fun hnumeral => ?_
    · cases hrefused
    · exact hnumeral.ofTerm_ne_ok _ (Tier.ofTerm_text tree hshort)

end

/-- A reading that finds fault with a term stops at the leftmost one that is wrong. -/
theorem exists_leftmost_of_read {policy : Policy} {expression : Text} {cause : ReadingFault}
    (houtline : hasOutline expression)
    (h : (read policy expression).result = .error (.reading cause)) :
    ∃ (i : Nat) (term : Text) (after : List Text), (terms expression)[i]? = some term ∧
      after.isEmpty = decide (i + 1 = (terms expression).length) ∧
      Offends policy expression term after (.reading cause) ∧
      ∀ (j : Nat) (earlier : Text), j < i → (terms expression)[j]? = some earlier →
        ¬ Wrong policy earlier (decide (j + 1 = (terms expression).length)) := by
  have hends := read_ends policy expression
  rw [h] at hends
  cases hends with
  | blank hblank =>
    rw [not_blank_of_hasOutline expression houtline] at hblank
    cases hblank
  | outline _ hnone =>
    rw [houtline] at hnone
    cases hnone
  | offended before term after _ hreaches hoffends =>
    have hlength : (terms expression).length = before.length + 1 + after.length := by
      rw [hreaches.spelled, List.length_append, List.length_map, List.length_cons]
      omega
    refine ⟨before.length, term, after, ?_, ?_, hoffends, fun j earlier hj hearlier => ?_⟩
    · rw [hreaches.spelled, List.getElem?_append_right (by rw [List.length_map]), List.length_map,
        Nat.sub_self, List.getElem?_cons_zero]
    · rw [hlength]
      cases after <;> simp
    · rw [hreaches.spelled, List.getElem?_append_left (by rwa [List.length_map]),
        List.getElem?_map] at hearlier
      obtain ⟨tree, htree, rfl⟩ := Option.map_eq_some_iff.mp hearlier
      -- The reading only gets past a term that may stand in front of others.
      exact ((hreaches.admitted tree (List.mem_of_getElem? htree)).anywhere _).not_wrong

/-- The leftmost wrong term is blamed. An expression without the outline of one is blamed as a
whole. In any other a fault of the expression names the first term that is not in the grammar, has a
first numeral that is too long or, under a strict policy, is marked in front of others; only for the
last of these reasons it is called misplaced, and the cause of the fault is the numeral that was
refused, if one was. -/
theorem leftmost_blamed (policy : Policy) (expression : Text) :
    (expression.all Text.blank ∨ hasOutline expression = false → ∃ cause,
      (read policy expression).result = .error (.reading cause) ∧ cause.subject = expression ∧
        cause.cause? = none) ∧
    (expression.all Text.blank = false → hasOutline expression → ∀ cause,
      (read policy expression).result = .error (.reading cause) →
      ∃ (i : Nat) (term : Text), (terms expression)[i]? = some term ∧
        Wrong policy term (decide (i + 1 = (terms expression).length)) ∧
        (∀ (j : Nat) (earlier : Text), j < i → (terms expression)[j]? = some earlier →
          ¬ Wrong policy earlier (decide (j + 1 = (terms expression).length))) ∧
        cause.subject = term ∧
        (cause.message = String.ofList (Text.quoted term) ++
            " is unbounded but is not the last term of " ++ String.ofList (Text.quoted expression) ↔
          ∃ tree : Tree, term = tree.text ∧ tree.Short) ∧
        ∀ refused, cause.cause? = some refused ↔ Tier.Unnumbered term refused) := by
  constructor
  · intro hwhole
    by_cases hblank : expression.all Text.blank
    · exact ⟨.blank expression, by rw [read_of_blank policy expression hblank]; rfl, rfl, rfl⟩
    · rw [Bool.not_eq_true] at hblank
      have houtline := hwhole.resolve_left (by simp [hblank])
      exact ⟨.outline expression,
        by rw [read_of_not_hasOutline policy expression hblank houtline]; rfl, rfl, rfl⟩
  · intro _ houtline cause h
    obtain ⟨i, term, after, hterm, hlast, hoffends, hleast⟩ := exists_leftmost_of_read houtline h
    exact ⟨i, term, hterm, hlast ▸ hoffends.wrong, hleast, hoffends.subject_eq,
      hoffends.message_eq_iff, hoffends.cause?_eq_some_iff⟩

/-- The first term is misplaced and the second has no unit: which one is blamed depends on whether
the marker of the first one may stand. -/
example :
    (read ⟨true⟩ "1s+,2x,3s".toList).result =
      .error (.reading (.misplacedMarker "1s+".toList "1s+,2x,3s".toList)) ∧
    (read ⟨false⟩ "1s+,2x,3s".toList).result = .error (.reading (.noScale "2x".toList)) :=
  ⟨rfl, rfl⟩

end Schedule
end RetrySchedule
