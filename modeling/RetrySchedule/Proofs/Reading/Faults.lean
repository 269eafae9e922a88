import RetrySchedule.Proofs.Reading.Language

namespace RetrySchedule.Schedule
open Term

/-- The reading gets as far as a rate of so many digits, more than can be read. What stands before
the rate in its term is not looked at. -/
def LongRate (policy : Policy) (expression : Text) (digits : Nat) : Prop :=
  ∃ (before : List Tree) (amount : Text) (n : Counting) (marked : Bool) (after : List Text),
    Reaches policy expression before (amount ++ '/' :: n.digits ++ Tree.markText marked) after ∧
    '/' ∉ amount ∧ n.digits.length = digits ∧ Numeral.digitLimit < digits

/-- All terms are accepted, but the sum of their counts cannot be written. -/
def LargeBudget (policy : Policy) (expression : Text) : Prop :=
  ∃ trees : List Tree, hasOutline expression ∧ terms expression = trees.map Tree.text ∧
    Sound policy trees ∧ 10 ^ Numeral.digitLimit ≤ (trees.map Tree.count).sum

section
variable {policy : Policy} {expression : Text}

theorem Offends.cases {term : Text} {after : List Text} {fault : Fault}
    (h : Offends policy expression term after fault) :
    (∃ cause, fault = .reading cause ∧
      (Tier.Flaw term cause ∨ cause = .misplacedMarker term expression)) ∨
    ∃ n : Counting, (divide term).rate = some n.digits ∧
      Numeral.digitLimit < n.digits.length ∧ fault = .numeral (.tooLongToRead n.digits.length) := by
  rcases h with h | ⟨tree, rfl, -, -, -, -, rfl⟩
  · rcases Tier.ofTerm_cases term with
      ⟨_, _, _, hread⟩ | ⟨cause, hflaw, hread⟩ | ⟨n, hn, hlong, hread⟩
    · cases h.symm.trans hread
    · exact Or.inl ⟨cause, Except.error.inj (h.symm.trans hread), Or.inl hflaw⟩
    · exact Or.inr ⟨n, hn, hlong, Except.error.inj (h.symm.trans hread)⟩
  · exact Or.inl ⟨_, rfl, Or.inr rfl⟩

theorem Offends.subject_eq {term : Text} {after : List Text} {cause : ReadingFault}
    (h : Offends policy expression term after (.reading cause)) : cause.subject = term := by
  rcases h with hread | ⟨tree, rfl, -, -, -, -, hcause⟩
  · exact (Tier.flaw_of_ofTerm hread).subject_eq
  · obtain rfl := Fault.reading.inj hcause
    rfl

theorem reading_or_numeral_of_read {fault : Fault}
    (h : (read policy expression).result = .error fault) :
    (∃ cause, fault = .reading cause) ∨ ∃ refused, fault = .numeral refused := by
  have hends := read_ends policy expression
  rw [h] at hends
  cases hends with
  | blank => exact Or.inl ⟨_, rfl⟩
  | outline => exact Or.inl ⟨_, rfl⟩
  | offended _ _ _ _ _ hoffends =>
    rcases hoffends.cases with ⟨cause, hcause, -⟩ | ⟨n, -, -, hn⟩
    · exact Or.inl ⟨cause, hcause⟩
    · exact Or.inr ⟨_, hn⟩
  | large => exact Or.inr ⟨_, rfl⟩

theorem blank_of_read_iff :
    (∃ blamed, (read policy expression).result = .error (.reading (.blank blamed))) ↔
      expression.all Text.blank := by
  constructor
  · rintro ⟨blamed, h⟩
    have hends := read_ends policy expression
    rw [h] at hends
    cases hends with
    | blank hblank => exact hblank
    | offended _ _ _ _ _ hoffends =>
      rcases hoffends.cases with ⟨_, hcause, hflaw | rfl⟩ | ⟨n, -, -, hn⟩
      · exact absurd (Fault.reading.inj hcause).symm (hflaw.ne_blank blamed)
      · cases hcause
      · cases hn
  · intro h
    exact ⟨expression, by rw [read_of_blank policy expression h]; rfl⟩

theorem read_of_longRate {digits : Nat} (h : LongRate policy expression digits) :
    (read policy expression).result = .error (.numeral (.tooLongToRead digits)) := by
  obtain ⟨before, amount, n, marked, after, hreaches, hslash, rfl, hlong⟩ := h
  have hrate := (divide_rate_iff _ n).mpr ⟨amount, marked, rfl, hslash⟩
  have hfault := (Tier.ofTerm_eq_numeral_iff _ _).mpr ⟨n, hrate, hlong, rfl⟩
  exact hreaches.read (Or.inl hfault)

theorem longRate_of_rated (policy : Policy) (a : Amount) (n : Counting) (marked : Bool)
    (h : Numeral.digitLimit < n.digits.length) :
    LongRate policy (Tree.text ⟨a, some n, marked⟩) n.digits.length := by
  have hsolid := Tree.solid_text ⟨a, some n, marked⟩
  have hterms := terms_of_solid _ (Tree.separator_not_mem_text _) hsolid
  have houtline := hasOutline_of_solid _ [⟨a, some n, marked⟩] hterms hsolid
  exact ⟨[], a.text, n, marked, [], ⟨houtline, hterms, by simp⟩,
    a.not_mem_text (by decide) (by decide), rfl, h⟩

theorem numeral_of_read_iff (refused : NumeralFault) :
    (read policy expression).result = .error (.numeral refused) ↔
      (∃ digits, refused = .tooLongToRead digits ∧ LongRate policy expression digits) ∨
        (refused = .tooLongToWrite ∧ LargeBudget policy expression) := by
  constructor
  · intro h
    have hends := read_ends policy expression
    rw [h] at hends
    cases hends with
    | offended before term after _ hreaches hoffends =>
      rcases hoffends.cases with ⟨_, hcause, -⟩ | ⟨n, hrate, hlong, hn⟩
      · cases hcause
      · obtain rfl := Fault.numeral.inj hn
        obtain ⟨amount, marked, rfl, hslash⟩ := (divide_rate_iff term n).mp hrate
        exact Or.inl ⟨_, rfl, before, amount, n, marked, after, hreaches, hslash, rfl, hlong⟩
    | large trees houtline hterms hsound hlarge =>
      exact Or.inr ⟨rfl, trees, houtline, hterms, hsound, hlarge⟩
  · rintro (⟨digits, rfl, hlong⟩ | ⟨rfl, trees, houtline, hterms, hsound, hlarge⟩)
    · exact read_of_longRate hlong
    · exact read_of_large_budget policy expression trees houtline hterms hsound hlarge

theorem refused_of_read_iff (term : Text) (refused : NumeralFault) :
    (read policy expression).result = .error (.reading (.malformedTerm term (some refused))) ↔
      ∃ (before : List Tree) (after : List Text), Reaches policy expression before term after ∧
        (∃ count, Tier.readCount term (divide term).rate = .ok count) ∧
        Tier.Refuses (divide term).amount refused := by
  constructor
  · intro h
    have hends := read_ends policy expression
    rw [h] at hends
    cases hends with
    | offended before blamed after _ hreaches hoffends =>
      obtain rfl : term = blamed := hoffends.subject_eq
      rcases hoffends with hread | ⟨_, -, -, -, -, -, hcause⟩
      · exact ⟨before, after, hreaches, (Tier.ofTerm_eq_refused_iff term refused).mp hread⟩
      · cases hcause
  · rintro ⟨before, after, hreaches, hrefused⟩
    exact hreaches.read (Or.inl ((Tier.ofTerm_eq_refused_iff term refused).mpr hrefused))

end

/-- Which faults leave a reading. Every fault is one of the expression exactly if no rate is too
long and the budget is not too large; a blank expression is blamed for being blank, and no other is;
a magnitude that is refused is the cause of the fault of its term. -/
theorem fault_of_read_iff (policy : Policy) (expression : Text) :
    ((∀ fault, (read policy expression).result = .error fault → ∃ cause, fault = .reading cause) ↔
      (∀ digits, ¬ LongRate policy expression digits) ∧ ¬ LargeBudget policy expression) ∧
    (∀ refused, (read policy expression).result = .error (.numeral refused) ↔
      (∃ digits, refused = .tooLongToRead digits ∧ LongRate policy expression digits) ∨
        (refused = .tooLongToWrite ∧ LargeBudget policy expression)) ∧
    ((∃ blamed, (read policy expression).result = .error (.reading (.blank blamed))) ↔
      expression.all Text.blank) ∧
    ∀ term refused,
      (read policy expression).result = .error (.reading (.malformedTerm term (some refused))) ↔
        ∃ (before : List Tree) (after : List Text), Reaches policy expression before term after ∧
          (∃ count, Tier.readCount term (divide term).rate = .ok count) ∧
          Tier.Refuses (divide term).amount refused := by
  refine ⟨⟨fun h => ⟨fun digits hlong => ?_, fun hlarge => ?_⟩, ?_⟩, numeral_of_read_iff,
    blank_of_read_iff, refused_of_read_iff⟩
  · obtain ⟨_, hcause⟩ := h _ (read_of_longRate hlong)
    cases hcause
  · obtain ⟨_, hcause⟩ := h _ ((numeral_of_read_iff _).mpr (Or.inr ⟨rfl, hlarge⟩))
    cases hcause
  · rintro ⟨hlong, hlarge⟩ fault h
    rcases reading_or_numeral_of_read h with hcause | ⟨refused, rfl⟩
    · exact hcause
    · rcases (numeral_of_read_iff refused).mp h with ⟨digits, -, h⟩ | ⟨-, h⟩
      · exact absurd h (hlong digits)
      · exact absurd h hlarge

/-- One digit too many in the rate of a term: the refusal of the numeral is the fault itself. -/
theorem overlong_rate_not_reading :
    ¬ ∀ fault, (read ⟨true⟩ ("1s/".toList ++ List.replicate 4301 '1')).result = .error fault →
      ∃ cause, fault = .reading cause := by
  intro h
  have htail : ∀ c ∈ List.replicate 4300 '1', '0' ≤ c ∧ c ≤ '9' := by
    intro c hc
    rw [List.eq_of_mem_replicate hc]
    decide
  have hlong :
      4300 < (Counting.mk '1' (List.replicate 4300 '1') (by decide) htail).digits.length := by
    rw [Counting.digits, List.length_cons, List.length_replicate]
    exact Nat.lt_succ_self 4300
  have htext : "1s/".toList ++ List.replicate 4301 '1' =
      Tree.text ⟨.measured ⟨'1', [], by decide, by simp⟩ .seconds, some ⟨'1', _, by decide, htail⟩,
        false⟩ := by
    rw [Tree.text, Tree.markText, List.append_nil]
    rfl
  rw [htext] at h
  obtain ⟨_, hcause⟩ := h _ (read_of_longRate (longRate_of_rated ⟨true⟩ _ _ false hlong))
  cases hcause

end RetrySchedule.Schedule
