import Mathlib.Algebra.GroupWithZero.Nat
import RetrySchedule.Proofs.Grammar

namespace RetrySchedule

namespace Numeral

theorem digit_lt {c : Char} (h : c.isDigit) : c.toNat - '0'.toNat < 10 := by
  have hc := Text.toNat_of_isDigit h
  simp only [Char.reduceToNat]
  omega

theorem ofNat_digit {c : Char} (h : c.isDigit) : ofNat (c.toNat - '0'.toNat) = [c] := by
  have hc := Text.toNat_of_isDigit h
  have hchar : (c.toNat - '0'.toNat).digitChar = c := by
    apply Char.toNat_inj.mp
    rw [Nat.toNat_digitChar_of_lt_ten (digit_lt h)]
    simp only [Char.reduceToNat]
    omega
  rw [ofNat, Nat.toDigits_of_lt_base (digit_lt h), hchar]

theorem ofNat_append (k : Nat) (hk : 0 < k) (t : Text) (h : ∀ c ∈ t, c.isDigit) :
    ofNat k ++ t = ofNat (Nat.ofDigitChars 10 t k) := by
  induction t generalizing k with
  | nil => rw [List.append_nil, Nat.ofDigitChars_nil]
  | cons c t ih =>
    obtain ⟨hc, ht⟩ := List.forall_mem_cons.mp h
    have hstep : ofNat k ++ [c] = ofNat (10 * k + (c.toNat - '0'.toNat)) := by
      rw [← ofNat_digit hc]
      exact Nat.toDigits_append_toDigits (by decide) hk (digit_lt hc)
    rw [Nat.ofDigitChars_cons, ← ih _ (by omega) ht, List.append_cons, hstep]

/-- At least one digit, so the digit limit is a bound of the number. -/
theorem length_ofNat_le_iff (k : Nat) :
    (ofNat k).length ≤ digitLimit ↔ k < 10 ^ digitLimit :=
  Nat.length_toDigits_le_iff (by decide) (by decide)

end Numeral

namespace Term.Counting

theorem numeral_value (n : Counting) : Numeral.ofNat n.value = n.digits := by
  have hlead : n.lead.isDigit := n.isDigit_of_mem (List.mem_cons_self ..)
  have htail : ∀ c ∈ n.tail, c.isDigit := fun c hc =>
    n.isDigit_of_mem (List.mem_cons_of_mem _ hc)
  have hpos : 0 < n.lead.toNat - '0'.toNat := by
    have h : '1'.toNat ≤ n.lead.toNat := n.lead_range.1
    simp only [Char.reduceToNat] at h ⊢
    omega
  rw [value, digits, Nat.ofDigitChars_cons, Nat.mul_zero, Nat.zero_add,
    ← Numeral.ofNat_append _ hpos _ htail, Numeral.ofNat_digit hlead, List.singleton_append]

theorem exists_digits_eq (k : Nat) (h : 0 < k) : ∃ n : Counting, n.digits = Numeral.ofNat k := by
  induction k using Nat.strongRecOn with
  | ind k ih =>
    have hrange : ∀ c ∈ Numeral.ofNat k, '0' ≤ c ∧ c ≤ '9' := fun c hc =>
      Char.isDigit_iff_toNat.mp (Nat.isDigit_of_mem_toDigits (by decide) (by decide) hc)
    rcases Nat.lt_or_ge k 10 with hlt | hge
    · have hone : Numeral.ofNat k = [k.digitChar] := Nat.toDigits_of_lt_base hlt
      have hchar := Nat.toNat_digitChar_of_lt_ten hlt
      have hlow : '1'.toNat ≤ k.digitChar.toNat := by
        simp only [Char.reduceToNat]
        omega
      rw [hone] at hrange ⊢
      exact ⟨⟨k.digitChar, [], ⟨hlow, (hrange _ (List.mem_cons_self ..)).2⟩, by simp⟩, rfl⟩
    -- The leading digit is that of the number without its last digit.
    · obtain ⟨n, hn⟩ := ih (k / 10) (by omega) (by omega)
      have hmore : Numeral.ofNat k = n.lead :: (n.tail ++ [(k % 10).digitChar]) := by
        rw [← List.cons_append, ← digits, hn]
        exact Nat.toDigits_of_base_le (by decide) hge
      rw [hmore] at hrange ⊢
      exact ⟨⟨n.lead, _, n.lead_range, fun c hc => hrange c (List.mem_cons_of_mem _ hc)⟩, rfl⟩

def ofNat (k : Nat) (h : 0 < k) : Counting where
  lead := (Numeral.ofNat k).head Nat.toDigits_ne_nil
  tail := (Numeral.ofNat k).tail
  lead_range := by
    obtain ⟨n, hn⟩ := exists_digits_eq k h
    simp only [← hn]
    exact n.lead_range
  tail_range := by
    obtain ⟨n, hn⟩ := exists_digits_eq k h
    simp only [← hn]
    exact n.tail_range

theorem digits_ofNat (k : Nat) (h : 0 < k) : (ofNat k h).digits = Numeral.ofNat k :=
  List.cons_head_tail _

theorem value_ofNat (k : Nat) (h : 0 < k) : (ofNat k h).value = k := by
  rw [value, digits_ofNat, Numeral.ofNat, Nat.ofDigitChars_ten_toDigits]

theorem ofNat_value (n : Counting) (h : 0 < n.value) : ofNat n.value h = n :=
  digits_injective ((digits_ofNat n.value h).trans n.numeral_value)

theorem value_eq_one_iff (n : Counting) : n.value = 1 ↔ n.digits = ['1'] := by
  constructor
  · intro h
    rw [← n.numeral_value, h]
    rfl
  · intro h
    rw [value, h]
    rfl

end Term.Counting
end RetrySchedule
