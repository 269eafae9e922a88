import RetrySchedule.Numeral
import RetrySchedule.Proofs.Text.Blank

namespace RetrySchedule

namespace Text

theorem toNat_of_isDigit {c : Char} (h : c.isDigit) : 0x30 ≤ c.toNat ∧ c.toNat ≤ 0x39 :=
  Char.isDigit_iff_toNat.mp h

theorem blank_of_isDigit {c : Char} (h : c.isDigit) : blank c = false := by
  have hc := toNat_of_isDigit h
  exact blank_eq_false c (by omega) (by omega)

theorem asciiBlank_of_isDigit {c : Char} (h : c.isDigit) : asciiBlank c = false := by
  have hc := blank_of_isDigit h
  simp only [blank, Bool.or_eq_false_iff] at hc
  simp only [hc]

theorem ne_of_isDigit {c d : Char} (h : c.isDigit) (hd : d.isDigit = false) : c ≠ d := by
  rintro rfl
  exact Bool.noConfusion (h.symm.trans hd)

theorem plain_digits (t : Text) (h : ∀ c ∈ t, c.isDigit) : plain t = t := by
  induction t with
  | nil => rfl
  | cons c t ih =>
    have hc := toNat_of_isDigit (h c (by simp))
    have hplain : plainChar c = c := if_pos (by omega)
    rw [plain, List.map_cons, hplain, ← plain, ih fun d hd => h d (by simp [hd])]

theorem ungroup?_digits (afterDigit : Bool) (t : Text) (h : ∀ c ∈ t, c.isDigit) :
    ungroup? afterDigit t = some t := by
  induction t generalizing afterDigit with
  | nil => rfl
  | cons c t ih =>
    have hc : c ≠ '_' := ne_of_isDigit (h c (by simp)) rfl
    rw [ungroup?, if_neg hc, ih _ fun d hd => h d (by simp [hd])]
    rfl

end Text

namespace Numeral

theorem readUnsigned_digits (t : Text) (hne : t ≠ []) (h : ∀ c ∈ t, c.isDigit) :
    readUnsigned t = if digitLimit < t.length then .error (some t.length)
      else .ok (Nat.ofDigitChars 10 t 0) := by
  have hrun : ∀ c ∈ t, inRun c := fun c hc => by simp [inRun, h c hc]
  have htake : t.takeWhile inRun = t := List.takeWhile_eq_self_iff.mpr hrun
  have hdrop : t.dropWhile inRun = [] := List.dropWhile_eq_nil_iff.mpr hrun
  cases t with
  | nil => exact absurd rfl hne
  | cons c t =>
    rw [readUnsigned, htake, Text.ungroup?_digits false _ h, hdrop]
    rfl

theorem splitSign_digits (t : Text) (h : ∀ c ∈ t, c.isDigit) : splitSign t = (false, t) := by
  cases t with
  | nil => rfl
  | cons c t =>
    have hc := h c (by simp)
    have hm : c ≠ '-' := Text.ne_of_isDigit hc rfl
    have hp : c ≠ '+' := Text.ne_of_isDigit hc rfl
    simp [splitSign, hm, hp]

theorem read_digits (t : Text) (hne : t ≠ []) (h : ∀ c ∈ t, c.isDigit) :
    read t = if digitLimit < t.length then .error (.tooLongToRead t.length)
      else .ok (Nat.ofDigitChars 10 t 0) := by
  -- None of the liberties of the reader applies: no white space, no sign, no underscore.
  have hdrop : t.dropWhile Text.asciiBlank = t := by
    cases t with
    | nil => rfl
    | cons c t => simp [Text.asciiBlank_of_isDigit (h c (by simp))]
  simp only [read, Text.plain_digits t h, hdrop, splitSign_digits t h, readUnsigned_digits t hne h]
  by_cases hlong : digitLimit < t.length
  · simp only [if_pos hlong]
  · simp only [if_neg hlong]
    rfl

theorem read_negated_digits (t : Text) (hne : t ≠ []) (h : ∀ c ∈ t, c.isDigit) :
    read ('-' :: t) = if digitLimit < t.length then .error (.tooLongToRead t.length)
      else .ok (-(Nat.ofDigitChars 10 t 0 : Int)) := by
  have hplain : Text.plain ('-' :: t) = '-' :: t := by
    rw [Text.plain, List.map_cons, ← Text.plain, Text.plain_digits t h]
    rfl
  have hdrop : ('-' :: t).dropWhile Text.asciiBlank = '-' :: t := rfl
  simp only [read, hplain, hdrop, splitSign, readUnsigned_digits t hne h]
  by_cases hlong : digitLimit < t.length
  · simp only [if_pos hlong]
  · simp only [if_neg hlong]
    rfl

end Numeral
end RetrySchedule
