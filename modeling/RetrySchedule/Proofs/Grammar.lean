import RetrySchedule.Proofs.Numeral
import RetrySchedule.Proofs.Text.Pattern
import RetrySchedule.Term

namespace RetrySchedule

theorem Scale.mem_all (scale : Scale) : scale ∈ Scale.all := by
  cases scale <;> decide

theorem Scale.mem_symbol (scale : Scale) {c : Char} (hc : c ∈ scale.symbol) :
    c ∈ ['m', 's', 'h', 'd'] := by
  cases scale <;>
    simp only [Scale.symbol, List.mem_cons, List.not_mem_nil, or_false] at hc ⊢ <;> tauto

/-- A text ends with a unit if it ends with its symbol, but an `s` behind an `m` ends `ms`. -/
theorem Scale.ofSuffix?_eq_some_iff {t : Text} {scale : Scale} :
    Scale.ofSuffix? t = some scale ↔ ∃ front : Text, t = front ++ scale.symbol ∧
      (scale = .seconds → front.getLast? ≠ some 'm') := by
  constructor
  · intro h
    rw [ofSuffix?] at h
    have hsuffix := List.find?_some h
    obtain ⟨front, rfl⟩ := List.isSuffixOf_iff_suffix.mp hsuffix
    refine ⟨front, rfl, ?_⟩
    rintro rfl hlast
    obtain ⟨init, rfl⟩ := List.getLast?_eq_some_iff.mp hlast
    simp [all, symbol, List.isSuffixOf] at h
  · rintro ⟨front, rfl, hlast⟩
    rcases List.eq_nil_or_concat front with rfl | ⟨init, last, rfl⟩
    · cases scale <;> rfl
    · rw [List.concat_eq_append, List.getLast?_concat] at hlast
      cases scale with
      | seconds =>
        have hm : last ≠ 'm' := fun h => hlast rfl (congrArg some h)
        simp [ofSuffix?, all, symbol, List.isSuffixOf, hm.symm]
      | _ => simp [ofSuffix?, all, symbol, List.isSuffixOf]

namespace Term

/-- A numeral of ASCII digits without a leading zero. -/
structure Counting where
  lead : Char
  tail : Text
  lead_range : '1' ≤ lead ∧ lead ≤ '9'
  tail_range : ∀ c ∈ tail, '0' ≤ c ∧ c ≤ '9'
  deriving DecidableEq

namespace Counting

def digits (n : Counting) : Text :=
  n.lead :: n.tail

def value (n : Counting) : Nat :=
  Nat.ofDigitChars 10 n.digits 0

theorem isDigit_of_mem (n : Counting) {c : Char} (hc : c ∈ n.digits) : c.isDigit := by
  rw [Char.isDigit_iff_toNat]
  rcases List.mem_cons.mp hc with rfl | hc
  · have h : '1'.toNat ≤ n.lead.toNat ∧ n.lead.toNat ≤ '9'.toNat := n.lead_range
    simp only [Char.reduceToNat] at h ⊢
    omega
  · exact n.tail_range c hc

theorem digits_injective : Function.Injective digits := by
  rintro ⟨lead, tail, _, _⟩ ⟨lead', tail', _, _⟩ h
  obtain ⟨rfl, rfl⟩ := List.cons.inj h
  rfl

theorem value_pos (n : Counting) : 0 < n.value := by
  have h : '1'.toNat ≤ n.lead.toNat := n.lead_range.1
  have hlead : 1 ≤ 10 * 0 + (n.lead.toNat - '0'.toNat) := by
    simp only [Char.reduceToNat] at h ⊢
    omega
  rw [value, digits, Nat.ofDigitChars_cons, Nat.ofDigitChars_eq_ofDigitChars_zero]
  -- The leading digit alone contributes at least one power of ten.
  have hpow : 0 < 10 ^ n.tail.length := Nat.pow_pos (by decide)
  have hmul := Nat.mul_le_mul_left (10 ^ n.tail.length) hlead
  omega

end Counting

theorem accepts_counting (t : Text) : counting.Accepts t ↔ ∃ n : Counting, t = n.digits := by
  constructor
  · rintro ⟨_, tail, rfl, ⟨lead, hlead, rfl⟩, htail⟩
    refine ⟨⟨lead, tail, by simpa using hlead, fun c hc => ?_⟩, rfl⟩
    exact Char.isDigit_iff_toNat.mp (htail c hc)
  · rintro ⟨n, rfl⟩
    refine ⟨[n.lead], n.tail, rfl, ⟨n.lead, by simpa using n.lead_range, rfl⟩, fun c hc => ?_⟩
    exact n.isDigit_of_mem (List.mem_cons_of_mem _ hc)

theorem isCounting_iff (t : Text) : isCounting t ↔ ∃ n : Counting, t = n.digits :=
  (Text.Pattern.covers_iff _ t).trans (accepts_counting t)

/-- A zero, or a counting numeral before the symbol of a unit. -/
inductive Amount
  | zero
  | measured (numeral : Counting) (scale : Scale)
  deriving DecidableEq

namespace Amount

def text : Amount → Text
  | zero => ['0']
  | measured numeral scale => numeral.digits ++ scale.symbol

def numeral : Amount → Option Counting
  | zero => none
  | measured numeral _ => some numeral

def magnitude : Amount → Nat
  | zero => 0
  | measured numeral _ => numeral.value

/-- A zero counts as seconds. -/
def scale : Amount → Scale
  | zero => .seconds
  | measured _ scale => scale

end Amount

theorem accepts_amount (t : Text) : amount.Accepts t ↔ ∃ a : Amount, t = a.text := by
  have hunit : ∀ v : Text, v ∈ Scale.all.map Scale.symbol ↔ ∃ scale : Scale, scale.symbol = v := by
    intro v
    rw [List.mem_map]
    constructor
    · rintro ⟨scale, -, hv⟩
      exact ⟨scale, hv⟩
    · rintro ⟨scale, hv⟩
      exact ⟨scale, scale.mem_all, hv⟩
  constructor
  · rintro (hzero | ⟨u, v, rfl, hu, hv⟩)
    · exact ⟨.zero, List.mem_singleton.mp hzero⟩
    · obtain ⟨n, rfl⟩ := (accepts_counting u).mp hu
      obtain ⟨scale, rfl⟩ := (hunit v).mp hv
      exact ⟨.measured n scale, rfl⟩
  · rintro ⟨_ | ⟨n, scale⟩, rfl⟩
    · exact Or.inl (List.mem_singleton.mpr rfl)
    · exact Or.inr ⟨n.digits, scale.symbol, rfl, (accepts_counting _).mpr ⟨n, rfl⟩,
        (hunit _).mpr ⟨scale, rfl⟩⟩

/-- The parts of a term of the grammar. -/
structure Tree where
  amount : Amount
  rate : Option Counting
  marked : Bool
  deriving DecidableEq

namespace Tree

def rateText : Option Counting → Text
  | none => []
  | some n => '/' :: n.digits

def markText : Bool → Text
  | true => ['+']
  | false => []

def text (tree : Tree) : Text :=
  tree.amount.text ++ rateText tree.rate ++ markText tree.marked

def numerals (tree : Tree) : List Counting :=
  tree.amount.numeral.toList ++ tree.rate.toList

def count (tree : Tree) : Nat :=
  tree.rate.elim 1 Counting.value

theorem count_pos (tree : Tree) : 0 < tree.count := by
  rw [count]
  cases tree.rate with
  | none => exact Nat.one_pos
  | some n => exact n.value_pos

/-- The tier that a term denotes. A marker has a meaning at the end of an expression only. -/
def tier (tree : Tree) (isLast : Bool) : Tier where
  magnitude := tree.amount.magnitude
  scale := tree.amount.scale
  count := tree.count
  extent := if tree.marked && isLast then .unbounded else .bounded
  count_pos := tree.count_pos

/-- No numeral of the term exceeds the digit limit. -/
def Short (tree : Tree) : Prop :=
  ∀ n ∈ tree.numerals, n.digits.length ≤ Numeral.digitLimit

end Tree

theorem accepts_rated (rated : Bool) (t : Text) :
    (if rated then amount.seq (.seq (.words [[rateSign]]) counting) else amount).Accepts t ↔
      ∃ (a : Amount) (rate : Option Counting),
        t = a.text ++ Tree.rateText rate ∧ rate.isSome = rated := by
  cases rated with
  | false =>
    constructor
    · intro h
      obtain ⟨a, rfl⟩ := (accepts_amount t).mp h
      exact ⟨a, none, by simp [Tree.rateText], rfl⟩
    · rintro ⟨a, _ | n, rfl, hrate⟩
      · exact (accepts_amount _).mpr ⟨a, by simp [Tree.rateText]⟩
      · exact Bool.noConfusion hrate
  | true =>
    constructor
    · rintro ⟨u, _, rfl, hu, sign, v, rfl, hsign, hv⟩
      obtain ⟨a, rfl⟩ := (accepts_amount u).mp hu
      obtain ⟨n, rfl⟩ := (accepts_counting v).mp hv
      exact ⟨a, some n, by rw [List.mem_singleton.mp hsign]; rfl, rfl⟩
    · rintro ⟨a, _ | n, rfl, hrate⟩
      · exact Bool.noConfusion hrate
      · exact ⟨a.text, '/' :: n.digits, rfl, (accepts_amount _).mpr ⟨a, rfl⟩, ['/'], n.digits, rfl,
          List.mem_singleton.mpr rfl, (accepts_counting _).mpr ⟨n, rfl⟩⟩

/-- The shapes of terms are the languages of trees with a rate or without, marked or not. -/
theorem accepts_shape (rated marked : Bool) (t : Text) : (shape rated marked).Accepts t ↔
    ∃ tree : Tree, t = tree.text ∧ tree.rate.isSome = rated ∧ tree.marked = marked := by
  cases marked with
  | false =>
    refine (accepts_rated rated t).trans ?_
    constructor
    · rintro ⟨a, rate, rfl, hrate⟩
      exact ⟨⟨a, rate, false⟩, by simp [Tree.text, Tree.markText], hrate, rfl⟩
    · rintro ⟨⟨a, rate, _⟩, rfl, hrate, rfl⟩
      exact ⟨a, rate, by simp [Tree.text, Tree.markText], hrate⟩
  | true =>
    constructor
    · rintro ⟨u, sign, rfl, hu, hsign⟩
      obtain ⟨a, rate, rfl, hrate⟩ := (accepts_rated rated u).mp hu
      exact ⟨⟨a, rate, true⟩, by rw [List.mem_singleton.mp hsign]; rfl, hrate, rfl⟩
    · rintro ⟨⟨a, rate, _⟩, rfl, hrate, rfl⟩
      exact ⟨a.text ++ Tree.rateText rate, ['+'], rfl, (accepts_rated rated _).mpr
        ⟨a, rate, rfl, hrate⟩, List.mem_singleton.mpr rfl⟩

theorem hasShape_iff (rated marked : Bool) (t : Text) : hasShape rated marked t ↔
    ∃ tree : Tree, t = tree.text ∧ tree.rate.isSome = rated ∧ tree.marked = marked :=
  (Text.Pattern.covers_iff _ t).trans (accepts_shape rated marked t)

theorem Amount.mem_text (a : Amount) {c : Char} (hc : c ∈ a.text) :
    c.isDigit ∨ c ∈ ['m', 's', 'h', 'd'] := by
  cases a with
  | zero =>
    left
    rw [List.mem_singleton.mp hc]
    rfl
  | measured n scale =>
    rcases List.mem_append.mp hc with hc | hc
    · exact Or.inl (n.isDigit_of_mem hc)
    · exact Or.inr (scale.mem_symbol hc)

theorem Amount.not_mem_text (a : Amount) {c : Char} (hd : c.isDigit = false)
    (hu : c ∉ ['m', 's', 'h', 'd']) : c ∉ a.text := by
  intro hc
  rcases a.mem_text hc with h | h
  · exact Bool.noConfusion (h.symm.trans hd)
  · exact hu h

theorem Counting.not_mem_digits (n : Counting) {c : Char} (hd : c.isDigit = false) :
    c ∉ n.digits :=
  fun hc => Bool.noConfusion ((n.isDigit_of_mem hc).symm.trans hd)

theorem Counting.isDigit_getLast? (n : Counting) (before : Text) (sign : Char) {c : Char}
    (hc : c ∈ (before ++ sign :: n.digits).getLast?) : c.isDigit := by
  rw [List.getLast?_append_of_ne_nil _ (List.cons_ne_nil _ _), digits,
    List.getLast?_cons_cons] at hc
  exact n.isDigit_of_mem (List.mem_of_getLast? hc)

theorem exists_splitMarker (t : Text) : ∃ (body : Text) (marked : Bool),
    t = body ++ Tree.markText marked ∧ splitMarker t = (body, marked) := by
  by_cases hlast : t.getLast? = some '+'
  · obtain ⟨init, rfl⟩ := List.getLast?_eq_some_iff.mp hlast
    exact ⟨init, true, rfl, by simp [splitMarker, openSign]⟩
  · exact ⟨t, false, (List.append_nil t).symm, by simp [splitMarker, openSign, hlast]⟩

theorem splitMarker_append (body : Text) (marked : Bool) (h : body.getLast? ≠ some '+') :
    splitMarker (body ++ Tree.markText marked) = (body, marked) := by
  cases marked with
  | true => simp [splitMarker, Tree.markText, openSign]
  | false => simp [splitMarker, Tree.markText, openSign, h]

theorem splitRate_append (before : Text) (rate : Option Text) (h : '/' ∉ before) :
    splitRate (before ++ rate.elim [] ('/' :: ·)) = (before, rate) := by
  have hne : ∀ c ∈ before, (c != rateSign) = true := by
    intro c hc
    have hslash : c ≠ '/' := fun he => h (he ▸ hc)
    exact bne_iff_ne.mpr hslash
  cases rate with
  | none =>
    have hdrop : before.dropWhile (· != rateSign) = [] := List.dropWhile_eq_nil_iff.mpr hne
    simp only [Option.elim_none, List.append_nil, splitRate, hdrop]
  | some rate =>
    simp only [Option.elim_some, splitRate, List.dropWhile_append_of_pos hne,
      List.takeWhile_append_of_pos hne]
    simp [rateSign]

theorem divide_rate_iff (t : Text) (n : Counting) : (divide t).rate = some n.digits ↔
    ∃ (before : Text) (marked : Bool),
      t = before ++ '/' :: n.digits ++ Tree.markText marked ∧ '/' ∉ before := by
  constructor
  · intro h
    obtain ⟨body, marked, rfl, hbody⟩ := exists_splitMarker t
    have hrate : (splitRate body).2 = some n.digits := by
      simpa only [divide, hbody] using h
    have hcut := List.takeWhile_append_dropWhile (p := (· != rateSign)) (l := body)
    rw [splitRate] at hrate
    split at hrate
    · exact absurd hrate (by simp)
    · rename_i sign rate hdrop
      have hsign : sign = '/' := by
        have hhead := List.head?_dropWhile_not (· != rateSign) body
        rw [hdrop] at hhead
        simpa [rateSign] using hhead
      obtain rfl := Option.some.inj hrate
      refine ⟨body.takeWhile (· != rateSign), marked, ?_, fun hc => ?_⟩
      · rw [← hsign, ← hdrop, hcut]
      · exact absurd (List.mem_takeWhile_imp hc) (by simp [rateSign])
  · rintro ⟨before, marked, rfl, hbefore⟩
    -- A digit ends the rate, so a plus sign behind it is the marker of the whole text.
    have hplus : (before ++ '/' :: n.digits).getLast? ≠ some '+' := by
      intro hc
      exact absurd (n.isDigit_getLast? before '/' hc) (by decide)
    have hrate := splitRate_append before (some n.digits) hbefore
    rw [Option.elim_some] at hrate
    simp only [divide, splitMarker_append _ _ hplus, hrate]

theorem Tree.getLast?_unmarked_ne (a : Amount) (rate : Option Counting) :
    (a.text ++ rateText rate).getLast? ≠ some '+' := by
  intro hc
  rcases List.mem_append.mp (List.mem_of_getLast? hc) with hc | hc
  · exact a.not_mem_text (by decide) (by decide) hc
  · cases rate with
    | none => exact List.not_mem_nil hc
    | some n => exact n.not_mem_digits (by decide) (List.mem_of_ne_of_mem (by decide) hc)

theorem Tree.marked_iff (tree : Tree) : tree.marked ↔ tree.text.getLast? = some '+' := by
  obtain ⟨a, rate, _ | _⟩ := tree
  · rw [text, markText, List.append_nil]
    exact iff_of_false Bool.false_ne_true (getLast?_unmarked_ne a rate)
  · simp [text, markText]

theorem divide_text (tree : Tree) :
    divide tree.text = ⟨tree.amount.text, tree.rate.map Counting.digits, tree.marked⟩ := by
  obtain ⟨a, rate, marked⟩ := tree
  have hrate : Tree.rateText rate = (rate.map Counting.digits).elim [] ('/' :: ·) := by
    cases rate <;> rfl
  have hplus := Tree.getLast?_unmarked_ne a rate
  have hslash : '/' ∉ a.text := a.not_mem_text (by decide) (by decide)
  rw [divide, Tree.text, splitMarker_append _ _ hplus]
  simp only [hrate, splitRate_append _ _ hslash]

/-- A symbol follows the digits of its numeral, so it is no longer one that is looked for. -/
theorem ofSuffix?_measured (n : Counting) (scale : Scale) :
    Scale.ofSuffix? (n.digits ++ scale.symbol) = some scale := by
  refine Scale.ofSuffix?_eq_some_iff.mpr ⟨n.digits, rfl, fun _ hlast => ?_⟩
  exact absurd (n.isDigit_of_mem (List.mem_of_getLast? hlast)) (by decide)

theorem Amount.text_eq_zero_iff (a : Amount) : a.text = zeroAmount ↔ a = .zero := by
  constructor
  · intro h
    cases a with
    | zero => rfl
    | measured n scale =>
      obtain ⟨hlead, -⟩ := List.cons.inj h
      have hrange := n.lead_range.1
      rw [hlead] at hrange
      exact absurd hrange (by decide)
  · rintro rfl
    rfl

theorem Amount.text_injective : Function.Injective Amount.text := by
  intro a b h
  cases a with
  | zero => exact (b.text_eq_zero_iff.mp h.symm).symm
  | measured n scale =>
    cases b with
    | zero => exact (Amount.measured n scale).text_eq_zero_iff.mp h
    | measured n' scale' =>
      have hscale : some scale = some scale' := by
        rw [← ofSuffix?_measured n scale, ← ofSuffix?_measured n' scale']
        exact congrArg Scale.ofSuffix? h
      obtain rfl := Option.some.inj hscale
      rw [Counting.digits_injective (List.append_cancel_right h)]

theorem Tree.text_injective : Function.Injective Tree.text := by
  intro s t h
  have hparts := (divide_text s).symm.trans ((congrArg divide h).trans (divide_text t))
  obtain ⟨hamount, hrate, hmarked⟩ := Parts.mk.inj hparts
  obtain ⟨a, rate, marked⟩ := s
  obtain ⟨a', rate', marked'⟩ := t
  obtain rfl : a = a' := Amount.text_injective hamount
  obtain rfl : rate = rate' := Option.map_injective Counting.digits_injective hrate
  obtain rfl : marked = marked' := hmarked
  rfl

theorem Amount.exists_text_eq_cons (a : Amount) : ∃ c rest, a.text = c :: rest ∧ c.isDigit := by
  cases a with
  | zero => exact ⟨'0', [], rfl, rfl⟩
  | measured n scale =>
    exact ⟨n.lead, n.tail ++ scale.symbol, rfl, n.isDigit_of_mem (List.mem_cons_self ..)⟩

theorem Tree.exists_text_eq_cons (tree : Tree) :
    ∃ c rest, tree.text = c :: rest ∧ c.isDigit := by
  obtain ⟨c, rest, ha, hc⟩ := tree.amount.exists_text_eq_cons
  exact ⟨c, rest ++ rateText tree.rate ++ markText tree.marked, by simp [text, ha], hc⟩

theorem Tree.text_ne_nil (tree : Tree) : tree.text ≠ [] := by
  obtain ⟨c, rest, htext, -⟩ := tree.exists_text_eq_cons
  rw [htext]
  exact List.cons_ne_nil c rest

theorem Tree.mem_text (tree : Tree) {c : Char} (hc : c ∈ tree.text) :
    c.isDigit ∨ c ∈ ['m', 's', 'h', 'd', '/', '+'] := by
  obtain ⟨a, rate, marked⟩ := tree
  rcases List.mem_append.mp hc with hc | hc
  · rcases List.mem_append.mp hc with hc | hc
    · refine (a.mem_text hc).imp_right fun h => ?_
      exact List.mem_append_left ['/', '+'] h
    · cases rate with
      | none => exact absurd hc List.not_mem_nil
      | some n =>
        rcases List.mem_cons.mp hc with rfl | hc
        · exact Or.inr (by decide)
        · exact Or.inl (n.isDigit_of_mem hc)
  · cases marked with
    | false => exact absurd hc List.not_mem_nil
    | true =>
      rw [List.mem_singleton.mp hc]
      exact Or.inr (by decide)

theorem Tree.blank_of_mem_text (tree : Tree) {c : Char} (hc : c ∈ tree.text) :
    Text.blank c = false := by
  rcases tree.mem_text hc with h | h
  · exact Text.blank_of_isDigit h
  · have hall : ['m', 's', 'h', 'd', '/', '+'].all (fun d => !Text.blank d) := by decide
    simpa using List.all_eq_true.mp hall c h

theorem Tree.solid_text (tree : Tree) : tree.text.Solid :=
  ⟨fun _ hc => tree.blank_of_mem_text (List.mem_of_mem_head? hc),
    fun _ hc => tree.blank_of_mem_text (List.mem_of_getLast? hc)⟩

theorem Tree.separator_not_mem_text (tree : Tree) : separator ∉ tree.text := by
  intro hc
  rcases tree.mem_text hc with h | h <;> exact absurd h (by decide)

theorem mayEnd_of_isDigit {c : Char} (h : c.isDigit) : mayEnd c := by
  simp [mayEnd, h]

theorem Tree.mayEnd_getLast? (tree : Tree) {c : Char} (hc : c ∈ tree.text.getLast?) :
    mayEnd c := by
  obtain ⟨a, rate, _ | _⟩ := tree
  · rw [text, markText, List.append_nil] at hc
    cases rate with
    | none =>
      rw [rateText, List.append_nil] at hc
      rcases a.mem_text (List.mem_of_getLast? hc) with h | h
      · exact mayEnd_of_isDigit h
      · have hall : ['m', 's', 'h', 'd'].all mayEnd := by decide
        exact List.all_eq_true.mp hall c h
    | some n =>
      exact mayEnd_of_isDigit (n.isDigit_getLast? a.text '/' hc)
  · rw [text, markText, List.getLast?_append] at hc
    obtain rfl := Option.some.inj hc
    decide

end Term
end RetrySchedule
