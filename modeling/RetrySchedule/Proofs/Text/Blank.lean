import Mathlib.Data.List.Basic
import Mathlib.Data.List.TakeWhile
import RetrySchedule.Text.Blank

namespace RetrySchedule.Text

theorem blank_eq_false (c : Char) (h : 0x21 ≤ c.toNat) (h' : c.toNat < 0x80) :
    blank c = false := by
  have heq : ∀ d : Char, c = d ↔ c.toNat = d.toNat := fun _ => Char.toNat_inj.symm
  have hle : ∀ d : Char, d ≤ c ↔ d.toNat ≤ c.toNat := fun _ => Iff.rfl
  have hge : ∀ d : Char, c ≤ d ↔ c.toNat ≤ d.toNat := fun _ => Iff.rfl
  simp only [blank, asciiBlank, beq_eq_decide, heq, hle, hge, Char.reduceToNat,
    Bool.or_eq_false_iff, Bool.and_eq_false_iff, decide_eq_false_iff_not]
  omega

/-- Neither end of a text is white space. -/
def Solid (t : Text) : Prop :=
  (∀ c ∈ t.head?, blank c = false) ∧ ∀ c ∈ t.getLast?, blank c = false

theorem trimStart_append (lead t : Text) (hl : ∀ c ∈ lead, blank c)
    (ht : ∀ c ∈ t.head?, blank c = false) : trimStart (lead ++ t) = t := by
  rw [trimStart, List.dropWhile_append_of_pos hl]
  cases t with
  | nil => rfl
  | cons c t => simp [ht c rfl]

theorem trimEnd_append (t trail : Text) (htr : ∀ c ∈ trail, blank c)
    (ht : ∀ c ∈ t.getLast?, blank c = false) : trimEnd (t ++ trail) = t := by
  have h := trimStart_append trail.reverse t.reverse (by simpa using htr) (by simpa using ht)
  rw [trimEnd, List.reverse_append]
  exact (congrArg List.reverse h).trans (List.reverse_reverse t)

theorem trim_padded (lead t trail : Text) (hl : ∀ c ∈ lead, blank c)
    (htr : ∀ c ∈ trail, blank c) (ht : t.Solid) : trim (lead ++ t ++ trail) = t := by
  rcases List.eq_nil_or_concat t with rfl | ⟨init, last, rfl⟩
  -- Nothing but white space: the start takes it all.
  · have hall : ∀ c ∈ lead ++ trail, blank c := by
      intro c hc
      exact (List.mem_append.mp hc).elim (hl c) (htr c)
    have h := trimStart_append (lead ++ trail) [] hall (by simp)
    rw [List.append_nil] at h
    rw [trim, List.append_nil, h]
    rfl
  · have hhead : ∀ c ∈ ((init.concat last) ++ trail).head?, blank c = false := by
      intro c hc
      apply ht.1 c
      cases init <;> simpa using hc
    rw [trim, List.append_assoc, trimStart_append lead _ hl hhead, trimEnd_append _ _ htr ht.2]

theorem trim_of_solid (t : Text) (h : t.Solid) : trim t = t := by
  have htrim := trim_padded [] t [] (by simp) (by simp) h
  rwa [List.nil_append, List.append_nil] at htrim

def trail (t : Text) : Text :=
  (t.reverse.takeWhile blank).reverse

theorem trimEnd_append_trail (t : Text) : trimEnd t ++ trail t = t := by
  rw [trimEnd, trail, ← List.reverse_append, List.takeWhile_append_dropWhile, List.reverse_reverse]

theorem blank_of_mem_trail (t : Text) {c : Char} (hc : c ∈ trail t) : blank c :=
  List.mem_takeWhile_imp (List.mem_reverse.mp hc)

theorem trail_append (t trailing : Text) (htr : ∀ c ∈ trailing, blank c)
    (ht : ∀ c ∈ t.getLast?, blank c = false) : trail (t ++ trailing) = trailing := by
  have hsplit := trimEnd_append_trail (t ++ trailing)
  rw [trimEnd_append t trailing htr ht] at hsplit
  exact List.append_cancel_left hsplit

theorem solid_trim (t : Text) : (trim t).Solid := by
  have hstart : ∀ c ∈ (trimStart t).head?, blank c = false := by
    intro c hc
    have hnot := List.head?_dropWhile_not blank t
    rw [trimStart] at hc
    rw [hc] at hnot
    simpa using hnot
  constructor
  · intro c hc
    apply hstart
    rw [← trimEnd_append_trail (trimStart t), List.head?_append]
    exact Option.mem_def.mpr (by rw [trim] at hc; rw [hc]; rfl)
  · intro c hc
    have hnot := List.head?_dropWhile_not blank (trimStart t).reverse
    rw [trim, trimEnd, List.getLast?_reverse] at hc
    rw [hc] at hnot
    simpa using hnot

theorem exists_padding (p : Text) : ∃ lead trail : Text, p = lead ++ trim p ++ trail ∧
    (∀ c ∈ lead, blank c) ∧ ∀ c ∈ trail, blank c := by
  refine ⟨p.takeWhile blank, trail (trimStart p), ?_, ?_, ?_⟩
  · rw [List.append_assoc, trim, trimEnd_append_trail, trimStart, List.takeWhile_append_dropWhile]
  · intro c hc
    exact List.mem_takeWhile_imp hc
  · intro c hc
    exact blank_of_mem_trail _ hc

theorem exists_lead_of_concat (t : Text) (c : Char) (hc : blank c = false) :
    ∃ lead : Text, t ++ [c] = lead ++ trim (t ++ [c]) ∧ ∀ d ∈ lead, blank d := by
  obtain ⟨lead, trail, hsplit, hlead, htrail⟩ := exists_padding (t ++ [c])
  rcases List.eq_nil_or_concat trail with rfl | ⟨init, d, rfl⟩
  · rw [List.append_nil] at hsplit
    exact ⟨lead, hsplit, hlead⟩
  · have hlast := congrArg List.getLast? hsplit
    rw [List.concat_eq_append, List.getLast?_concat, ← List.append_assoc, List.getLast?_concat]
      at hlast
    have hd := htrail d (by simp)
    rw [← Option.some.inj hlast, hc] at hd
    exact Bool.noConfusion hd

theorem trim_framed (lead t trail : Text) (hl : ∀ c ∈ lead, blank c)
    (htr : ∀ c ∈ trail, blank c) : trim (lead ++ t ++ trail) = trim t := by
  obtain ⟨inner, outer, ht, hinner, houter⟩ := exists_padding t
  have hsolid := solid_trim t
  generalize trim t = core at ht hsolid ⊢
  have hframe : lead ++ t ++ trail = (lead ++ inner) ++ core ++ (outer ++ trail) := by simp [ht]
  rw [hframe]
  apply trim_padded _ _ _ _ _ hsolid
  · intro c hc
    exact (List.mem_append.mp hc).elim (hl c) (hinner c)
  · intro c hc
    exact (List.mem_append.mp hc).elim (houter c) (htr c)

theorem head?_framed_iff (lead t trail : Text) (hl : ∀ c ∈ lead, blank c) (ht : t.Solid)
    (hne : t ≠ []) : (∀ c ∈ (lead ++ t ++ trail).head?, blank c = false) ↔ lead = [] := by
  cases lead with
  | nil =>
    rw [List.nil_append, List.head?_append_of_ne_nil _ hne]
    exact iff_of_true ht.1 rfl
  | cons d lead => simp [hl d (List.mem_cons_self ..)]

theorem getLast?_framed_iff (lead t trail : Text) (htr : ∀ c ∈ trail, blank c) (ht : t.Solid)
    (hne : t ≠ []) : (∀ c ∈ (lead ++ t ++ trail).getLast?, blank c = false) ↔ trail = [] := by
  rcases List.eq_nil_or_concat trail with rfl | ⟨trail, d, rfl⟩
  · rw [List.append_nil, List.getLast?_append_of_ne_nil _ hne]
    exact iff_of_true ht.2 rfl
  · simp [htr d (by simp)]

theorem head?_trim (p : Text) (h : ∀ c ∈ p.head?, blank c = false) :
    (trim p).head? = p.head? := by
  obtain ⟨lead, trail, hp, hl, htr⟩ := exists_padding p
  cases lead with
  | cons c lead =>
    have hb := h c (by rw [hp]; rfl)
    simp [hl c (by simp)] at hb
  | nil =>
    generalize trim p = t at hp ⊢
    subst hp
    cases t with
    | cons c t => rfl
    | nil =>
      cases trail with
      | nil => rfl
      | cons c trail => simp [htr c (by simp)] at h

theorem getLast?_trim (p : Text) (h : ∀ c ∈ p.getLast?, blank c = false) :
    (trim p).getLast? = p.getLast? := by
  obtain ⟨lead, trail, hp, hl, htr⟩ := exists_padding p
  rcases List.eq_nil_or_concat trail with rfl | ⟨trail, c, rfl⟩
  · generalize trim p = t at hp ⊢
    subst hp
    rcases List.eq_nil_or_concat t with rfl | ⟨t, d, rfl⟩
    · rcases List.eq_nil_or_concat lead with rfl | ⟨lead, c, rfl⟩
      · rfl
      · simp [hl c (by simp)] at h
    · simp
  · have hb := h c (by rw [hp]; simp)
    simp [htr c (by simp)] at hb

end RetrySchedule.Text
