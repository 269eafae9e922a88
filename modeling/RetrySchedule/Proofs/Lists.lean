import Mathlib.Algebra.GroupWithZero.Nat
import Mathlib.Data.List.Basic

namespace RetrySchedule

variable {α β γ : Type}

/-- Maps a list by a function that is told whether an element is the last one. -/
def mapLast (f : α → Bool → β) : List α → List β
  | [] => []
  | a :: rest => f a rest.isEmpty :: mapLast f rest

theorem isEmpty_mapLast (f : α → Bool → β) (l : List α) : (mapLast f l).isEmpty = l.isEmpty := by
  cases l <;> rfl

theorem length_mapLast (f : α → Bool → β) (l : List α) : (mapLast f l).length = l.length := by
  induction l with
  | nil => rfl
  | cons a rest ih => rw [mapLast, List.length_cons, ih, List.length_cons]

theorem mapLast_concat (f : α → Bool → β) (l : List α) (a : α) :
    mapLast f (l ++ [a]) = l.map (f · false) ++ [f a true] := by
  induction l with
  | nil => rfl
  | cons b rest ih =>
    have hrest : (rest ++ [a]).isEmpty = false := by simp
    rw [List.cons_append, mapLast, hrest, ih, List.map_cons, List.cons_append]

theorem mapLast_eq_self_iff (f : α → Bool → α) (hlast : ∀ a, f a true = a) (l : List α) :
    mapLast f l = l ↔ ∀ a ∈ l.dropLast, f a false = a := by
  rcases List.eq_nil_or_concat l with rfl | ⟨before, a, rfl⟩
  · simp [mapLast]
  · rw [List.concat_eq_append, mapLast_concat, List.dropLast_concat, hlast,
      List.append_cancel_right_eq]
    conv_lhs => rhs; rw [← List.map_id before]
    exact List.map_inj_left

theorem mapLast_map (f : β → Bool → γ) (g : α → β) (l : List α) :
    mapLast f (l.map g) = mapLast (fun a => f (g a)) l := by
  induction l with
  | nil => rfl
  | cons a rest ih => rw [List.map_cons, mapLast, ih, mapLast, List.isEmpty_map]

theorem map_mapLast (g : β → γ) (f : α → Bool → β) (l : List α) :
    (mapLast f l).map g = mapLast (fun a isLast => g (f a isLast)) l := by
  induction l with
  | nil => rfl
  | cons a rest ih => rw [mapLast, List.map_cons, ih, mapLast]

theorem mapLast_mapLast (g : β → Bool → γ) (f : α → Bool → β) (l : List α) :
    mapLast g (mapLast f l) = mapLast (fun a isLast => g (f a isLast) isLast) l := by
  induction l with
  | nil => rfl
  | cons a rest ih => rw [mapLast, mapLast, ih, mapLast, isEmpty_mapLast]

theorem mem_mapLast (f : α → Bool → β) (l : List α) {b : β} (h : b ∈ mapLast f l) :
    ∃ a ∈ l, ∃ isLast, b = f a isLast := by
  induction l with
  | nil => exact absurd h List.not_mem_nil
  | cons a rest ih =>
    rcases List.mem_cons.mp h with rfl | h
    · exact ⟨a, List.mem_cons_self .., _, rfl⟩
    · obtain ⟨c, hc, hb⟩ := ih h
      exact ⟨c, List.mem_cons_of_mem a hc, hb⟩

theorem mapLast_const (f : α → β) (l : List α) : mapLast (fun a _ => f a) l = l.map f := by
  induction l with
  | nil => rfl
  | cons a rest ih => rw [mapLast, ih, List.map_cons]

theorem mapLast_getElem? (f : α → Bool → β) (l : List α) (i : Nat) :
    (mapLast f l)[i]? = l[i]?.map fun a => f a (decide (i + 1 = l.length)) := by
  induction l generalizing i with
  | nil => rfl
  | cons a rest ih =>
    cases i with
    | zero => cases rest <;> rfl
    | succ i => simp [mapLast, ih]

/-- Lists can be mapped one after the other if what becomes of the last element of the first list
does not depend on its place. -/
theorem mapLast_append (f : α → Bool → β) (l m : List α) (hm : m ≠ [])
    (hlast : ∀ a ∈ l.getLast?, f a true = f a false) :
    mapLast f (l ++ m) = mapLast f l ++ mapLast f m := by
  rcases List.eq_nil_or_concat l with rfl | ⟨before, a, rfl⟩
  · rfl
  · have ha : f a true = f a false := hlast a (by simp)
    obtain ⟨between, b, rfl⟩ := (List.eq_nil_or_concat m).resolve_left hm
    rw [List.concat_eq_append, List.concat_eq_append, ← List.append_assoc, mapLast_concat,
      mapLast_concat, mapLast_concat, ha, List.map_append, List.map_append, List.map_singleton,
      List.append_assoc]

theorem head?_intercalate_cons (sep piece : List α) (rest : List (List α)) (h : piece ≠ []) :
    (sep.intercalate (piece :: rest)).head? = piece.head? := by
  cases rest with
  | nil => rw [List.intercalate_singleton]
  | cons next rest =>
    rw [List.intercalate_cons_cons, List.append_assoc, List.head?_append_of_ne_nil _ h]

theorem getLast?_intercalate_concat (sep piece : List α) (before : List (List α))
    (h : piece ≠ []) : (sep.intercalate (before ++ [piece])).getLast? = piece.getLast? := by
  induction before with
  | nil => rw [List.nil_append, List.intercalate_singleton]
  | cons first before ih =>
    have hne : sep.intercalate (before ++ [piece]) ≠ [] := by
      intro he
      rw [he] at ih
      exact h (List.getLast?_eq_none_iff.mp ih.symm)
    rw [List.cons_append, List.intercalate_cons_of_ne_nil (by simp),
      List.getLast?_append_of_ne_nil _ hne, ih]

theorem count_intercalate [DecidableEq α] (sep a : α) (h : sep ≠ a) (pieces : List (List α)) :
    ([sep].intercalate pieces).count a = (pieces.map (List.count a)).sum := by
  induction pieces with
  | nil => rfl
  | cons piece rest ih =>
    cases rest with
    | nil => simp
    | cons next rest =>
      rw [List.intercalate_cons_cons, List.count_append, List.count_append, ih, List.map_cons,
        List.sum_cons, List.count_singleton, beq_false_of_ne h]
      simp

theorem getD_append_replicate (l : List α) (n i : Nat) (a : α) :
    (l ++ List.replicate n a)[i]?.getD a = l[i]?.getD a := by
  rcases Nat.lt_or_ge i l.length with hlt | hge
  · rw [List.getElem?_append_left hlt]
  · rw [List.getElem?_append_right hge, List.getElem?_eq_none hge, List.getElem?_replicate]
    split <;> rfl

end RetrySchedule
