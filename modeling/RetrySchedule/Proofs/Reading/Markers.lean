import RetrySchedule.Proofs.Reading.Outline

namespace RetrySchedule

namespace Text

def eraseSuffix (ending t : Text) : Text :=
  if ending.isSuffixOf t then t.take (t.length - ending.length) else t

theorem eraseSuffix_append (t ending : Text) : eraseSuffix ending (t ++ ending) = t := by
  have hsuffix : ending.isSuffixOf (t ++ ending) :=
    List.isSuffixOf_iff_suffix.mpr (List.suffix_append t ending)
  rw [eraseSuffix, if_pos hsuffix, List.length_append, Nat.add_sub_cancel, List.take_left]

theorem eraseSuffix_of_not_suffix (t ending : Text) (h : ¬ ending <:+ t) :
    eraseSuffix ending t = t :=
  if_neg fun hsuffix => h (List.isSuffixOf_iff_suffix.mp hsuffix)

end Text

namespace Term

/-- A piece of an expression without the marker of its term. The white space around the term
stays. -/
def unmark (piece : Text) : Text :=
  (splitMarker (Text.trimEnd piece)).1 ++ Text.trail piece

namespace Tree

/-- A term with its marker only if it is the last one, where the marker has a meaning. -/
def settled (tree : Tree) (isLast : Bool) : Tree :=
  { tree with marked := tree.marked && isLast }

theorem settled_true (tree : Tree) : tree.settled true = tree := by
  simp [settled]

theorem settled_false_eq_self_iff (tree : Tree) :
    tree.settled false = tree ↔ tree.marked = false := by
  obtain ⟨amount, rate, marked⟩ := tree
  simp [settled, eq_comm]

theorem settled_settled (tree : Tree) (isLast : Bool) :
    (tree.settled isLast).settled isLast = tree.settled isLast := by
  simp [settled]

theorem tier_settled (tree : Tree) (isLast : Bool) :
    (tree.settled isLast).tier isLast = tree.tier isLast := by
  simp [settled, tier, count]

theorem eraseSuffix_openSign (tree : Tree) : Text.eraseSuffix [openSign] tree.text =
    tree.amount.text ++ rateText tree.rate := by
  obtain ⟨a, rate, _ | _⟩ := tree
  · rw [text, markText, List.append_nil]
    apply Text.eraseSuffix_of_not_suffix
    rintro ⟨body, hbody⟩
    apply getLast?_unmarked_ne a rate
    rw [← hbody, List.getLast?_concat]
    rfl
  · exact Text.eraseSuffix_append _ _

theorem drop_text (tree : Tree) :
    tree.text.drop (tree.amount.text ++ rateText tree.rate).length = markText tree.marked :=
  List.drop_left

theorem count_openSign (tree : Tree) : tree.text.count openSign = tree.marked.toNat := by
  obtain ⟨a, rate, marked⟩ := tree
  have hamount : a.text.count openSign = 0 :=
    List.count_eq_zero.mpr (a.not_mem_text (by decide) (by decide))
  have hrate : (rateText rate).count openSign = 0 := by
    rw [List.count_eq_zero]
    cases rate with
    | none => exact List.not_mem_nil
    | some n =>
      intro hc
      exact n.not_mem_digits (by decide) (List.mem_of_ne_of_mem (by decide) hc)
  have hmark : (markText marked).count openSign = marked.toNat := by cases marked <;> rfl
  rw [text, List.count_append, List.count_append, hamount, hrate, hmark, Nat.zero_add]

end Tree

/-- A term between white space. -/
structure Padded where
  lead : Text
  tree : Tree
  trail : Text
  lead_blank : ∀ c ∈ lead, Text.blank c
  trail_blank : ∀ c ∈ trail, Text.blank c

namespace Padded

def text (p : Padded) : Text :=
  p.lead ++ p.tree.text ++ p.trail

def settled (p : Padded) (isLast : Bool) : Padded :=
  { p with tree := p.tree.settled isLast }

theorem settled_true (p : Padded) : p.settled true = p := by
  rw [settled, Tree.settled_true]

theorem settled_false_of_unmarked (p : Padded) (h : p.tree.marked = false) :
    p.settled false = p := by
  rw [settled, (Tree.settled_false_eq_self_iff _).mpr h]

theorem trim_text (p : Padded) : Text.trim p.text = p.tree.text :=
  Text.trim_padded _ _ _ p.lead_blank p.trail_blank p.tree.solid_text

theorem mem_text (p : Padded) {c : Char} (hc : c ∈ p.text) : c ∈ p.tree.text ∨ Text.blank c := by
  rcases List.mem_append.mp hc with hc | hc
  · exact (List.mem_append.mp hc).symm.imp_right (p.lead_blank c)
  · exact Or.inr (p.trail_blank c hc)

theorem separator_not_mem_text (p : Padded) : separator ∉ p.text := by
  intro hc
  rcases p.mem_text hc with hc | hc
  · exact p.tree.separator_not_mem_text hc
  · exact absurd hc (by decide)

theorem count_openSign (p : Padded) : p.text.count openSign = p.tree.marked.toNat := by
  have hblank : ∀ t : Text, (∀ c ∈ t, Text.blank c) → t.count openSign = 0 := by
    intro t ht
    rw [List.count_eq_zero]
    intro hc
    exact absurd (ht openSign hc) (by decide)
  rw [text, List.count_append, List.count_append, hblank _ p.lead_blank, hblank _ p.trail_blank,
    p.tree.count_openSign, Nat.zero_add, Nat.add_zero]

theorem unmark_text (p : Padded) : unmark p.text = (p.settled false).text := by
  obtain ⟨lead, tree, trail, hlead, htrail⟩ := p
  have hlast : ∀ c ∈ (lead ++ tree.text).getLast?, Text.blank c = false := by
    intro c hc
    rw [List.getLast?_append_of_ne_nil _ tree.text_ne_nil] at hc
    exact tree.solid_text.2 c hc
  have hbody : Text.trimEnd (lead ++ tree.text ++ trail) = lead ++ tree.text :=
    Text.trimEnd_append _ _ htrail hlast
  have htail : Text.trail (lead ++ tree.text ++ trail) = trail :=
    Text.trail_append _ _ htrail hlast
  -- Without its marker the term ends in a digit or a unit, so no second plus sign is in the way.
  obtain ⟨a, rate, marked⟩ := tree
  have hsign : (lead ++ (a.text ++ Tree.rateText rate)).getLast? ≠ some '+' := by
    obtain ⟨d, rest, htext, -⟩ := a.exists_text_eq_cons
    rw [List.getLast?_append_of_ne_nil _ (by simp [htext])]
    exact Tree.getLast?_unmarked_ne a rate
  have hmarker := splitMarker_append _ marked hsign
  rw [List.append_assoc] at hmarker
  rw [text, unmark, hbody, htail, Tree.text, hmarker]
  simp [text, settled, Tree.settled, Tree.text, Tree.markText]

end Padded

theorem exists_padded (pieces : List Text) (trees : List Tree)
    (h : pieces.map Text.trim = trees.map Tree.text) :
    ∃ padded : List Padded, pieces = padded.map Padded.text ∧ padded.map Padded.tree = trees := by
  induction pieces generalizing trees with
  | nil =>
    rw [List.map_nil, eq_comm, List.map_eq_nil_iff] at h
    exact ⟨[], rfl, h.symm⟩
  | cons piece pieces ih =>
    cases trees with
    | nil => cases h
    | cons tree trees =>
      obtain ⟨hpiece, hrest⟩ := List.cons.inj h
      obtain ⟨padded, rfl, rfl⟩ := ih trees hrest
      obtain ⟨lead, trail, hsplit, hlead, htrail⟩ := Text.exists_padding piece
      rw [hpiece] at hsplit
      exact ⟨⟨lead, tree, trail, hlead, htrail⟩ :: padded, by rw [hsplit]; rfl, rfl⟩

end Term

namespace Schedule
open Term

theorem exists_padded_of_terms {expression : Text} {trees : List Tree}
    (h : terms expression = trees.map Tree.text) : ∃ padded : List Padded, padded ≠ [] ∧
      expression.splitOn separator = padded.map Padded.text ∧
      [separator].intercalate (padded.map Padded.text) = expression ∧
      padded.map Padded.tree = trees := by
  obtain ⟨padded, hpieces, rfl⟩ := exists_padded _ _ h
  refine ⟨padded, ?_, hpieces, ?_, rfl⟩
  · rintro rfl
    exact terms_ne_nil expression h
  · rw [← hpieces, List.intercalate_splitOn]

/-- Whether white space surrounds joined pieces does not depend on what stands between the white
space of a piece. -/
theorem solid_framed_iff (padded : List Padded) (f : Tree → Text)
    (hsolid : ∀ tree, (f tree).Solid) (hne : ∀ tree, f tree ≠ []) :
    Text.Solid ([separator].intercalate (padded.map fun p => p.lead ++ f p.tree ++ p.trail)) ↔
      (∀ lead ∈ (padded.map Padded.lead).head?, lead = []) ∧
        ∀ trail ∈ (padded.map Padded.trail).getLast?, trail = [] := by
  have hpieces : ∀ piece ∈ padded.map fun p => p.lead ++ f p.tree ++ p.trail, piece ≠ [] := by
    intro piece hpiece
    obtain ⟨p, -, rfl⟩ := List.mem_map.mp hpiece
    simp [hne p.tree]
  rw [solid_intercalate_iff _ hpieces]
  simp only [List.head?_map, List.getLast?_map, Option.mem_def, Option.map_eq_some_iff,
    forall_exists_index, and_imp, forall_apply_eq_imp_iff₂]
  refine and_congr (forall_congr' fun p => forall_congr' fun _ => ?_)
    (forall_congr' fun p => forall_congr' fun _ => ?_)
  · exact Text.head?_framed_iff _ _ _ p.lead_blank (hsolid p.tree) (hne p.tree)
  · exact Text.getLast?_framed_iff _ _ _ p.trail_blank (hsolid p.tree) (hne p.tree)

theorem solid_padded_iff (padded : List Padded) :
    Text.Solid ([separator].intercalate (padded.map Padded.text)) ↔
      (∀ lead ∈ (padded.map Padded.lead).head?, lead = []) ∧
        ∀ trail ∈ (padded.map Padded.trail).getLast?, trail = [] :=
  solid_framed_iff padded Tree.text Tree.solid_text Tree.text_ne_nil

end Schedule
end RetrySchedule
