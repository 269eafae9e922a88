import RetrySchedule.Proofs.Reading.Language
import RetrySchedule.Proofs.Reading.Markers

namespace RetrySchedule
open Term

/-- A text with its ends of white space, and what is between them replaced. -/
def Text.within (f : Text → Text) (t : Text) : Text :=
  t.takeWhile blank ++ f (trim t) ++ trail (trimStart t)

namespace Term

/-- The terms without a rate that a term is shorthand for. Only the last of them has the marker. -/
def copies (term : Text) : List Text :=
  let body := Text.eraseSuffix [openSign] term
  let marker := term.drop body.length
  match body.dropWhile (· != rateSign) with
  | [] => [term]
  | _ :: rate =>
      let amount := body.takeWhile (· != rateSign)
      List.replicate (Nat.ofDigitChars 10 rate 0 - 1) amount ++ [amount ++ marker]

namespace Tree

def copies (tree : Tree) : List Tree :=
  List.replicate (tree.count - 1) ⟨tree.amount, none, false⟩ ++ [⟨tree.amount, none, tree.marked⟩]

theorem copies_text (tree : Tree) : Term.copies tree.text = tree.copies.map text := by
  have hslash : ∀ c ∈ tree.amount.text, (c != rateSign) = true := by
    intro c hc
    rw [bne_iff_ne]
    rintro rfl
    exact tree.amount.not_mem_text (by decide) (by decide) hc
  have hamount : text ⟨tree.amount, none, false⟩ = tree.amount.text := by
    simp only [text, rateText, markText, List.append_nil]
  have hlast :
      text ⟨tree.amount, none, tree.marked⟩ = tree.amount.text ++ markText tree.marked := by
    simp only [text, rateText, List.append_nil]
  rw [copies, List.map_append, List.map_replicate, List.map_singleton, hamount, hlast]
  simp only [Term.copies, eraseSuffix_openSign, drop_text]
  cases hrate : tree.rate with
  | none =>
    have hdrop : (tree.amount.text ++ rateText none).dropWhile (· != rateSign) = [] := by
      rw [rateText, List.append_nil]
      exact List.dropWhile_eq_nil_iff.mpr hslash
    rw [hdrop]
    simp [count, hrate, text, rateText]
  | some n =>
    have hdrop : (tree.amount.text ++ rateText (some n)).dropWhile (· != rateSign) =
        '/' :: n.digits := by
      rw [List.dropWhile_append_of_pos hslash]
      rfl
    have htake : (tree.amount.text ++ rateText (some n)).takeWhile (· != rateSign) =
        tree.amount.text := by
      rw [List.takeWhile_append_of_pos hslash]
      exact List.append_nil _
    rw [hdrop, htake]
    simp only [count, hrate, Option.elim_some, Counting.value]

theorem mem_copies {tree copy : Tree} (h : copy ∈ tree.copies) :
    copy.amount = tree.amount ∧ copy.rate = none ∧ (copy.marked → tree.marked) := by
  rcases List.mem_append.mp h with h | h
  · rw [List.eq_of_mem_replicate h]
    exact ⟨rfl, rfl, Bool.noConfusion⟩
  · rw [List.mem_singleton.mp h]
    exact ⟨rfl, rfl, id⟩

theorem short_of_mem_copies {tree copy : Tree} (h : copy ∈ tree.copies) (hshort : tree.Short) :
    copy.Short := by
  obtain ⟨hamount, hrate, -⟩ := mem_copies h
  intro n hn
  apply hshort n
  rw [numerals, hamount, hrate] at hn
  exact List.mem_append_left _ (by simpa using hn)

theorem copies_ne_nil (tree : Tree) : tree.copies ≠ [] := by
  simp [copies]

theorem length_copies (tree : Tree) : tree.copies.length = tree.count := by
  have hpos := tree.count_pos
  rw [copies, List.length_append, List.length_replicate, List.length_singleton]
  omega

theorem sum_count_copies (tree : Tree) : (tree.copies.map count).sum = tree.count := by
  have hpos := tree.count_pos
  simp [copies, count] at hpos ⊢
  omega

end Tree

theorem Padded.within_text (f : Text → Text) (p : Padded) :
    Text.within f p.text = p.lead ++ f p.tree.text ++ p.trail := by
  have hhead : ∀ c ∈ (p.tree.text ++ p.trail).head?, Text.blank c = false := by
    rw [List.head?_append_of_ne_nil _ p.tree.text_ne_nil]
    exact p.tree.solid_text.1
  have hstart : p.text.dropWhile Text.blank = p.tree.text ++ p.trail := by
    rw [text, List.append_assoc]
    exact Text.trimStart_append _ _ p.lead_blank hhead
  have hlead : p.text.takeWhile Text.blank = p.lead := by
    have hcut := List.takeWhile_append_dropWhile (p := Text.blank) (l := p.text)
    have hsplit : p.text = p.lead ++ (p.tree.text ++ p.trail) := List.append_assoc ..
    rw [hstart] at hcut
    exact List.append_cancel_right (hcut.trans hsplit)
  have htrail : Text.trail (Text.trimStart p.text) = p.trail := by
    rw [Text.trimStart, hstart]
    exact Text.trail_append _ _ p.trail_blank p.tree.solid_text.2
  rw [Text.within, hlead, p.trim_text, htrail]

end Term

namespace Schedule

def spelledOut (expression : Text) : Text :=
  [separator].intercalate
    ((expression.splitOn separator).map
      (Text.within fun term => [separator].intercalate (copies term)))

section
variable {expression : Text} {trees : List Tree}

theorem spelledOut_eq_intercalate (padded : List Padded)
    (h : expression.splitOn separator = padded.map Padded.text) :
    spelledOut expression = [separator].intercalate (padded.map fun p =>
      p.lead ++ [separator].intercalate (p.tree.copies.map Tree.text) ++ p.trail) := by
  rw [spelledOut, h, List.map_map]
  congr 1
  apply List.map_congr_left
  intro p _
  rw [Function.comp_apply, p.within_text, p.tree.copies_text]

example : spelledOut "0/2, 1m/3+".toList = "0,0, 1m,1m,1m+".toList := by decide

theorem terms_spelledOut (h : terms expression = trees.map Tree.text) :
    terms (spelledOut expression) = (trees.flatMap Tree.copies).map Tree.text := by
  obtain ⟨padded, hne, hpieces, -, rfl⟩ := exists_padded_of_terms h
  rw [spelledOut_eq_intercalate padded hpieces,
    terms_intercalate_eq_flatMap _ (by simpa using hne), List.flatMap_map, List.flatMap_map,
    List.map_flatMap]
  apply List.flatMap_congr
  intro p _
  rw [terms_framed _ _ _ p.lead_blank p.trail_blank, terms_joined _ p.tree.copies_ne_nil]

theorem solid_spelledOut (h : terms expression = trees.map Tree.text) (hsolid : expression.Solid) :
    (spelledOut expression).Solid := by
  obtain ⟨padded, -, hpieces, rfl, rfl⟩ := exists_padded_of_terms h
  have hcopies : ∀ tree : Tree, Text.Solid ([separator].intercalate (tree.copies.map Tree.text)) :=
    fun tree => solid_joined tree.copies
  have hne : ∀ tree : Tree, [separator].intercalate (tree.copies.map Tree.text) ≠ [] :=
    fun tree => joined_ne_nil tree.copies tree.copies_ne_nil
  rwa [spelledOut_eq_intercalate padded hpieces, solid_framed_iff padded _ hcopies hne,
    ← solid_padded_iff]

theorem flatMap_copies_concat (before : List Tree) (tree : Tree) :
    (before ++ [tree]).flatMap Tree.copies =
      (before.flatMap Tree.copies ++
        List.replicate (tree.count - 1) ⟨tree.amount, none, false⟩) ++
        [⟨tree.amount, none, tree.marked⟩] := by
  rw [List.flatMap_append, List.flatMap_singleton, Tree.copies, List.append_assoc]

theorem sum_count_flatMap_copies (trees : List Tree) :
    ((trees.flatMap Tree.copies).map Tree.count).sum = (trees.map Tree.count).sum := by
  induction trees with
  | nil => rfl
  | cons tree rest ih =>
    rw [List.flatMap_cons, List.map_append, List.sum_append, tree.sum_count_copies, ih,
      List.map_cons, List.sum_cons]

theorem Sound.spelledOut {policy : Policy} (h : Sound policy trees) :
    Sound policy (trees.flatMap Tree.copies) := by
  refine ⟨fun copy hcopy => ?_, fun hstrict copy hcopy => ?_⟩
  · obtain ⟨tree, htree, hcopy⟩ := List.mem_flatMap.mp hcopy
    exact Tree.short_of_mem_copies hcopy (h.short tree htree)
  · rcases List.eq_nil_or_concat trees with rfl | ⟨before, last, rfl⟩
    · exact absurd hcopy List.not_mem_nil
    · rw [List.concat_eq_append] at h hcopy
      rw [flatMap_copies_concat, List.dropLast_concat] at hcopy
      rcases List.mem_append.mp hcopy with hcopy | hcopy
      · obtain ⟨tree, htree, hcopy⟩ := List.mem_flatMap.mp hcopy
        have hclosed := h.placed hstrict tree (by rwa [List.dropLast_concat])
        rw [← Bool.not_eq_true] at hclosed ⊢
        exact fun hmarked => hclosed ((Tree.mem_copies hcopy).2.2 hmarked)
      · rw [List.eq_of_mem_replicate hcopy]

theorem Legible.spelledOut {policy : Policy} (h : Legible policy expression trees) :
    Legible policy (spelledOut expression) (trees.flatMap Tree.copies) := by
  have hterms := terms_spelledOut h.spelled
  have houtline := hasOutline_of_solid _ _ hterms (solid_spelledOut h.spelled h.solid)
  exact legible_of_sound houtline hterms h.sound.spelledOut
    ((sum_count_flatMap_copies trees).symm ▸ h.budget)

end
end Schedule
end RetrySchedule
