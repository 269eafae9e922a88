import RetrySchedule.Proofs.Grammar
import RetrySchedule.Proofs.Lists
import RetrySchedule.Reading

namespace RetrySchedule

theorem Text.trim_nil : Text.trim [] = [] := rfl

namespace Schedule
open Term

theorem terms_ne_nil (expression : Text) : terms expression ≠ [] := by
  simp [terms]

theorem terms_intercalate (pieces : List Text) (hne : pieces ≠ [])
    (h : ∀ piece ∈ pieces, separator ∉ piece) :
    terms ([separator].intercalate pieces) = pieces.map Text.trim := by
  rw [terms, List.splitOn_intercalate separator h hne]

theorem terms_append_separator (first second : Text) :
    terms (first ++ separator :: second) = terms first ++ terms second := by
  rw [terms, List.splitOn_append_cons_self, List.map_append, terms, terms]

/-- An expression is a single piece, or a piece and a separator in front of an expression. -/
theorem separated_induction {motive : Text → Prop}
    (piece : ∀ t : Text, separator ∉ t → motive t)
    (more : ∀ first second : Text, separator ∉ first → motive second →
      motive (first ++ separator :: second)) (expression : Text) : motive expression := by
  induction hn : expression.length using Nat.strongRecOn generalizing expression with
  | ind n ih =>
    by_cases hsep : separator ∈ expression
    · obtain ⟨first, second, rfl, hfirst⟩ := List.eq_append_cons_of_mem hsep
      rw [List.length_append, List.length_cons] at hn
      exact more first second hfirst (ih second.length (by omega) second rfl)
    · exact piece expression hsep

theorem terms_of_not_mem (piece : Text) (h : separator ∉ piece) :
    terms piece = [Text.trim piece] := by
  rw [terms, List.splitOn_eq_singleton h, List.map_singleton]

theorem exists_last_piece (expression : Text) : ∃ (before : List Text) (piece : Text),
    ∀ rest : Text, separator ∉ rest →
      terms (expression ++ rest) = before ++ [Text.trim (piece ++ rest)] := by
  induction expression using separated_induction with
  | piece t ht =>
    refine ⟨[], t, fun rest hrest => terms_of_not_mem _ ?_⟩
    rw [List.mem_append]
    exact not_or.mpr ⟨ht, hrest⟩
  | more first second _ ih =>
    obtain ⟨before, piece, hpiece⟩ := ih
    refine ⟨terms first ++ before, piece, fun rest hrest => ?_⟩
    rw [List.append_assoc, List.cons_append, terms_append_separator, hpiece rest hrest,
      List.append_assoc]

theorem separator_not_mem_of_blank {t : Text} (h : ∀ c ∈ t, Text.blank c) : separator ∉ t := by
  intro hc
  exact absurd (h separator hc) (by decide)

theorem terms_framed (lead expression trail : Text) (hl : ∀ c ∈ lead, Text.blank c)
    (htr : ∀ c ∈ trail, Text.blank c) : terms (lead ++ expression ++ trail) = terms expression := by
  have hpiece : ∀ lead t trail : Text, (∀ c ∈ lead, Text.blank c) → (∀ c ∈ trail, Text.blank c) →
      separator ∉ t → terms (lead ++ t ++ trail) = terms t := by
    intro lead t trail hl htr ht
    have hframe : separator ∉ lead ++ t ++ trail := by
      rw [List.mem_append, List.mem_append]
      exact not_or.mpr ⟨not_or.mpr ⟨separator_not_mem_of_blank hl, ht⟩,
        separator_not_mem_of_blank htr⟩
    rw [terms_of_not_mem _ hframe, terms_of_not_mem t ht, Text.trim_framed lead t trail hl htr]
  -- The white space in front belongs to the first piece, that behind to the last one.
  induction expression using separated_induction generalizing lead with
  | piece t ht => exact hpiece lead t trail hl htr ht
  | more first second hfirst ih =>
    have hfront := hpiece lead first [] hl (by simp) hfirst
    have hback := ih [] (by simp)
    rw [List.append_nil] at hfront
    rw [List.nil_append] at hback
    rw [terms_append_separator, ← List.append_assoc, List.append_assoc, List.cons_append,
      terms_append_separator, hfront, hback]

theorem terms_intercalate_eq_flatMap (expressions : List Text) (hne : expressions ≠ []) :
    terms ([separator].intercalate expressions) = expressions.flatMap terms := by
  induction expressions with
  | nil => exact absurd rfl hne
  | cons first rest ih =>
    rw [List.flatMap_cons]
    cases rest with
    | nil => rw [List.intercalate_singleton, List.flatMap_nil, List.append_nil]
    | cons next rest =>
      rw [List.intercalate_cons_cons, List.append_assoc, List.singleton_append,
        terms_append_separator, ih (List.cons_ne_nil _ _)]

theorem terms_of_solid (term : Text) (h : separator ∉ term) (hsolid : term.Solid) :
    terms term = [term] := by
  rw [terms_of_not_mem term h, Text.trim_of_solid term hsolid]

theorem terms_joined (trees : List Tree) (hne : trees ≠ []) :
    terms ([separator].intercalate (trees.map Tree.text)) = trees.map Tree.text := by
  rw [terms_intercalate _ (by simpa using hne), List.map_map]
  · exact List.map_congr_left fun tree _ => Text.trim_of_solid _ tree.solid_text
  · intro piece hpiece
    obtain ⟨tree, -, rfl⟩ := List.mem_map.mp hpiece
    exact tree.separator_not_mem_text

theorem solid_intercalate_iff (pieces : List Text) (hne : ∀ piece ∈ pieces, piece ≠ []) :
    Text.Solid ([separator].intercalate pieces) ↔
      (∀ first ∈ pieces.head?, ∀ c ∈ first.head?, Text.blank c = false) ∧
        ∀ last ∈ pieces.getLast?, ∀ c ∈ last.getLast?, Text.blank c = false := by
  refine and_congr ?_ ?_
  · cases pieces with
    | nil => simp
    | cons first rest =>
      rw [head?_intercalate_cons _ _ _ (hne first (List.mem_cons_self ..))]
      simp
  · rcases List.eq_nil_or_concat pieces with rfl | ⟨before, last, rfl⟩
    · simp
    · rw [List.concat_eq_append] at hne ⊢
      rw [getLast?_intercalate_concat _ _ _ (hne last (by simp))]
      simp

theorem solid_joined (trees : List Tree) :
    Text.Solid ([separator].intercalate (trees.map Tree.text)) := by
  rw [solid_intercalate_iff]
  · constructor
    · intro first hfirst
      obtain ⟨tree, -, rfl⟩ := List.mem_map.mp (List.mem_of_mem_head? hfirst)
      exact tree.solid_text.1
    · intro last hlast
      obtain ⟨tree, -, rfl⟩ := List.mem_map.mp (List.mem_of_getLast? hlast)
      exact tree.solid_text.2
  · intro piece hpiece
    obtain ⟨tree, -, rfl⟩ := List.mem_map.mp hpiece
    exact tree.text_ne_nil

theorem joined_ne_nil (trees : List Tree) (hne : trees ≠ []) :
    [separator].intercalate (trees.map Tree.text) ≠ [] := by
  obtain ⟨tree, rest, rfl⟩ := List.exists_cons_of_ne_nil hne
  intro h
  have hhead := head?_intercalate_cons [separator] tree.text (rest.map Tree.text) tree.text_ne_nil
  rw [← List.map_cons, h, List.head?_nil, eq_comm, List.head?_eq_none_iff] at hhead
  exact tree.text_ne_nil hhead

theorem head?_eq_of_terms (expression first : Text) (rest : List Text)
    (h : terms expression = first :: rest) (hfirst : first ≠ [])
    (hsolid : ∀ c ∈ expression.head?, Text.blank c = false) :
    expression.head? = first.head? := by
  have hjoin : [separator].intercalate (expression.splitOn separator) = expression :=
    List.intercalate_splitOn separator
  obtain ⟨piece, pieces, hsplit, rfl, -⟩ := List.map_eq_cons_iff.mp h
  -- An empty first piece would be an empty first term.
  have hpiece : piece ≠ [] := by
    rintro rfl
    exact hfirst Text.trim_nil
  have hhead : expression.head? = piece.head? := by
    rw [← hjoin, hsplit, head?_intercalate_cons _ _ _ hpiece]
  rw [hhead] at hsolid ⊢
  exact (Text.head?_trim piece hsolid).symm

theorem getLast?_eq_of_terms (expression last : Text) (before : List Text)
    (h : terms expression = before ++ [last]) (hlast : last ≠ [])
    (hsolid : ∀ c ∈ expression.getLast?, Text.blank c = false) :
    expression.getLast? = last.getLast? := by
  have hjoin : [separator].intercalate (expression.splitOn separator) = expression :=
    List.intercalate_splitOn separator
  obtain ⟨pieces, final, hsplit, -, hfinal⟩ := List.map_eq_append_iff.mp h
  obtain ⟨piece, rfl, rfl⟩ := List.map_eq_singleton_iff.mp hfinal
  have hpiece : piece ≠ [] := by
    rintro rfl
    exact hlast Text.trim_nil
  have hend : expression.getLast? = piece.getLast? := by
    rw [← hjoin, hsplit, getLast?_intercalate_concat _ _ _ hpiece]
  rw [hend] at hsolid ⊢
  exact (Text.getLast?_trim piece hsolid).symm

theorem hasOutline_iff (expression : Text) : hasOutline expression ↔
    (∃ c ∈ expression.head?, c.isDigit) ∧ ∃ c ∈ expression.getLast?, mayEnd c := by
  simp [hasOutline, Option.any_eq_true]

theorem blank_of_mayEnd {c : Char} (h : mayEnd c) : Text.blank c = false := by
  simp only [mayEnd, Bool.or_eq_true, beq_iff_eq, List.any_eq_true, List.contains_iff_mem] at h
  rcases h with (hdigit | rfl) | ⟨scale, -, hc⟩
  · exact Text.blank_of_isDigit hdigit
  · decide
  · have hunits : ['m', 's', 'h', 'd'].all (fun d => !Text.blank d) := by decide
    simpa using List.all_eq_true.mp hunits c (scale.mem_symbol hc)

theorem solid_of_hasOutline (expression : Text) (h : hasOutline expression) :
    expression.Solid := by
  obtain ⟨⟨first, hfirst, hdigit⟩, last, hlast, hend⟩ := (hasOutline_iff expression).mp h
  constructor
  · intro c hc
    rw [Option.mem_unique hc hfirst]
    exact Text.blank_of_isDigit hdigit
  · intro c hc
    rw [Option.mem_unique hc hlast]
    exact blank_of_mayEnd hend

/-- The outline of an expression of the grammar only says that no white space surrounds it. -/
theorem hasOutline_of_solid (expression : Text) (trees : List Tree)
    (h : terms expression = trees.map Tree.text) (hsolid : expression.Solid) :
    hasOutline expression := by
  rw [hasOutline_iff]
  constructor
  · cases trees with
    | nil => exact absurd h (terms_ne_nil expression)
    | cons tree rest =>
      obtain ⟨c, tail, htext, hc⟩ := tree.exists_text_eq_cons
      refine ⟨c, ?_, hc⟩
      rw [head?_eq_of_terms expression tree.text _ h tree.text_ne_nil hsolid.1, htext]
      rfl
  · rcases List.eq_nil_or_concat trees with rfl | ⟨before, tree, rfl⟩
    · exact absurd h (terms_ne_nil expression)
    · have hterms : terms expression = before.map Tree.text ++ [tree.text] := by
        rw [h, List.concat_eq_append, List.map_append, List.map_singleton]
      have hlast := List.getLast?_eq_some_getLast tree.text_ne_nil
      refine ⟨_, ?_, tree.mayEnd_getLast? hlast⟩
      rw [getLast?_eq_of_terms expression tree.text _ hterms tree.text_ne_nil hsolid.2]
      exact hlast

end Schedule
end RetrySchedule
