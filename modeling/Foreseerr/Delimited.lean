import Mathlib.Data.List.Basic
import Mathlib.Data.List.Infix

/-!
# Delimited lists

A list of words kept in one text, each between two separators: `,7,12,`.
What the form is for is membership without taking the text apart: no word
has a separator in it, so `,7,` is a part of the text exactly when `7` is
one of its words. A plain list of words, with separators only between them, is
taken apart instead (`List.splitOn`), into words that have none.
-/

namespace Delimited

variable {α : Type*} {sep : α} {word : List α} {words : List (List α)}

/-- **The delimited text** of a list of words. -/
def text (sep : α) (words : List (List α)) : List α :=
  sep :: words.flatMap fun word => word ++ [sep]

/-- A word as it stands in a text, with the separators around it. -/
def mark (sep : α) (word : List α) : List α :=
  sep :: (word ++ [sep])

@[simp] theorem text_nil : text sep [] = [sep] := rfl

theorem text_cons : text sep (word :: words) = sep :: (word ++ text sep words) := by
  simp [text]

theorem text_singleton : text sep [word] = mark sep word := by
  simp [text, mark]

/-- A word is added by writing it, and one more separator, at the end. -/
theorem text_append : text sep (words ++ [word]) = text sep words ++ (word ++ [sep]) := by
  simp [text]

theorem text_ne_nil : text sep words ≠ [] :=
  List.cons_ne_nil _ _

/-- What starts with a separator and is a part of a text after a word without one is
a part of that text. -/
theorem infix_of_infix_append {part rest : List α} (hword : sep ∉ word)
    (h : sep :: part <:+: word ++ rest) : sep :: part <:+: rest := by
  induction word with
  | nil => exact h
  | cons a word ih =>
    rw [List.mem_cons, not_or] at hword
    rcases List.infix_cons_iff.1 h with hfront | hinfix
    · exact absurd (List.cons_prefix_cons.1 hfront).1 hword.1
    · exact ih hword.2 hinfix

/-- What stands before the first separator is the word that does. -/
theorem eq_of_isPrefix {first rest : List α} (hword : sep ∉ word) (hfirst : sep ∉ first)
    (h : word ++ [sep] <+: first ++ sep :: rest) : word = first := by
  induction word generalizing first with
  | nil =>
    cases first with
    | nil => rfl
    | cons a first => exact absurd (List.cons_prefix_cons.1 h).1 (List.ne_of_not_mem_cons hfirst)
  | cons a word ih =>
    rw [List.mem_cons, not_or] at hword
    cases first with
    | nil => exact absurd (List.cons_prefix_cons.1 h).1.symm hword.1
    | cons b first =>
      rw [List.mem_cons, not_or] at hfirst
      obtain ⟨rfl, hrest⟩ := List.cons_prefix_cons.1 h
      rw [ih hword.2 hfirst.2 hrest]

/-- **A word is in the list iff it stands, delimited, in the text.** -/
theorem mark_infix_text_iff (hword : sep ∉ word) (hwords : ∀ w ∈ words, sep ∉ w) :
    mark sep word <:+: text sep words ↔ word ∈ words := by
  induction words with
  | nil => simp [mark, List.infix_cons_iff]
  | cons first words ih =>
    have hfirst : sep ∉ first := hwords first List.mem_cons_self
    have ih := ih fun w hw => hwords w (List.mem_cons_of_mem _ hw)
    rw [text_cons, List.mem_cons, mark, List.infix_cons_iff, List.cons_prefix_cons]
    constructor
    · rintro (⟨-, hfront⟩ | hinfix)
      · exact .inl (eq_of_isPrefix hword hfirst hfront)
      · exact .inr (ih.1 (infix_of_infix_append hfirst hinfix))
    · rintro (rfl | hmem)
      · refine .inl ⟨rfl, ?_⟩
        rw [List.prefix_append_right_inj]
        exact ⟨_, rfl⟩
      · exact .inr ((ih.2 hmem).trans (List.suffix_append first _).isInfix)

/-- A text split at a separator: no piece has one. -/
theorem not_mem_of_mem_splitOn [BEq α] [LawfulBEq α] {l : List α} (h : word ∈ l.splitOn sep) :
    sep ∉ word := by
  induction l generalizing word with
  | nil =>
    rw [List.splitOn_nil, List.mem_singleton] at h
    simp [h]
  | cons a l ih =>
    rw [List.splitOn_cons_eq_if_modifyHead] at h
    split at h
    case isTrue =>
      rcases List.mem_cons.1 h with rfl | h
      · simp
      · exact ih h
    case isFalse hne =>
      obtain ⟨first, rest, hsplit⟩ := List.exists_cons_of_ne_nil (List.splitOn_ne_nil sep l)
      rw [hsplit, List.modifyHead_cons] at h
      rw [hsplit] at ih
      rcases List.mem_cons.1 h with rfl | h
      · rw [List.mem_cons, not_or]
        exact ⟨fun heq => hne (beq_iff_eq.2 heq.symm), ih List.mem_cons_self⟩
      · exact ih (List.mem_cons_of_mem _ h)

end Delimited
