import Dungeon.Text
import Mathlib.Data.List.Basic
import Mathlib.Data.List.Forall2

/-!
# Lines of a text

How the lines of a text follow from those of its parts. A newline ends a line, so a text that ends
with one can be followed by another text, and the lines of both follow each other too.

Results:
1. `Text.lines_append_newline`, `Text.lines_append_of_ended`: the lines of two texts in a row.
2. `Text.lines_ended`: ending the last line adds at most an empty line.
3. `Text.lines_unlines`: rows that are written as lines are read back.
4. `Text.newline_notMem_of_mem_lines`: there is no newline within a line.
5. `Text.lines_single`: a text without a newline is one line.
6. `Text.lines_crlf`: carriage returns in front of the newlines end up in the lines.
-/

namespace Dungeon.Text

theorem lines_newline (t : Text) : lines (newline :: t) = [] :: lines t := by
  rw [lines, if_pos rfl]

/-- A byte in front of a text belongs to its first line, or is a line of its own. -/
theorem lines_cons {c : UInt8} (hc : c ≠ newline) (t : Text) :
    lines (c :: t) = (c :: (lines t).headD []) :: (lines t).tail := by
  rw [lines, if_neg hc]
  cases lines t <;> rfl

/-- No line has a newline in it, the newline that ends it included. -/
theorem newline_notMem_of_mem_lines {t line : Text} (h : line ∈ lines t) : newline ∉ line := by
  induction t generalizing line with
  | nil => cases h
  | cons c rest ih =>
    by_cases hc : c = newline
    · rw [hc, lines_newline, List.mem_cons] at h
      rcases h with rfl | h
      · exact List.not_mem_nil
      · exact ih h
    · rw [lines_cons hc, List.mem_cons] at h
      rcases h with rfl | h
      · rw [List.mem_cons, not_or]
        refine ⟨Ne.symm hc, ?_⟩
        cases hlines : lines rest with
        | nil => exact List.not_mem_nil
        | cons first more => exact ih (by rw [hlines]; exact List.mem_cons_self)
      · exact ih (List.mem_of_mem_tail h)

theorem lines_ne_nil {t : Text} (h : t ≠ []) : lines t ≠ [] := by
  cases t with
  | nil => exact absurd rfl h
  | cons c rest =>
    by_cases hc : c = newline
    · rw [hc, lines_newline]
      exact List.cons_ne_nil _ _
    · rw [lines_cons hc]
      exact List.cons_ne_nil _ _

theorem lines_append_newline (t u : Text) :
    lines (t ++ newline :: u) = lines (t ++ [newline]) ++ lines u := by
  induction t with
  | nil => rw [List.nil_append, List.nil_append, lines_newline, lines_newline]; rfl
  | cons c rest ih =>
    rw [List.cons_append, List.cons_append]
    by_cases hc : c = newline
    · rw [hc, lines_newline, lines_newline, ih]
      rfl
    · rw [lines_cons hc, lines_cons hc, ih]
      -- The ended text has a line, to which the byte belongs in both texts.
      have hne : lines (rest ++ [newline]) ≠ [] := lines_ne_nil (by simp)
      obtain ⟨line, more, hlines⟩ := List.exists_cons_of_ne_nil hne
      rw [hlines]
      rfl

theorem lines_append_of_ended {t : Text} (h : t.getLast? = some newline) (u : Text) :
    lines (t ++ u) = lines t ++ lines u := by
  obtain ⟨front, rfl⟩ := List.getLast?_eq_some_iff.mp h
  rw [List.append_assoc, List.singleton_append, lines_append_newline]

/-- A newline at the end only shows when the last line was ended before. -/
theorem lines_ended (t : Text) :
    lines (t ++ [newline]) = lines t ∨ lines (t ++ [newline]) = lines t ++ [[]] := by
  induction t with
  | nil => exact .inr (lines_newline [])
  | cons c rest ih =>
    rw [List.cons_append]
    by_cases hc : c = newline
    · rw [hc, lines_newline, lines_newline]
      exact ih.imp (congrArg ([] :: ·)) (congrArg ([] :: ·))
    · rw [lines_cons hc, lines_cons hc]
      rcases ih with ih | ih
      · exact .inl (by rw [ih])
      · cases hlines : lines rest with
        | nil => exact .inl (by rw [ih, hlines]; rfl)
        | cons line more => exact .inr (by rw [ih, hlines]; rfl)

theorem lines_row {row : Text} (h : newline ∉ row) (t : Text) :
    lines (row ++ newline :: t) = row :: lines t := by
  induction row with
  | nil => exact lines_newline t
  | cons c rest ih =>
    rw [List.mem_cons, not_or] at h
    rw [List.cons_append, lines_cons (Ne.symm h.1), ih h.2]
    rfl

/-- A text without a newline is one line, ended or not. -/
theorem lines_single {t ending : Text} (ht : t ≠ []) (hnewline : newline ∉ t)
    (hending : ending = [] ∨ ending = [newline]) : lines (t ++ ending) = [t] := by
  have hended : lines (t ++ [newline]) = [t] := lines_row hnewline []
  rcases hending with rfl | rfl
  · rw [List.append_nil]
    rcases lines_ended t with hlines | hlines
    · rw [← hlines, hended]
    · -- The added line would be the text itself, which is not empty.
      rw [hended] at hlines
      have hlast := congrArg List.getLast? hlines
      rw [List.getLast?_concat, List.getLast?_singleton] at hlast
      exact absurd (Option.some.inj hlast) ht
  · exact hended

/-- Rows without newlines are the lines of what is written of them. -/
theorem lines_unlines {rows : List Text} (h : ∀ row ∈ rows, newline ∉ row) :
    lines (unlines rows) = rows := by
  induction rows with
  | nil => rfl
  | cons row rest ih =>
    obtain ⟨hrow, hrest⟩ := List.forall_mem_cons.mp h
    have hunlines : unlines (row :: rest) = row ++ newline :: unlines rest := by
      rw [unlines, List.flatMap_cons, List.append_assoc]
      rfl
    rw [hunlines, lines_row hrow, ih hrest]

/-! ## Carriage returns -/

/-- The text with every newline replaced by a carriage return and a newline. -/
def crlf (t : Text) : Text := t.flatMap fun c => if c = newline then [byte '\r', newline] else [c]

theorem crlf_newline (t : Text) : crlf (newline :: t) = [byte '\r'] ++ newline :: crlf t := rfl

theorem crlf_cons {c : UInt8} (hc : c ≠ newline) (t : Text) : crlf (c :: t) = c :: crlf t := by
  rw [crlf, List.flatMap_cons, if_neg hc]
  rfl

/-- The carriage return in front of a newline is the end of a line. The last line has none if it is
not ended. -/
theorem lines_crlf (t : Text) :
    List.Forall₂ (fun row row' => row' = row ∨ row' = row ++ [byte '\r'])
      (lines t) (lines (crlf t)) := by
  induction t with
  | nil => exact .nil
  | cons c rest ih =>
    by_cases hc : c = newline
    · rw [hc, crlf_newline, lines_newline, lines_row (by decide)]
      exact .cons (.inr rfl) ih
    · rw [crlf_cons hc, lines_cons hc, lines_cons hc]
      generalize lines rest = rows, lines (crlf rest) = rows' at ih
      cases ih with
      | nil => exact .cons (.inl rfl) .nil
      | cons hrow hrows => exact .cons (hrow.imp (congrArg (c :: ·)) (congrArg (c :: ·))) hrows

end Dungeon.Text
