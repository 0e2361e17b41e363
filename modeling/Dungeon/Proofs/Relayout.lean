import Mathlib.Logic.Relation
import Dungeon.Proofs.Cutting
import Dungeon.Proofs.LetterCase
import Dungeon.Proofs.Settings

/-!
# The layout of a settings file

What a settings file says does not depend on how it is laid out. Blanks at the end of a line and
around its first sign of equality, comments at its end and the case of its key can be changed
without changing what the line says, and a file may end its lines with a carriage return and a
newline. `Relayout` is one such change of a file, at any place of it.

A comment in front of the first sign of equality hides that sign, so the changes around it are
followed through both cases: the sign is seen, or it is part of a comment.

Results:
1. `Settings.content_append`: what may be added to the end of a line.
2. `Settings.content_hidden`, `Settings.assignment?_sides`: what is left of a line with a sign of
   equality, hidden or not.
3. `Settings.readLine_relaid`: a line that is laid out anew says the same.
4. `Settings.loadFrom_congr`: a file is known by what its lines say.
5. `Settings.load_relayout`: it says the same after any number of changes.
-/

namespace Dungeon

open Text (byte newline)

namespace Settings

variable {line line' before after : Text}

/-! ## What is left of a line -/

/-- The line without a leading mark. -/
def unmarked (line : Text) : Text := (Text.after? mark line).getD line

theorem content_eq (line : Text) :
    content line = Text.trim (Text.before startsComment (unmarked line)) := rfl

theorem startsComment_of_isBlank {c : UInt8} (h : Text.isBlank c = true) :
    startsComment c = false := by
  rw [← Bool.not_eq_true, startsComment, Bool.or_eq_true, beq_iff_eq, beq_iff_eq]
  rintro (rfl | rfl)
  · exact absurd h (by decide)
  · exact absurd h (by decide)

theorem startsComment_of_isLetter (c : UInt8) (h : Text.isLetter c = true) :
    startsComment c = false := by
  rw [← Bool.not_eq_true, startsComment, Bool.or_eq_true, beq_iff_eq, beq_iff_eq]
  rintro (rfl | rfl)
  · exact absurd h (by decide)
  · exact absurd h (by decide)

theorem notMem_mark_of_isBlank {c : UInt8} (h : Text.isBlank c = true) : c ∉ mark := by
  have hmark : mark.all (fun c => !Text.isBlank c) = true := by decide
  intro hc
  have hplain := List.all_eq_true.mp hmark c hc
  rw [h] at hplain
  cases hplain

theorem unmarked_append {rest : Text} (h : ∀ c ∈ rest.head?, c ∉ mark) (line : Text) :
    unmarked (line ++ rest) = unmarked line ++ rest := by
  rw [unmarked, Text.after?_append h, unmarked]
  cases Text.after? mark line <;> rfl

theorem unmarked_subset (line : Text) : unmarked line ⊆ line := by
  rw [unmarked]
  cases hmark : Text.after? mark line with
  | none => exact List.Subset.refl line
  | some rest => exact Text.after?_subset hmark

/-- Blanks and a comment at the end of a line are cut off. -/
theorem content_append {rest : Text} (hhead : ∀ c ∈ rest.head?, c ∉ mark)
    (hblank : ∀ c ∈ Text.before startsComment rest, Text.isBlank c = true) (line : Text) :
    content (line ++ rest) = content line := by
  rw [content_eq, content_eq, unmarked_append hhead]
  by_cases hhidden : ∃ c ∈ unmarked line, startsComment c = true
  · rw [Text.before_append_of_mem hhidden]
  · have hplain : ∀ c ∈ unmarked line, startsComment c = false := by simpa using hhidden
    rw [Text.before_append_of_forall hplain, Text.before_of_forall hplain,
      Text.trim_append_blanks hblank]

/-! ## Signs of equality -/

theorem equality_notMem_mark : ∀ c ∈ (byte '=' :: after).head?, c ∉ mark := by
  rintro c ⟨⟩
  decide

/-- A comment in front of the first sign of equality hides all that follows. -/
theorem content_hidden (h : ∃ c ∈ unmarked before, startsComment c = true) (after : Text) :
    content (before ++ byte '=' :: after) = content before := by
  rw [content_eq, unmarked_append equality_notMem_mark, Text.before_append_of_mem h, content_eq]

/-- Without a comment in front of it, the first sign of equality parts the key from the value. -/
theorem assignment?_sides (hbefore : byte '=' ∉ before)
    (h : ∀ c ∈ unmarked before, startsComment c = false) (after : Text) :
    assignment? (before ++ byte '=' :: after) =
      some (Text.lower (Text.trim (unmarked before)),
        Text.trim (Text.before startsComment after)) := by
  have hcut : Text.before startsComment (byte '=' :: after) =
      byte '=' :: Text.before startsComment after := List.takeWhile_cons_of_pos (by decide)
  have hkey : byte '=' ∉ (unmarked before).dropWhile Text.isBlank := fun hmem =>
    hbefore (unmarked_subset before (List.dropWhile_subset _ hmem))
  rw [assignment?, content_eq, unmarked_append equality_notMem_mark,
    Text.before_append_of_forall h, hcut, Text.trim_around (by decide), Text.splitAt?_append hkey,
    Option.map_some]
  dsimp only
  rw [Text.trim_dropWhile, Text.trim_rdropWhile]

/-- Two lines say the same if neither says more than the other is left with. -/
theorem readLine_congr (hcontent : content line' = [] ↔ content line = [])
    (hassignment : assignment? line' = assignment? line) : readLine line' = readLine line := by
  rw [readLine_eq, readLine_eq, hassignment]
  simp only [hcontent]

theorem readLine_of_assignment {pair : Text × Text} (h : assignment? line = some pair)
    (h' : assignment? line' = some pair) : readLine line' = readLine line := by
  have hne : ∀ {line}, assignment? line = some pair → content line ≠ [] := fun heq =>
    content_ne_nil (by rw [heq]; exact Option.some_ne_none pair)
  exact readLine_congr (iff_of_false (hne h') (hne h)) (h'.trans h.symm)

theorem assignment?_of_notMem (h : byte '=' ∉ line) : assignment? line = none := by
  rw [assignment?, Option.map_eq_none_iff, Text.splitAt?_eq_none_iff, content_eq]
  intro hmem
  exact h (unmarked_subset line (List.takeWhile_subset _ (Text.trim_subset _ hmem)))

theorem readLine_of_content (h : content line' = content line) :
    readLine line' = readLine line := by
  unfold readLine
  rw [h]

/-! ## The case of the key -/

theorem unmarked_lower (line : Text) : unmarked (Text.lower line) = Text.lower (unmarked line) := by
  have hmark : mark.all (fun c => !Text.isLetter c) = true := by decide
  have hplain : ∀ c ∈ mark, Text.isLetter c = false := by
    simpa only [List.all_eq_true, Bool.not_eq_true'] using hmark
  rw [unmarked, Text.after?_lower hplain, unmarked]
  cases Text.after? mark line <;> rfl

theorem content_lower (line : Text) : content (Text.lower line) = Text.lower (content line) := by
  rw [content_eq, unmarked_lower, Text.before_lower startsComment_of_isLetter, Text.trim_lower,
    content_eq]

/-- What stands in front of the first sign of equality counts in lower case only. -/
theorem readLine_lower (hbefore : byte '=' ∉ before) (after : Text) :
    readLine (Text.lower before ++ byte '=' :: after) = readLine (before ++ byte '=' :: after) := by
  have hlower : byte '=' ∉ Text.lower before := by rwa [Text.mem_lower_iff (by decide)]
  have hhidden : (∃ c ∈ unmarked (Text.lower before), startsComment c = true) ↔
      ∃ c ∈ unmarked before, startsComment c = true := by
    rw [unmarked_lower, Text.exists_mem_lower_iff startsComment_of_isLetter]
  -- The sign of equality is part of a comment in both lines, or in neither.
  by_cases h : ∃ c ∈ unmarked before, startsComment c = true
  · have hblank : content (Text.lower before) = [] ↔ content before = [] := by
      rw [content_lower, Text.lower, List.map_eq_nil_iff]
    calc readLine (Text.lower before ++ byte '=' :: after)
        = readLine (Text.lower before) := readLine_of_content (content_hidden (hhidden.mpr h) after)
      _ = readLine before := readLine_congr hblank
        (by rw [assignment?_of_notMem hlower, assignment?_of_notMem hbefore])
      _ = readLine (before ++ byte '=' :: after) :=
        (readLine_of_content (content_hidden h after)).symm
  · have hplain : ∀ c ∈ unmarked before, startsComment c = false := by simpa using h
    have hplain' : ∀ c ∈ unmarked (Text.lower before), startsComment c = false := by
      simpa using mt hhidden.mp h
    refine readLine_of_assignment (assignment?_sides hbefore hplain after) ?_
    rw [assignment?_sides hlower hplain' after, unmarked_lower, Text.trim_lower, Text.lower_lower]

/-! ## Changes of one line -/

/-- Blanks that stay on their line. -/
def Blanks (t : Text) : Prop := ∀ c ∈ t, Text.isBlank c = true ∧ c ≠ newline

instance (t : Text) : Decidable (Blanks t) := List.decidableBAll _ t

/-- The first line can be laid out as the second one. -/
inductive Relaid : Text → Text → Prop
  | padded (line : Text) {blanks : Text} (hblanks : Blanks blanks) : Relaid line (line ++ blanks)
  | commented (line : Text) {blanks words : Text} {sign : UInt8} (hblanks : Blanks blanks)
      (hsign : sign = byte '#' ∨ sign = byte ';') (hwords : newline ∉ words) :
      Relaid line (line ++ (blanks ++ sign :: words))
  | spaced {before left right : Text} (hbefore : byte '=' ∉ before) (hleft : Blanks left)
      (hright : Blanks right) (after : Text) :
      Relaid (before ++ byte '=' :: after) (before ++ left ++ byte '=' :: (right ++ after))
  | recased {before before' : Text} (hbefore : byte '=' ∉ before)
      (hcase : List.Forall₂ Text.SameLetter before before') (after : Text) :
      Relaid (before ++ byte '=' :: after) (before' ++ byte '=' :: after)

section Blanks

variable {blanks : Text} (h : Blanks blanks)

include h

theorem Blanks.isBlank : ∀ c ∈ blanks, Text.isBlank c = true := fun c hc => (h c hc).1

theorem Blanks.newline_notMem : newline ∉ blanks := fun hmem => (h newline hmem).2 rfl

theorem Blanks.plain : ∀ c ∈ blanks, startsComment c = false := fun c hc =>
  startsComment_of_isBlank (h c hc).1

/-- No blank and no sign is part of the mark in front of a file. -/
theorem Blanks.notMem_mark {sign : UInt8} (hsign : sign ∉ mark) (rest : Text) :
    ∀ c ∈ (blanks ++ sign :: rest).head?, c ∉ mark := by
  intro c hc
  cases blanks with
  | nil =>
    cases hc
    exact hsign
  | cons d blanks =>
    cases hc
    exact notMem_mark_of_isBlank (h c List.mem_cons_self).1

theorem content_padded (line : Text) : content (line ++ blanks) = content line := by
  refine content_append (fun c hc => ?_) (fun c hc => ?_) line
  · exact notMem_mark_of_isBlank (h.isBlank c (List.mem_of_mem_head? hc))
  · exact h.isBlank c (List.takeWhile_subset _ hc)

theorem content_commented {sign : UInt8} (hsign : sign = byte '#' ∨ sign = byte ';')
    (line words : Text) : content (line ++ (blanks ++ sign :: words)) = content line := by
  have hmark : sign ∉ mark := by rcases hsign with rfl | rfl <;> decide
  have hstops : startsComment sign = true := by rcases hsign with rfl | rfl <;> rfl
  refine content_append (h.notMem_mark hmark words) (fun c hc => ?_) line
  rw [Text.before_append_of_forall h.plain, Text.before,
    List.takeWhile_cons_of_neg (by rw [hstops]; decide), List.append_nil] at hc
  exact h.isBlank c hc

end Blanks

/-- Blanks in front of the first sign of equality end the key, and blanks behind it are trimmed. -/
theorem readLine_spaced {left right : Text} (hbefore : byte '=' ∉ before) (hleft : Blanks left)
    (hright : Blanks right) (after : Text) :
    readLine (before ++ left ++ byte '=' :: (right ++ after)) =
      readLine (before ++ byte '=' :: after) := by
  have hunmarked : unmarked (before ++ left) = unmarked before ++ left :=
    unmarked_append (fun c hc =>
      notMem_mark_of_isBlank (hleft.isBlank c (List.mem_of_mem_head? hc))) before
  by_cases h : ∃ c ∈ unmarked before, startsComment c = true
  · have h' : ∃ c ∈ unmarked (before ++ left), startsComment c = true := by
      obtain ⟨c, hc, hcomment⟩ := h
      exact ⟨c, hunmarked ▸ List.mem_append_left left hc, hcomment⟩
    apply readLine_of_content
    rw [content_hidden h', content_hidden h, content_padded hleft]
  · have hplain : ∀ c ∈ unmarked before, startsComment c = false := by simpa using h
    have hplain' : ∀ c ∈ unmarked (before ++ left), startsComment c = false := by
      rw [hunmarked]
      exact List.forall_mem_append.mpr ⟨hplain, hleft.plain⟩
    have hkey : byte '=' ∉ before ++ left := by
      rw [List.mem_append, not_or]
      exact ⟨hbefore, fun hmem => absurd (hleft.isBlank _ hmem) (by decide)⟩
    refine readLine_of_assignment (assignment?_sides hbefore hplain after) ?_
    rw [assignment?_sides hkey hplain', hunmarked, Text.trim_append_blanks hleft.isBlank,
      Text.before_append_of_forall hright.plain, Text.trim_blanks_append hright.isBlank]

/-- A line that is laid out anew says the same. -/
theorem readLine_relaid (h : Relaid line line') : readLine line' = readLine line := by
  cases h with
  | padded line hblanks => exact readLine_of_content (content_padded hblanks line)
  | @commented line _ words sign hblanks hsign hwords =>
    exact readLine_of_content (content_commented hblanks hsign line words)
  | spaced hbefore hleft hright after => exact readLine_spaced hbefore hleft hright after
  | @recased before before' hbefore hcase after =>
    have hlower := Text.lower_of_sameLetter hcase
    have hbefore' : byte '=' ∉ before' := by
      rwa [← Text.mem_lower_iff (by decide), hlower, Text.mem_lower_iff (by decide)]
    rw [← readLine_lower hbefore', hlower, readLine_lower hbefore]

/-- It stays on its line. -/
theorem Relaid.newline_notMem (h : Relaid line line') (hline : newline ∉ line) :
    newline ∉ line' := by
  have hsign : newline ≠ byte '=' := by decide
  cases h with
  | padded line hblanks =>
    simpa only [List.mem_append, not_or] using ⟨hline, hblanks.newline_notMem⟩
  | @commented line _ words sign hblanks hsign hwords =>
    have hne : newline ≠ sign := by rcases hsign with rfl | rfl <;> decide
    simpa only [List.mem_append, List.mem_cons, not_or] using
      ⟨hline, hblanks.newline_notMem, hne, hwords⟩
  | spaced hbefore hleft hright after =>
    simp only [List.mem_append, List.mem_cons, not_or] at hline ⊢
    exact ⟨⟨hline.1, hleft.newline_notMem⟩, hsign, hright.newline_notMem, hline.2.2⟩
  | @recased before before' hbefore hcase after =>
    simp only [List.mem_append, List.mem_cons, not_or] at hline ⊢
    refine ⟨?_, hline.2⟩
    rw [← Text.mem_lower_iff (by decide), Text.lower_of_sameLetter hcase,
      Text.mem_lower_iff (by decide)]
    exact hline.1

/-! ## Changes of a file -/

theorem readLines_eq (file : Text) : readLines file =
    (((Text.lines file).map readLine).zipIdx 1).filterMap fun (outcome?, number) =>
      outcome?.map fun outcome => (number, outcome) := by
  rw [readLines, List.zipIdx_map, List.filterMap_map]
  rfl

theorem readLines_congr {file file' : Text}
    (h : (Text.lines file').map readLine = (Text.lines file).map readLine) :
    readLines file' = readLines file := by
  rw [readLines_eq, readLines_eq, h]

/-- Whether the last line is ended does not matter. -/
theorem readLines_ended (file : Text) : readLines (file ++ [newline]) = readLines file := by
  have hblank : readLine [] = none := rfl
  rcases Text.lines_ended file with hlines | hlines
  · exact readLines_congr (congrArg (List.map readLine) hlines)
  · rw [readLines_eq, readLines_eq, hlines, List.map_append, List.zipIdx_append,
      List.filterMap_append, List.map_cons, hblank]
    exact List.append_nil _

/-- A file is known by what its lines say. -/
theorem loadFrom_congr {file file' : Text} (h : readLines file' = readLines file) (path : Text)
    (a : Template) : loadFrom path (some file') a = loadFrom path (some file) a := by
  have haccepted : accepted file' = accepted file := by rw [accepted, h, accepted]
  have hlisted : listed file' = listed file := by rw [listed, rejected, h, ← rejected, ← listed]
  have hload : load file' a = load file a := by rw [load, haccepted, load]
  have hcomplaints : complaints file' = complaints file := by rw [complaints, hlisted, complaints]
  exact congrArg₂ (Loading.mk true) hload hcomplaints

/-- One line of a file is laid out anew, or all lines are ended in another way. -/
inductive Relayout : Text → Text → Prop
  | line {front line line' back : Text} (hfront : front = [] ∨ front.getLast? = some newline)
      (hline : newline ∉ line) (h : Relaid line line')
      (hback : back = [] ∨ back.head? = some newline) :
      Relayout (front ++ (line ++ back)) (front ++ (line' ++ back))
  | crlf (file : Text) : Relayout file (Text.crlf file)

/-- A line between two others, or at an end of the file. -/
theorem lines_between {front back : Text} (hfront : front = [] ∨ front.getLast? = some newline)
    (hline : newline ∉ line) (hback : back = [] ∨ back.head? = some newline) :
    Text.lines (front ++ (line ++ back) ++ [newline]) =
      Text.lines front ++ line :: Text.lines (back ++ [newline]).tail := by
  have hended : back ++ [newline] = newline :: (back ++ [newline]).tail := by
    rcases hback with rfl | hback
    · rfl
    · obtain ⟨more, rfl⟩ := List.head?_eq_some_iff.mp hback
      rfl
  rw [List.append_assoc, List.append_assoc, hended, ← Text.lines_row hline]
  rcases hfront with rfl | hfront
  · rfl
  · exact Text.lines_append_of_ended hfront _

theorem readLines_crlf (file : Text) : readLines (Text.crlf file) = readLines file := by
  have hreturn : Blanks [byte '\r'] := by decide
  have hrow : ∀ row row', row' = row ∨ row' = row ++ [byte '\r'] →
      readLine row' = readLine row := by
    rintro row row' (rfl | rfl)
    · rfl
    · exact readLine_of_content (content_padded hreturn row)
  refine readLines_congr ?_
  rw [← List.forall₂_eq_eq_eq, List.forall₂_map_left_iff, List.forall₂_map_right_iff]
  exact ((Text.lines_crlf file).imp hrow).flip

/-- After one change a file says the same. -/
theorem readLines_relayout {file file' : Text} (h : Relayout file file') :
    readLines file' = readLines file := by
  cases h with
  | @line front line line' back hfront hline h hback =>
    rw [← readLines_ended, ← readLines_ended (front ++ (line ++ back))]
    refine readLines_congr ?_
    rw [lines_between hfront (h.newline_notMem hline) hback, lines_between hfront hline hback]
    simp only [List.map_append, List.map_cons, readLine_relaid h]
  | crlf => exact readLines_crlf file

/-- However a file is laid out, loading it comes to the same: the same answer, the same template and
the same messages. -/
theorem load_relayout {file file' : Text} (h : Relation.ReflTransGen Relayout file file')
    (path : Text) (a : Template) :
    loadFrom path (some file') a = loadFrom path (some file) a := by
  induction h with
  | refl => rfl
  | tail _ hstep ih => rw [loadFrom_congr (readLines_relayout hstep), ih]

/-- Another case of the first key, blanks around a sign of equality, a comment behind a value that
is no number, and other ends of the lines. -/
theorem load_relayout_commented :
    let file : Text := "theme=cave\nwidth=wide\n"
    let file' : Text := "THEME=cave\r\nwidth\t= wide ; not yet\r\n"
    let loaded := loadFrom "area.ini" (some file) {}
    Relation.ReflTransGen Relayout file file' ∧
      loadFrom "area.ini" (some file') {} = loaded ∧ loaded.opened = true ∧
      loaded.template.theme = .cave ∧ loaded.messages = "Line 2: Invalid int for width\n" := by
  intro file file' loaded
  have hkey : Relaid "theme=cave" "THEME=cave" :=
    @Relaid.recased "theme" "THEME" (by decide) (by decide) "cave"
  have hequality : Relaid "width=wide" "width\t= wide" :=
    @Relaid.spaced "width" "\t" " " (by decide) (by decide) (by decide) "wide"
  have hcomment : Relaid "width\t= wide" "width\t= wide ; not yet" :=
    @Relaid.commented "width\t= wide" " " " not yet" (byte ';') (by decide) (.inr rfl) (by decide)
  have hrecased : Relayout file "THEME=cave\nwidth=wide\n" :=
    @Relayout.line [] _ _ "\nwidth=wide\n" (.inl rfl) (by decide) hkey (.inr rfl)
  have hspaced : Relayout "THEME=cave\nwidth=wide\n" "THEME=cave\nwidth\t= wide\n" :=
    @Relayout.line "THEME=cave\n" _ _ "\n" (.inr rfl) (by decide) hequality (.inr rfl)
  have hcommented : Relayout "THEME=cave\nwidth\t= wide\n"
      "THEME=cave\nwidth\t= wide ; not yet\n" :=
    @Relayout.line "THEME=cave\n" _ _ "\n" (.inr rfl) (by decide) hcomment (.inr rfl)
  have hreturned : Relayout "THEME=cave\nwidth\t= wide ; not yet\n" file' := .crlf _
  have hsteps : Relation.ReflTransGen Relayout file file' :=
    (((Relation.ReflTransGen.single hrecased).tail hspaced).tail hcommented).tail hreturned
  exact ⟨hsteps, load_relayout hsteps "area.ini" {}, rfl, by decide +kernel, by decide +kernel⟩

end Settings
end Dungeon
