import Mathlib.Data.List.Forall2
import Dungeon.Proofs.Cutting
import Dungeon.Proofs.Decimal
import Dungeon.Proofs.Settings

/-!
# Complaints

What is said about a settings file is a list of lines: one for each rejected line of the file, up to
a limit, and one that stands for the rest. A line is rejected for what it is and not for where it
stands, and the key alone decides in which of the three groups it is listed.

The complaints quote what the file says. That does not disturb them, since a line of the file has no
newline to quote.

What a line says is described by how the line is put together again: a mark, blanks, what is left,
blanks, a comment.

Results:
1. `Settings.leaves_iff`, `Settings.assigns_iff`: the loader reads what the line says.
2. `Settings.isRejected_iff`: the rejected lines are those with a fault.
3. `Settings.groupOf_eq_form_iff`, `Settings.groupOf_eq_theme_iff`: the first two groups, by what a
   line leaves.
4. `Settings.kind_of_fault?`: the fault is listed in the group of the line.
5. `Settings.newline_notMem_message`: the message about a fault is on one line.
6. `Settings.complaints_exact`: every rejected line is listed once, and nothing else is.
-/

namespace Dungeon

namespace Text

theorem newline_notMem_lower {t : Text} (h : newline ∉ t) : newline ∉ lower t := by
  intro hmem
  obtain ⟨c, hc, heq⟩ := List.mem_map.mp hmem
  unfold lowerByte at heq
  split at heq
  · next hupper =>
    -- No upper-case letter has the newline as its lower-case one.
    have hbyte : c = newline - 32 := UInt8.eq_sub_iff_add_eq.mpr heq
    subst hbyte
    cases hupper
  · exact h (heq ▸ hc)

theorem newline_notMem_ofNat (n : Nat) : newline ∉ ofNat n := fun h => by
  have hdigit := isDigit_of_mem_ofNat n newline h
  cases hdigit

end Text

namespace Settings

open Text (byte newline)
open Template (Part)

variable {line : Text} {fault : LineFault}

/-! ## What a line says -/

/-- The line is a text behind the mark of an editor, if it starts with one, and before a comment, if
it has one. -/
def Holds (line t : Text) : Prop :=
  ∃ front comment, line = front ++ t ++ comment ∧
    (front = [0xEF, 0xBB, 0xBF] ∨ front = [] ∧ ¬ [0xEF, 0xBB, 0xBF] <+: line) ∧
    (∀ c ∈ t, c ≠ byte '#' ∧ c ≠ byte ';') ∧ ∀ c ∈ comment.head?, c = byte '#' ∨ c = byte ';'

/-- The rest is what the line holds, without the blanks around it. -/
def Leaves (line rest : Text) : Prop := ∃ t, Holds line t ∧ Text.IsCore rest t

/-- The rest has a key and a value on the two sides of its first equality sign. They come without
the blanks around them, and the key in lower case. -/
def Assigns (rest key value : Text) : Prop :=
  ∃ left right name, rest = left ++ byte '=' :: right ∧ byte '=' ∉ left ∧ Text.IsCore name left ∧
    key = Text.lower name ∧ Text.IsCore value right

theorem startsComment_eq_false_iff {c : UInt8} :
    startsComment c = false ↔ c ≠ byte '#' ∧ c ≠ byte ';' := by
  rw [startsComment, Bool.or_eq_false_iff, beq_eq_false_iff_ne, beq_eq_false_iff_ne]

theorem startsComment_eq_true_iff {c : UInt8} :
    startsComment c = true ↔ c = byte '#' ∨ c = byte ';' := by
  rw [startsComment, Bool.or_eq_true, beq_iff_eq, beq_iff_eq]

theorem before_startsComment_eq_iff {t plain : Text} : t = Text.before startsComment plain ↔
    ∃ comment, plain = t ++ comment ∧ (∀ c ∈ t, c ≠ byte '#' ∧ c ≠ byte ';') ∧
      ∀ c ∈ comment.head?, c = byte '#' ∨ c = byte ';' := by
  simp only [← startsComment_eq_false_iff, ← startsComment_eq_true_iff]
  constructor
  · rintro rfl
    refine ⟨plain.dropWhile fun c => !startsComment c, List.takeWhile_append_dropWhile.symm,
      fun c hc => ?_, fun c hc => ?_⟩
    · simpa using List.mem_takeWhile_imp hc
    · have hstop := List.head?_dropWhile_not (fun c => !startsComment c) plain
      rw [Option.mem_def.mp hc] at hstop
      simpa using hstop
  · rintro ⟨comment, rfl, hall, hstop⟩
    refine (Text.takeWhile_stop (fun c hc => ?_) fun c hc => ?_).symm
    · rw [hall c hc]
      rfl
    · rw [hstop c hc]
      rfl

theorem holds_iff {t : Text} :
    Holds line t ↔ t = Text.before startsComment ((Text.after? mark line).getD line) := by
  rw [before_startsComment_eq_iff, Holds, show [0xEF, 0xBB, 0xBF] = mark from rfl]
  cases hafter : Text.after? mark line with
  | some plain =>
    obtain rfl := Text.after?_eq_some_iff.mp hafter
    rw [Option.getD_some]
    constructor
    · rintro ⟨front, comment, hline, rfl | ⟨_, hnone⟩, hends⟩
      · rw [List.append_assoc, List.append_cancel_left_eq] at hline
        exact ⟨comment, hline, hends⟩
      · exact absurd (List.prefix_append mark plain) hnone
    · rintro ⟨comment, rfl, hends⟩
      exact ⟨mark, comment, (List.append_assoc _ _ _).symm, .inl rfl, hends⟩
  | none =>
    have hnone : ∀ plain, line ≠ mark ++ plain := fun plain hline => by
      rw [Text.after?_eq_some_iff.mpr hline] at hafter
      cases hafter
    rw [Option.getD_none]
    constructor
    · rintro ⟨front, comment, hline, rfl | ⟨rfl, _⟩, hends⟩
      · exact absurd (hline.trans (List.append_assoc _ _ _)) (hnone _)
      · exact ⟨comment, hline, hends⟩
    · rintro ⟨comment, hline, hends⟩
      exact ⟨[], comment, hline, .inr ⟨rfl, fun ⟨plain, hplain⟩ => hnone plain hplain.symm⟩, hends⟩

theorem leaves_iff {rest : Text} : Leaves line rest ↔ rest = content line := by
  simp only [Leaves, holds_iff, exists_eq_left, Text.isCore_iff]
  rfl

theorem assigns_iff {key value : Text} :
    Assigns (content line) key value ↔ assignment? line = some (key, value) := by
  rw [assignment?, Option.map_eq_some_iff]
  simp only [Assigns, Text.isCore_iff]
  constructor
  · rintro ⟨left, right, _, hline, hleft, rfl, rfl, rfl⟩
    exact ⟨(left, right), hline ▸ Text.splitAt?_append hleft right, rfl⟩
  · rintro ⟨⟨left, right⟩, hsplit, hpair⟩
    cases hpair
    exact ⟨left, right, _, Text.eq_of_splitAt? hsplit, Text.notMem_of_splitAt? hsplit, rfl, rfl,
      rfl⟩

theorem assignment?_eq_none_iff : assignment? line = none ↔ byte '=' ∉ content line := by
  rw [assignment?, Option.map_eq_none_iff, Text.splitAt?_eq_none_iff]

/-! ## Rejected lines -/

/-- The line leaves something, and that does not set anything: it has no equality sign, its key is
empty or that of no part, or its value is not acceptable for the part. -/
def IsRejected (line : Text) : Prop :=
  ∃ rest, Leaves line rest ∧ rest ≠ [] ∧ (byte '=' ∉ rest ∨
    ∃ key value, Assigns rest key value ∧
      (key = [] ∨ ∀ part : Part, part.key = key → part.read? value = none))

theorem isRejected_iff_content (line : Text) : IsRejected line ↔
    content line ≠ [] ∧ (byte '=' ∉ content line ∨
      ∃ key value, assignment? line = some (key, value) ∧
        (key = [] ∨ ∀ part : Part, part.key = key → part.read? value = none)) := by
  simp only [IsRejected, leaves_iff, exists_eq_left, assigns_iff]

/-- The group in which the line would be listed. -/
def groupOf (line : Text) : LineFault.Kind :=
  match assignment? line with
  | none => .form
  | some (key, _) => if key = [] then .form else if key = Part.theme.key then .theme else .value

theorem groupOf_of_none (h : assignment? line = none) : groupOf line = .form := by
  rw [groupOf, h]

theorem groupOf_of_some {key value : Text} (h : assignment? line = some (key, value)) :
    groupOf line =
      if key = [] then .form else if key = Part.theme.key then .theme else .value := by
  rw [groupOf, h]

/-- A line is listed as one without a key and a value if it has no equality sign or an empty key. -/
theorem groupOf_eq_form_iff {rest : Text} (h : Leaves line rest) :
    groupOf line = .form ↔ byte '=' ∉ rest ∨ ∃ value, Assigns rest [] value := by
  obtain rfl := leaves_iff.mp h
  simp only [assigns_iff, ← assignment?_eq_none_iff]
  cases hassignment : assignment? line with
  | none => simp [groupOf_of_none hassignment]
  | some pair =>
    rw [groupOf_of_some hassignment]
    by_cases hkey : pair.1 = []
    · simp [hkey, Prod.ext_iff]
    · by_cases htheme : pair.1 = Part.theme.key <;> simp [hkey, htheme, Prod.ext_iff]

theorem groupOf_eq_theme_iff {rest : Text} (h : Leaves line rest) :
    groupOf line = .theme ↔ ∃ value, Assigns rest (Text.lit "theme") value := by
  obtain rfl := leaves_iff.mp h
  have hne : Text.lit "theme" ≠ [] := by decide
  have htheme : Part.theme.key = Text.lit "theme" := rfl
  simp only [assigns_iff]
  cases hassignment : assignment? line with
  | none => simp [groupOf_of_none hassignment]
  | some pair =>
    rw [groupOf_of_some hassignment, htheme]
    by_cases hkey : pair.1 = []
    · simp [hkey, hne.symm, Prod.ext_iff]
    · by_cases hname : pair.1 = Text.lit "theme" <;> simp [hkey, hname, hne, Prod.ext_iff]

/-- What is wrong with a line. -/
def fault? (line : Text) : Option LineFault :=
  match readLine line with
  | some (.error fault) => some fault
  | _ => none

theorem fault?_eq (line : Text) :
    fault? line = if content line = [] then none else
      match assignment? line with
      | none => some .noAssignment
      | some (key, value) => if key = [] then some .emptyKey else
          match assign key value with
          | .ok _ => none
          | .error fault => some fault := by
  rw [fault?, readLine_eq]
  by_cases hblank : content line = []
  · rw [if_pos hblank, if_pos hblank]
  · rw [if_neg hblank, if_neg hblank]
    cases assignment? line with
    | none => rfl
    | some pair =>
      dsimp only
      by_cases hkey : pair.1 = []
      · rw [if_pos hkey, if_pos hkey]
      · rw [if_neg hkey, if_neg hkey]
        cases assign pair.1 pair.2 <;> rfl

/-- An assignment is accepted if some part has the key and accepts the value. -/
theorem assign_toOption_eq_none_iff {key value : Text} :
    (assign key value).toOption = none ↔
      ∀ part : Part, part.key = key → part.read? value = none := by
  constructor
  · rintro h part rfl
    rw [assign_key, Option.map_eq_none_iff] at h
    exact h
  · intro h
    by_cases hknown : ∃ part : Part, part.key = key
    · obtain ⟨part, rfl⟩ := hknown
      rw [assign_key, h part rfl]
      rfl
    · exact assign_unknown (not_exists.mp hknown) value

theorem isRejected_iff (line : Text) : IsRejected line ↔ (fault? line).isSome = true := by
  rw [isRejected_iff_content, fault?_eq]
  by_cases hblank : content line = []
  · simp [hblank]
  · rw [if_neg hblank, and_iff_right hblank, ← assignment?_eq_none_iff]
    cases assignment? line with
    | none => simp
    | some pair =>
      obtain ⟨key, value⟩ := pair
      simp only [reduceCtorEq, false_or, Option.some.injEq, Prod.mk.injEq,
        ← assign_toOption_eq_none_iff]
      by_cases hkey : key = []
      · simp [hkey]
      · rw [if_neg hkey]
        cases hassign : assign key value with
        | ok setting => simp [hassign, Except.toOption, hkey]
        | error fault => simp [hassign, Except.toOption, hkey]

instance : DecidablePred IsRejected := fun line =>
  decidable_of_iff _ (isRejected_iff line).symm

/-! ## Faults -/

/-- A fault of an assignment is listed by its key, and quotes only the key and the value. -/
theorem of_assign_error {key value : Text} (h : assign key value = .error fault) :
    (fault.kind = if key = Part.theme.key then .theme else .value) ∧
      (newline ∉ key → newline ∉ value → newline ∉ fault.message) := by
  have hquote : ∀ (words : String) {t : Text}, newline ∉ Text.lit words → newline ∉ t →
      newline ∉ Text.lit words ++ t := fun words t hwords ht hmem =>
    (List.mem_append.mp hmem).elim hwords ht
  unfold assign at h
  split at h
  · next hkey =>
    split at h
    · cases h
    · cases h
      exact ⟨(if_pos hkey).symm, fun _ hvalue => hquote "Unknown theme: " (by decide) hvalue⟩
  · next hkey =>
    rw [if_neg (show key ≠ Part.theme.key from hkey)]
    split at h
    · split at h
      · cases h
        exact ⟨rfl, fun _ _ => by decide⟩
      · cases h
    · split at h
      · split at h
        · cases h
        · cases h
          exact ⟨rfl, fun _ hvalue => hquote "Unknown algorithm: " (by decide) hvalue⟩
      · split at h
        · split at h
          · cases h
          · cases h
            exact ⟨rfl, fun hkey _ => hquote "Invalid int for " (by decide) hkey⟩
        · split at h
          · cases h
          · cases h
            exact ⟨rfl, fun hkey _ => hquote "Invalid number for " (by decide) hkey⟩
        · cases h
          exact ⟨rfl, fun hkey _ => hquote "Unknown key: " (by decide) hkey⟩

/-- The ways in which a line can have a fault. -/
theorem fault?_cases (h : fault? line = some fault) :
    assignment? line = none ∧ fault = .noAssignment ∨
      (∃ value, assignment? line = some ([], value)) ∧ fault = .emptyKey ∨
      ∃ key value, assignment? line = some (key, value) ∧ key ≠ [] ∧
        assign key value = .error fault := by
  rw [fault?_eq, Option.ite_none_left_eq_some] at h
  obtain ⟨-, h⟩ := h
  cases hassignment : assignment? line with
  | none =>
    rw [hassignment] at h
    cases h
    exact .inl ⟨rfl, rfl⟩
  | some pair =>
    obtain ⟨key, value⟩ := pair
    rw [hassignment] at h
    dsimp only at h
    split at h
    · next hkey =>
      subst hkey
      cases h
      exact .inr (.inl ⟨⟨value, rfl⟩, rfl⟩)
    · next hkey =>
      split at h
      · cases h
      · next hassign =>
        cases h
        exact .inr (.inr ⟨key, value, rfl, hkey, hassign⟩)

theorem kind_of_fault? (h : fault? line = some fault) : fault.kind = groupOf line := by
  rcases fault?_cases h with
    ⟨hnone, rfl⟩ | ⟨⟨value, hempty⟩, rfl⟩ | ⟨key, value, hsome, hkey, herror⟩
  · rw [groupOf_of_none hnone]
    rfl
  · rw [groupOf_of_some hempty]
    rfl
  · rw [groupOf_of_some hsome, if_neg hkey]
    exact (of_assign_error herror).1

theorem content_subset (line : Text) : content line ⊆ line := by
  have hline : (Text.after? mark line).getD line ⊆ line := by
    cases hmark : Text.after? mark line with
    | none => exact List.Subset.refl line
    | some rest => exact Text.after?_subset hmark
  exact fun c hc => hline (List.takeWhile_subset _ (Text.trim_subset _ hc))

theorem newline_notMem_assignment (hline : newline ∉ line) {key value : Text}
    (h : assignment? line = some (key, value)) : newline ∉ key ∧ newline ∉ value := by
  rw [assignment?, Option.map_eq_some_iff] at h
  obtain ⟨⟨before, after⟩, hsplit, hpair⟩ := h
  cases hpair
  obtain ⟨hbefore, hafter⟩ := Text.splitAt?_subset hsplit
  have hcontent := content_subset line
  exact ⟨Text.newline_notMem_lower fun hmem =>
      hline (hcontent (hbefore (Text.trim_subset before hmem))),
    fun hmem => hline (hcontent (hafter (Text.trim_subset after hmem)))⟩

/-- What is said about a line is on one line. -/
theorem newline_notMem_message (hline : newline ∉ line) (h : fault? line = some fault) :
    newline ∉ fault.message := by
  rcases fault?_cases h with ⟨_, rfl⟩ | ⟨_, rfl⟩ | ⟨key, value, hsome, _, herror⟩
  · decide
  · decide
  · obtain ⟨hkey, hvalue⟩ := newline_notMem_assignment hline hsome
    exact (of_assign_error herror).2 hkey hvalue

/-! ## Lists of complaints -/

/-- The rejected lines with their numbers, in the order of the file. -/
def rejectedRows (file : Text) : List (Text × Nat) :=
  ((Text.lines file).zipIdx 1).filter fun row => IsRejected row.1

/-- The rejected lines with their numbers, group by group. -/
def listedRows (file : Text) : List (Text × Nat) :=
  let group (kind : LineFault.Kind) := (rejectedRows file).filter fun row => groupOf row.1 = kind
  group .form ++ group .theme ++ group .value

/-- The entry is about the line: it has its number, and the fault is that of the line. -/
def IsAbout (row : Text × Nat) (entry : Nat × LineFault) : Prop :=
  entry.1 = row.2 ∧ fault? row.1 = some entry.2

theorem rejected_eq (file : Text) : rejected file =
    ((Text.lines file).zipIdx 1).filterMap fun row => (fault? row.1).map (row.2, ·) := by
  rw [rejected, readLines, List.filterMap_filterMap]
  congr 1
  funext row
  obtain ⟨line, number⟩ := row
  unfold fault?
  dsimp only
  rcases readLine line with _ | (_ | _) <;> rfl

theorem rejected_isAbout (file : Text) :
    List.Forall₂ IsAbout (rejectedRows file) (rejected file) := by
  rw [rejectedRows, rejected_eq]
  induction (Text.lines file).zipIdx 1 with
  | nil => exact .nil
  | cons row rest ih =>
    cases hfault : fault? row.1 with
    | none =>
      have haccepted : ¬ IsRejected row.1 := by rw [isRejected_iff, hfault]; decide
      rw [List.filter_cons_of_neg (by simpa using haccepted), List.filterMap_cons, hfault]
      exact ih
    | some fault =>
      have hrejected : IsRejected row.1 := by rw [isRejected_iff, hfault]; rfl
      rw [List.filter_cons_of_pos (by simpa using hrejected), List.filterMap_cons, hfault]
      exact .cons ⟨rfl, hfault⟩ ih

/-- Sorting out a group of lines is sorting out a kind of complaint. -/
theorem listed_isAbout (file : Text) : List.Forall₂ IsAbout (listedRows file) (listed file) := by
  have hgroup : ∀ kind, List.Forall₂ IsAbout
      ((rejectedRows file).filter fun row => groupOf row.1 = kind)
      ((rejected file).filter fun entry => entry.2.kind = kind) := fun kind =>
    List.rel_filter (fun row entry habout => by
      simp only [decide_eq_true_eq, kind_of_fault? habout.2]) (rejected_isAbout file)
  exact List.rel_append (List.rel_append (hgroup .form) (hgroup .theme)) (hgroup .value)

/-- The three groups together are all rejected lines. -/
theorem listedRows_perm (file : Text) : (listedRows file).Perm (rejectedRows file) := by
  unfold listedRows
  induction rejectedRows file with
  | nil => exact .nil
  | cons row rest ih =>
    cases hgroup : groupOf row.1 with
    | form =>
      simp only [List.filter_cons, hgroup, decide_true, if_true, reduceCtorEq, decide_false,
        Bool.false_eq_true, if_false, List.cons_append]
      exact ih.cons row
    | theme =>
      simp only [List.filter_cons, hgroup, decide_true, if_true, reduceCtorEq, decide_false,
        Bool.false_eq_true, if_false]
      rw [List.append_assoc, List.cons_append]
      rw [List.append_assoc] at ih
      exact List.perm_middle.trans (ih.cons row)
    | value =>
      simp only [List.filter_cons, hgroup, decide_true, if_true, reduceCtorEq, decide_false,
        Bool.false_eq_true, if_false]
      exact List.perm_middle.trans (ih.cons row)

theorem length_listedRows (file : Text) :
    (listedRows file).length = (Text.lines file).countP fun line => IsRejected line := by
  calc (listedRows file).length = (rejectedRows file).length := (listedRows_perm file).length_eq
    _ = ((Text.lines file).zipIdx 1).countP fun row => IsRejected row.1 :=
      List.countP_eq_length_filter.symm
    _ = (((Text.lines file).zipIdx 1).map Prod.fst).countP fun line => IsRejected line := by
      rw [List.countP_map]
      rfl
    _ = (Text.lines file).countP fun line => IsRejected line := by rw [List.zipIdx_map_fst]

/-! ## What is said -/

/-- The line that stands for the complaints past the limit. -/
def omission : Text := "(more warnings omitted...)"

/-- What is said about one line, without the newline that ends it. -/
def remark (entry : Nat × LineFault) : Text :=
  "Line " ++ Text.ofNat entry.1 ++ ": " ++ entry.2.message

/-- All that is said about a file, line by line. -/
def remarks (file : Text) : List Text :=
  ((listed file).take complaintLimit).map remark ++
    if complaintLimit < (listed file).length then [omission] else []

theorem complaints_eq_unlines (file : Text) : complaints file = Text.unlines (remarks file) := by
  have hnotice : Text.lit (if complaintLimit < (listed file).length then
      "(more warnings omitted...)\n" else "") =
      Text.unlines (if complaintLimit < (listed file).length then [omission] else []) := by
    split <;> decide
  rw [complaints, hnotice, remarks, Text.unlines, Text.unlines, List.flatMap_append,
    List.flatMap_map]
  rfl

/-- A complaint is about one of the lines of the file. -/
theorem exists_line_of_mem_listed {file : Text} {entry : Nat × LineFault}
    (h : entry ∈ listed file) : ∃ line ∈ Text.lines file, fault? line = some entry.2 := by
  obtain ⟨i, hi, rfl⟩ := List.mem_iff_getElem.mp h
  obtain ⟨hlength, habout⟩ := List.forall₂_iff_get.mp (listed_isAbout file)
  have hrow : i < (listedRows file).length := hlength ▸ hi
  have hmem := (listedRows_perm file).mem_iff.mp (List.getElem_mem hrow)
  exact ⟨(listedRows file)[i].1, List.fst_mem_of_mem_zipIdx (List.mem_of_mem_filter hmem),
    (habout i hrow hi).2⟩

theorem newline_notMem_remarks (file : Text) : ∀ row ∈ remarks file, newline ∉ row := by
  intro row hrow
  rcases List.mem_append.mp hrow with hrow | hrow
  · obtain ⟨entry, hentry, rfl⟩ := List.mem_map.mp hrow
    obtain ⟨line, hline, hfault⟩ := exists_line_of_mem_listed (List.mem_of_mem_take hentry)
    have hmessage := newline_notMem_message (Text.newline_notMem_of_mem_lines hline) hfault
    have hwords : newline ∉ Text.lit "Line " ∧ newline ∉ Text.lit ": " := by decide
    simp only [remark, List.mem_append, not_or]
    exact ⟨⟨⟨hwords.1, Text.newline_notMem_ofNat entry.1⟩, hwords.2⟩, hmessage⟩
  · split at hrow
    · rw [List.mem_singleton.mp hrow]
      decide
    · cases hrow

theorem lines_complaints (file : Text) : Text.lines (complaints file) = remarks file := by
  rw [complaints_eq_unlines, Text.lines_unlines (newline_notMem_remarks file)]

theorem length_remarks (file : Text) :
    (remarks file).length = min (listed file).length (complaintLimit + 1) := by
  rw [remarks, List.length_append, List.length_map, List.length_take]
  split
  · rw [List.length_singleton]
    omega
  · rw [List.length_nil]
    omega

theorem getElem?_remarks {file : Text} {i : Nat} (h : i < min (listed file).length complaintLimit) :
    (remarks file)[i]? = (listed file)[i]?.map remark := by
  rw [remarks, List.getElem?_append_left (by rw [List.length_map, List.length_take]; omega),
    List.getElem?_map, List.getElem?_take_of_lt (by omega)]

theorem getElem?_remarks_limit {file : Text} (h : complaintLimit < (listed file).length) :
    (remarks file)[complaintLimit]? = some omission := by
  have hlength : (((listed file).take complaintLimit).map remark).length = complaintLimit := by
    rw [List.length_map, List.length_take]
    omega
  rw [remarks, if_pos h, List.getElem?_append_right hlength.le, hlength, Nat.sub_self]
  rfl

/-- A file that can be read is answered with one line for each rejected line, and past thirty of
them with one line for the rest. The lines are listed in three groups: those without a key and a
value or with an empty key, those that ask for an unknown theme, and all others; each group in the
order of the file. What the line leaves decides on its group. Each is named by its number in the
file, and the file has no say in where a line of the answer ends. -/
theorem complaints_exact (path file : Text) (a : Template) :
    let messages := (loadFrom path (some file) a).messages
    let entries := Text.lines messages
    let k := (Text.lines file).countP fun line => IsRejected line
    (listedRows file).Perm (rejectedRows file) ∧ (listedRows file).length = k ∧
      messages = Text.unlines entries ∧ entries.length = min k 31 ∧
      (∀ i < min k 30, ∃ line number fault, (listedRows file)[i]? = some (line, number) ∧
        fault? line = some fault ∧
        entries[i]? = some ("Line " ++ Text.ofNat number ++ ": " ++ fault.message)) ∧
      (30 < k → entries[30]? = some omission) ∧
      (messages = [] ↔ k = 0) ∧
      ∀ line rest, Leaves line rest →
        (groupOf line = .form ↔ byte '=' ∉ rest ∨ ∃ value, Assigns rest [] value) ∧
        (groupOf line = .theme ↔ ∃ value, Assigns rest (Text.lit "theme") value) := by
  intro messages entries k
  have hentries : entries = remarks file := lines_complaints file
  have hk : (listedRows file).length = k := length_listedRows file
  obtain ⟨hlength, habout⟩ := List.forall₂_iff_get.mp (listed_isAbout file)
  rw [hk] at hlength
  have hcount : entries.length = min k 31 := by rw [hentries, length_remarks, ← hlength]; rfl
  have hmessages : messages = Text.unlines entries := by
    rw [hentries]
    exact complaints_eq_unlines file
  refine ⟨listedRows_perm file, hk, hmessages, hcount, fun i hi => ?_, fun hmany => ?_, ?_,
    fun line rest hrest => ⟨groupOf_eq_form_iff hrest, groupOf_eq_theme_iff hrest⟩⟩
  · have hrow : i < (listedRows file).length := by omega
    have hentry : i < (listed file).length := by omega
    obtain ⟨hnumber, hfault⟩ := habout i hrow hentry
    refine ⟨_, _, _, List.getElem?_eq_getElem hrow, hfault, ?_⟩
    rw [hentries, getElem?_remarks (by rw [← hlength]; exact hi),
      List.getElem?_eq_getElem hentry, ← hnumber]
    rfl
  · rw [hentries]
    exact getElem?_remarks_limit (hlength ▸ hmany)
  · constructor
    · intro hnone
      have hzero : entries.length = 0 := by
        show (Text.lines messages).length = 0
        rw [hnone]
        rfl
      omega
    · intro hzero
      have hnone : entries = [] := List.eq_nil_of_length_eq_zero (by omega)
      rw [hmessages, hnone]
      rfl

/-- One complaint of each group, listed by group and not by line. -/
example : complaints (Text.lit "width = x\n= 3\ntheme = moon\nheight = 40\n") = Text.lit
    "Line 2: Empty key\nLine 3: Unknown theme: moon\nLine 1: Invalid int for width\n" := by
  decide +kernel

end Settings
end Dungeon
