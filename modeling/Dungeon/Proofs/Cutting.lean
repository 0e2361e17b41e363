import Mathlib.Data.List.DropRight
import Mathlib.Data.List.TakeWhile
import Dungeon.Text

/-!
# Cutting texts

What is left of a text when it is cut at a mark or behind a class of bytes, and when the blanks at
its ends are cut off.

Results:
1. `Text.takeWhile_stop`, `Text.dropWhile_stop`: a class of bytes lasts up to the first byte outside
   it.
2. `Text.before_append_of_mem`, `Text.before_append_of_forall`: what stands behind a text counts if
   nothing stops before.
3. `Text.splitAt?_append`, `Text.splitAt?_eq_none_iff`: a text is cut at the first mark, if it has
   one.
4. `Text.trim_append`, `Text.trim_rdropWhile`: blanks at the ends do not matter, and others stay.
5. `Text.trim_around`: around a byte that is no blank each side is trimmed at its far end.
6. `Text.head?_trim`, `Text.getLast?_trim`: no blank is left at an end.
7. `Text.isCore_iff`: a trimmed text is what stands between the blanks.
-/

namespace Dungeon.Text

/-! ## Classes of bytes -/

section Stop

variable {p : UInt8 → Bool} {t rest : Text}

/-- A class of bytes lasts up to the first byte outside it. -/
theorem takeWhile_stop (h : ∀ c ∈ t, p c = true) (hrest : ∀ c ∈ rest.head?, p c = false) :
    (t ++ rest).takeWhile p = t := by
  rw [List.takeWhile_append_of_pos h]
  cases rest with
  | nil => exact List.append_nil t
  | cons c rest =>
    rw [List.takeWhile_cons_of_neg (ne_true_of_eq_false (hrest c rfl)), List.append_nil]

theorem dropWhile_stop (h : ∀ c ∈ t, p c = true) (hrest : ∀ c ∈ rest.head?, p c = false) :
    (t ++ rest).dropWhile p = rest := by
  rw [List.dropWhile_append_of_pos h]
  cases rest with
  | nil => rfl
  | cons c rest => exact List.dropWhile_cons_of_neg (ne_true_of_eq_false (hrest c rfl))

end Stop

section Before

variable {stop : UInt8 → Bool} {t : Text}

/-- Nothing behind the first byte of the class counts. -/
theorem before_append_of_mem (h : ∃ c ∈ t, stop c = true) (u : Text) :
    before stop (t ++ u) = before stop t := by
  unfold before
  rw [List.takeWhile_append, if_neg]
  intro hlength
  obtain ⟨c, hc, hstop⟩ := h
  rw [← (List.takeWhile_prefix _).eq_of_length hlength] at hc
  have hgo := List.mem_takeWhile_imp hc
  rw [hstop] at hgo
  cases hgo

theorem before_of_forall (h : ∀ c ∈ t, stop c = false) : before stop t = t :=
  List.takeWhile_eq_self_iff.mpr fun c hc => by rw [h c hc]; rfl

theorem before_append_of_forall (h : ∀ c ∈ t, stop c = false) (u : Text) :
    before stop (t ++ u) = t ++ before stop u :=
  List.takeWhile_append_of_pos fun c hc => by rw [h c hc]; rfl

end Before

/-! ## Marks -/

section Mark

variable {mark : UInt8} {t before after : Text}

theorem splitAt?_append (h : mark ∉ t) (rest : Text) :
    splitAt? mark (t ++ mark :: rest) = some (t, rest) := by
  have hall : ∀ c ∈ t, (c != mark) = true := fun c hc => bne_iff_ne.mpr fun heq => h (heq ▸ hc)
  have hstop : ∀ c ∈ (mark :: rest).head?, (c != mark) = false := by
    rintro c ⟨⟩
    exact bne_self_eq_false mark
  rw [splitAt?, dropWhile_stop hall hstop, takeWhile_stop hall hstop]

theorem eq_of_splitAt? (h : splitAt? mark t = some (before, after)) :
    t = before ++ mark :: after := by
  rw [splitAt?] at h
  split at h
  · cases h
  · next c rest hdrop =>
    cases h
    have hc : c = mark := by
      have hhead := List.head?_dropWhile_not (· != mark) t
      rw [hdrop] at hhead
      simpa using hhead
    rw [hc] at hdrop
    rw [← hdrop, List.takeWhile_append_dropWhile]

theorem notMem_of_splitAt? (h : splitAt? mark t = some (before, after)) : mark ∉ before := by
  rw [splitAt?] at h
  split at h
  · cases h
  · cases h
    exact fun hmem => absurd (List.mem_takeWhile_imp hmem) (by simp)

theorem splitAt?_eq_none_iff : splitAt? mark t = none ↔ mark ∉ t := by
  constructor
  · intro hnone hmem
    obtain ⟨before, after, rfl, hbefore⟩ := List.eq_append_cons_of_mem hmem
    rw [splitAt?_append hbefore] at hnone
    cases hnone
  · intro hmark
    rw [Option.eq_none_iff_forall_ne_some]
    rintro ⟨before, after⟩ hsome
    exact hmark (eq_of_splitAt? hsome ▸ List.mem_append_right before List.mem_cons_self)

theorem splitAt?_subset (h : splitAt? mark t = some (before, after)) :
    before ⊆ t ∧ after ⊆ t := by
  rw [eq_of_splitAt? h]
  exact ⟨List.subset_append_left _ _,
    List.subset_append_of_subset_right _ (List.subset_cons_self _ _)⟩

theorem after?_eq_some_iff {front rest : Text} :
    after? front t = some rest ↔ t = front ++ rest := by
  induction front generalizing t with
  | nil => rw [after?, Option.some.injEq, List.nil_append]
  | cons c front ih =>
    cases t with
    | nil => exact iff_of_false (Option.some_ne_none rest).symm (List.cons_ne_nil c _).symm
    | cons d t =>
      rw [after?, Option.ite_none_right_eq_some, ih, List.cons_append, List.cons.injEq]
      exact and_congr_left' eq_comm

theorem after?_subset {front rest : Text} (h : after? front t = some rest) : rest ⊆ t := by
  rw [after?_eq_some_iff.mp h]
  exact List.subset_append_right front rest

/-- What stands behind a text does not matter to its start, if it cannot be part of that. -/
theorem after?_append {front rest : Text} (h : ∀ c ∈ rest.head?, c ∉ front) (t : Text) :
    after? front (t ++ rest) = (after? front t).map (· ++ rest) := by
  induction front generalizing t with
  | nil => rfl
  | cons c front ih =>
    cases t with
    | nil =>
      cases rest with
      | nil => rfl
      | cons d rest =>
        have hne : c ≠ d := fun heq => h d rfl (heq ▸ List.mem_cons_self)
        exact if_neg hne
    | cons d t =>
      rw [List.cons_append, after?, after?,
        ih fun e he hmem => h e he (List.mem_cons_of_mem c hmem)]
      split <;> rfl

end Mark

/-! ## Blanks at the ends -/

theorem trim_eq (t : Text) : trim t = (t.dropWhile isBlank).rdropWhile isBlank := rfl

theorem trim_subset (t : Text) : trim t ⊆ t := fun _ hc =>
  List.dropWhile_subset _ ((List.rdropWhile_prefix isBlank _).subset hc)

theorem head?_trim (t : Text) : ∀ c ∈ (trim t).head?, isBlank c = false := by
  intro c hc
  obtain ⟨rest, hrest⟩ := List.rdropWhile_prefix isBlank (t.dropWhile isBlank)
  have hhead := List.head?_dropWhile_not isBlank t
  rw [← hrest, ← trim_eq, List.head?_append, hc] at hhead
  simpa using hhead

theorem getLast?_trim (t : Text) : ∀ c ∈ (trim t).getLast?, isBlank c = false := by
  intro c hc
  obtain ⟨hne, rfl⟩ := List.mem_getLast?_eq_getLast hc
  exact eq_false_of_ne_true (List.rdropWhile_last_not isBlank _ hne)

/-- A text without blanks at its ends stays as it is. -/
theorem trim_eq_self {t : Text} (hhead : ∀ c ∈ t.head?, isBlank c = false)
    (hlast : ∀ c ∈ t.getLast?, isBlank c = false) : trim t = t := by
  have hdrop : t.dropWhile isBlank = t := dropWhile_stop (t := []) (by simp) hhead
  rw [trim_eq, hdrop, List.rdropWhile_eq_self_iff]
  intro hne
  exact ne_true_of_eq_false (hlast _ (List.getLast_mem_getLast? hne))

theorem trim_cons {c : UInt8} (hc : isBlank c = true) (t : Text) : trim (c :: t) = trim t := by
  rw [trim_eq, List.dropWhile_cons_of_pos hc, trim_eq]

theorem trim_concat {c : UInt8} (hc : isBlank c = true) (t : Text) : trim (t ++ [c]) = trim t := by
  rw [trim_eq, trim_eq, List.dropWhile_append]
  split
  · next hempty =>
    rw [List.isEmpty_iff.mp hempty, List.dropWhile_cons_of_pos hc]
    rfl
  · exact List.rdropWhile_concat_pos isBlank _ c hc

/-- Blanks cut off beforehand do not matter. -/
theorem trim_rdropWhile (t : Text) : trim (t.rdropWhile isBlank) = trim t := by
  induction t using List.reverseRecOn with
  | nil => rfl
  | append_singleton t c ih =>
    by_cases hc : isBlank c = true
    · rw [List.rdropWhile_concat_pos isBlank t c hc, trim_concat hc, ih]
    · rw [List.rdropWhile_concat_neg isBlank t c hc]

theorem trim_dropWhile (t : Text) : trim (t.dropWhile isBlank) = trim t := by
  rw [trim_eq, List.dropWhile_idempotent, trim_eq]

theorem trim_append_blanks {blanks : Text} (h : ∀ c ∈ blanks, isBlank c = true) (t : Text) :
    trim (t ++ blanks) = trim t := by
  induction blanks using List.reverseRecOn with
  | nil => rw [List.append_nil]
  | append_singleton blanks c ih =>
    rw [← List.append_assoc, trim_concat (h c (by simp)),
      ih fun d hd => h d (List.mem_append_left _ hd)]

theorem trim_blanks_append {blanks : Text} (h : ∀ c ∈ blanks, isBlank c = true) (t : Text) :
    trim (blanks ++ t) = trim t := by
  rw [trim_eq, List.dropWhile_append_of_pos h, trim_eq]

/-- A space, or one of the control characters from the tabulator to the carriage return. -/
def IsSpace (c : UInt8) : Prop := c = 32 ∨ 9 ≤ c ∧ c ≤ 13

theorem isBlank_iff {c : UInt8} : isBlank c = true ↔ IsSpace c := by
  rw [isBlank, Bool.or_eq_true, Bool.and_eq_true, beq_iff_eq, decide_eq_true_eq, decide_eq_true_eq,
    IsSpace]

/-- The text is the core between blanks, and has no more blanks at its ends. -/
structure IsCore (core t : Text) : Prop where
  between : ∃ front back, t = front ++ core ++ back ∧ ∀ c ∈ front ++ back, IsSpace c
  head : ∀ c ∈ core.head?, ¬ IsSpace c
  last : ∀ c ∈ core.getLast?, ¬ IsSpace c

theorem isCore_iff {core t : Text} : IsCore core t ↔ core = trim t := by
  constructor
  · rintro ⟨⟨front, back, rfl, hblank⟩, hhead, hlast⟩
    simp only [← isBlank_iff, Bool.not_eq_true] at hblank hhead hlast
    obtain ⟨hfront, hback⟩ := List.forall_mem_append.mp hblank
    rw [trim_append_blanks hback, trim_blanks_append hfront, trim_eq_self hhead hlast]
  · rintro rfl
    constructor
    case between =>
      refine ⟨t.takeWhile isBlank, (t.dropWhile isBlank).rtakeWhile isBlank, ?_, fun c hc => ?_⟩
      · rw [List.append_assoc, trim_eq, List.rdropWhile, List.rtakeWhile, ← List.reverse_append,
          List.takeWhile_append_dropWhile, List.reverse_reverse, List.takeWhile_append_dropWhile]
      · exact isBlank_iff.mp
          ((List.mem_append.mp hc).elim List.mem_takeWhile_imp List.mem_rtakeWhile_imp)
    case head =>
      simp only [← isBlank_iff, Bool.not_eq_true]
      exact head?_trim t
    case last =>
      simp only [← isBlank_iff, Bool.not_eq_true]
      exact getLast?_trim t

/-- What stands behind a text without blanks at its ends only loses its own last blanks. -/
theorem trim_append {s : Text} (hs : s ≠ []) (hhead : ∀ c ∈ s.head?, isBlank c = false)
    (hlast : ∀ c ∈ s.getLast?, isBlank c = false) (t : Text) :
    trim (s ++ t) = s ++ t.rdropWhile isBlank := by
  have hfront : ∀ t, ∀ c ∈ (s ++ t).head?, isBlank c = false := fun t => by
    rw [List.head?_append_of_ne_nil s hs]
    exact hhead
  induction t using List.reverseRecOn with
  | nil =>
    rw [List.append_nil, trim_eq_self hhead hlast]
    exact (List.append_nil s).symm
  | append_singleton t c ih =>
    rw [← List.append_assoc]
    by_cases hc : isBlank c = true
    · rw [trim_concat hc, ih, List.rdropWhile_concat_pos isBlank t c hc]
    · rw [List.rdropWhile_concat_neg isBlank t c hc, ← List.append_assoc]
      refine trim_eq_self (List.append_assoc s t [c] ▸ hfront _) fun d hd => ?_
      rw [List.getLast?_concat, Option.mem_some_iff] at hd
      exact hd ▸ eq_false_of_ne_true hc

/-- Around a byte that is no blank only the blanks at the two far ends are cut off. -/
theorem trim_around {c : UInt8} (hc : isBlank c = false) (s t : Text) :
    trim (s ++ c :: t) = s.dropWhile isBlank ++ c :: t.rdropWhile isBlank := by
  have hdrop : (s ++ c :: t).dropWhile isBlank = (s.dropWhile isBlank ++ [c]) ++ t := by
    rw [List.dropWhile_append, List.append_assoc, List.singleton_append]
    split
    · next hempty =>
      rw [List.isEmpty_iff.mp hempty, List.dropWhile_cons_of_neg (ne_true_of_eq_false hc)]
      rfl
    · rfl
  have hhead : ∀ d ∈ (s.dropWhile isBlank ++ [c]).head?, isBlank d = false := by
    intro d hd
    have hfirst := List.head?_dropWhile_not isBlank s
    cases hs : s.dropWhile isBlank with
    | nil =>
      rw [hs] at hd
      cases hd
      exact hc
    | cons e rest =>
      rw [hs] at hd hfirst
      cases hd
      simpa using hfirst
  have hlast : ∀ d ∈ (s.dropWhile isBlank ++ [c]).getLast?, isBlank d = false := by
    intro d hd
    rw [List.getLast?_concat, Option.mem_some_iff] at hd
    exact hd ▸ hc
  rw [← trim_dropWhile, hdrop, trim_append (by simp) hhead hlast, List.append_assoc,
    List.singleton_append]

end Dungeon.Text
