import Dungeon.Proofs.Complaints
import Dungeon.Proofs.Numeral

/-!
# One line for a whole number

A settings file of one line that names a whole-number field either sets this field or is complained
about. It sets the field when the value, without the blanks around it, is a numeral of a number that
fits in 32 bits. Then the field has this very number, and nothing else has changed.

Results:
1. `Settings.assignment?_row`: the line of a key and a value is read as such.
2. `Settings.load_single`, `Settings.complaints_single`: what a file of one line does.
3. `Settings.load_intRow`: what the line of a whole-number field does, for every value.
-/

namespace Dungeon

open Text (byte newline)
open Template (Part)

/-- The byte means nothing in a line but itself, and it is no upper-case letter. -/
structure Settings.IsKeyByte (c : UInt8) : Prop where
  solid : Text.isBlank c = false
  plain : startsComment c = false
  sameLine : c ≠ newline
  sameSide : c ≠ byte '='
  lower : Text.lowerByte c = c
  unmarked : some c ≠ mark.head?

theorem Template.Part.isKeyByte (part : Part) : ∀ c ∈ part.key, Settings.IsKeyByte c := by
  have hall : part.key.all (fun c => !Text.isBlank c && !Settings.startsComment c && c != newline &&
      c != byte '=' && Text.lowerByte c == c && some c != Settings.mark.head?) = true := by
    cases part with
    | theme => decide
    | name => decide
    | algorithm => decide
    | int field => cases field <;> decide
    | number field => cases field <;> decide
  intro c hc
  have hc := List.all_eq_true.mp hall c hc
  simp only [Bool.and_eq_true, Bool.not_eq_true', bne_iff_ne, beq_iff_eq] at hc
  obtain ⟨⟨⟨⟨⟨hblank, hcomment⟩, hnewline⟩, hmark⟩, hlower⟩, hfront⟩ := hc
  exact ⟨hblank, hcomment, hnewline, hmark, hlower, hfront⟩

namespace Settings

/-! ## The line -/

/-- The line that assigns a value to a key. -/
def row (key value : Text) : Text := key ++ " = " ++ value

/-- The value stays on its line, and no comment cuts it off. -/
def IsPlain (value : Text) : Prop := ∀ c ∈ value, c ≠ newline ∧ startsComment c = false

instance (value : Text) : Decidable (IsPlain value) := List.decidableBAll _ value

variable {value : Text}

theorem isPlain_ofInt (n : Int) : IsPlain (Text.ofInt n) := by
  intro c hc
  rcases Text.isDigit_or_minus_of_mem_ofInt hc with hdigit | rfl
  · have hnone : ∀ d : UInt8, Text.isDigit d = false → c ≠ d := by
      rintro d hd rfl
      rw [hdigit] at hd
      cases hd
    refine ⟨hnone newline rfl, ?_⟩
    rw [startsComment, beq_eq_false_iff_ne.mpr (hnone (byte '#') rfl),
      beq_eq_false_iff_ne.mpr (hnone (byte ';') rfl), Bool.or_false]
  · decide

theorem row_isPlain (part : Part) (hvalue : IsPlain value) : IsPlain (row part.key value) := by
  intro c hc
  have hmiddle : IsPlain (Text.lit " = ") := by decide
  rcases List.mem_append.mp hc with hc | hc
  · rcases List.mem_append.mp hc with hc | hc
    · exact ⟨(part.isKeyByte c hc).sameLine, (part.isKeyByte c hc).plain⟩
    · exact hmiddle c hc
  · exact hvalue c hc

theorem row_ne_nil (part : Part) (value : Text) : row part.key value ≠ [] := by
  rw [row, List.append_assoc]
  exact List.append_ne_nil_of_left_ne_nil part.key_ne_nil _

theorem after?_mark_row (part : Part) (value : Text) :
    Text.after? mark (row part.key value) = none := by
  obtain ⟨c, rest, hkey⟩ := List.exists_cons_of_ne_nil part.key_ne_nil
  have hc : IsKeyByte c := part.isKeyByte c (hkey ▸ List.mem_cons_self)
  rw [row, hkey, mark]
  exact if_neg fun heq => hc.unmarked (congrArg some heq.symm)

/-- The key and the sign of equality have no blank at an end, so that only the end of the value is
trimmed. -/
theorem content_row (part : Part) (hvalue : IsPlain value) : content (row part.key value) =
    part.key ++ byte ' ' :: byte '=' :: (byte ' ' :: value).rdropWhile Text.isBlank := by
  have hbefore : Text.before startsComment (row part.key value) = row part.key value :=
    List.takeWhile_eq_self_iff.mpr fun c hc => by
      rw [(row_isPlain part hvalue c hc).2]
      rfl
  have hhead : ∀ c ∈ (part.key ++ [byte ' ', byte '=']).head?, Text.isBlank c = false := by
    intro c hc
    rw [List.head?_append_of_ne_nil _ part.key_ne_nil] at hc
    exact (part.isKeyByte c (List.mem_of_mem_head? hc)).solid
  have hlast : ∀ c ∈ (part.key ++ [byte ' ', byte '=']).getLast?, Text.isBlank c = false := by
    intro c hc
    rw [List.getLast?_append_of_ne_nil _ (List.cons_ne_nil _ _)] at hc
    cases hc
    rfl
  have hrow : row part.key value = part.key ++ [byte ' ', byte '='] ++ byte ' ' :: value := by
    rw [row, show Text.lit " = " = [byte ' ', byte '=', byte ' '] from by decide,
      List.append_assoc, List.append_assoc]
    rfl
  rw [content, after?_mark_row, Option.getD_none, hbefore, hrow,
    Text.trim_append (List.append_ne_nil_of_left_ne_nil part.key_ne_nil _) hhead hlast,
    List.append_assoc]
  rfl

/-- The line of a key and a value assigns the value, without the blanks around it, to the key. -/
theorem assignment?_row (part : Part) (hvalue : IsPlain value) :
    assignment? (row part.key value) = some (part.key, Text.trim value) := by
  have hmark : byte '=' ∉ part.key ++ [byte ' '] := by
    intro hmem
    rcases List.mem_append.mp hmem with hmem | hmem
    · exact (part.isKeyByte _ hmem).sameSide rfl
    · exact absurd hmem (by decide)
  have hkey : Text.lower (Text.trim (part.key ++ [byte ' '])) = part.key := by
    have htrim : Text.trim part.key = part.key :=
      Text.trim_eq_self (fun c hc => (part.isKeyByte c (List.mem_of_mem_head? hc)).solid)
        fun c hc => (part.isKeyByte c (List.mem_of_mem_getLast? hc)).solid
    rw [Text.trim_concat (by decide), htrim, Text.lower]
    exact (List.map_congr_left fun c hc => (part.isKeyByte c hc).lower).trans (List.map_id _)
  have hsplit : Text.splitAt? (byte '=') (content (row part.key value)) =
      some (part.key ++ [byte ' '], (byte ' ' :: value).rdropWhile Text.isBlank) := by
    rw [content_row part hvalue, ← Text.splitAt?_append hmark, List.append_assoc]
    rfl
  rw [assignment?, hsplit, Option.map_some]
  dsimp only
  rw [hkey, Text.trim_rdropWhile, Text.trim_cons (by decide)]

/-! ## Files of one line -/

section Single

variable {file line key : Text} {field : IntField}

theorem complaints_single (hlines : Text.lines file = [line]) :
    complaints file = (fault? line).elim [] fun fault => complaint (1, fault) := by
  have hrejected : rejected file = (fault? line).toList.map (1, ·) := by
    rw [rejected_eq, hlines]
    cases hfault : fault? line <;> simp [hfault]
  have hlisted : listed file = rejected file := by
    rw [listed, hrejected]
    cases fault? line with
    | none => rfl
    | some fault => cases hkind : fault.kind <;> simp [hkind]
  rw [complaints, hlisted, hrejected]
  cases fault? line with
  | none => rfl
  | some fault => simp [complaintLimit, Text.lit]

theorem load_single (hlines : Text.lines file = [line])
    (hline : assignment? line = some (field.key, value)) (a : Template) :
    load file a = (Text.readInt32? value).elim a (field.set · a) := by
  have hsetting : setting? line = (Text.readInt32? value).map (.int field) := by
    rw [setting?_eq, hline, Option.bind_some]
    dsimp only
    rw [assign_int]
    cases Text.readInt32? value <;> rfl
  rw [load, accepted_eq, hlines, List.filterMap_cons, hsetting]
  cases Text.readInt32? value <;> rfl

theorem fault?_int (hline : assignment? line = some (field.key, value)) :
    fault? line = if (Text.readInt32? value).isSome then none else
      some (.invalidInt field.key) := by
  have hcontent : content line ≠ [] :=
    content_ne_nil (by rw [hline]; exact Option.some_ne_none _)
  have hkey : field.key ≠ [] := Part.key_ne_nil (.int field)
  rw [fault?_eq, if_neg hcontent, hline]
  dsimp only
  rw [if_neg hkey, assign_int]
  cases Text.readInt32? value <;> rfl

end Single

/-! ## The line of a whole-number field -/

/-- The line sets the field to the number that is read, or there is a complaint about it. -/
theorem loadFrom_intRow {field : IntField} {ending : Text} (hvalue : IsPlain value)
    (hending : ending = [] ∨ ending = [newline]) (path : Text) (a : Template) :
    loadFrom path (some (row field.key value ++ ending)) a =
      (Text.readInt32? (Text.trim value)).elim ⟨true, a, complaint (1, .invalidInt field.key)⟩
        fun n => ⟨true, field.set n a, []⟩ := by
  have hnewline : newline ∉ row field.key value := fun hmem =>
    (row_isPlain (.int field) hvalue newline hmem).1 rfl
  have hlines : Text.lines (row field.key value ++ ending) = [row field.key value] :=
    Text.lines_single (row_ne_nil (.int field) value) hnewline hending
  have hline : assignment? (row field.key value) = some (field.key, Text.trim value) :=
    assignment?_row (.int field) hvalue
  rw [loadFrom, load_single hlines hline, complaints_single hlines, fault?_int hline]
  cases Text.readInt32? (Text.trim value) <;> rfl

/-- A file of one line that gives a whole-number field a value. If the value, without the blanks
around it, is a numeral of a number that fits in 32 bits, the field is set to this number, no other
part of the template changes, and nothing is said. In every other case the template stays as it is,
and there is one complaint. It makes no difference whether the numeral is read as a whole or from the
front with only blanks behind it. No two fields share a key or are set by one line, so what is
written for a number gives the number back. -/
theorem load_intRow (field : IntField) {value ending : Text} (hvalue : IsPlain value)
    (hending : ending = [] ∨ ending = [newline]) (path : Text) (a : Template) :
    let loaded := loadFrom path (some (row field.key value ++ ending)) a
    loaded.opened = true ∧
      (∀ n, Text.Denotes (Text.trim value) n → Text.Fits32 n →
        field.get loaded.template = n ∧
          (∀ part : Part, part ≠ .int field → part.get loaded.template = part.get a) ∧
          loaded.messages = []) ∧
      ((∀ n, Text.Denotes (Text.trim value) n → ¬ Text.Fits32 n) →
        loaded.template = a ∧
          loaded.messages = "Line 1: Invalid int for " ++ field.key ++ [newline]) ∧
      (∀ n, Text.scanInt32? (Text.trim value) = some n ↔
        Text.Denotes (Text.trim value) n ∧ Text.Fits32 n) ∧
      (∀ other : IntField, other ≠ field →
        other.key ≠ field.key ∧ other.get loaded.template = other.get a) ∧
      ∀ n, Text.Fits32 n →
        let back := loadFrom path (some (row field.key (Text.ofInt n) ++ ending)) a
        field.get back.template = n ∧ back.messages = [] := by
  intro loaded
  have hloaded : loaded = _ := loadFrom_intRow hvalue hending path a
  have hset : ∀ n, ∀ part : Part, part ≠ .int field → part.get (field.set n a) = part.get a :=
    fun n part hpart => @get_apply_of_ne part (.int field n) (Ne.symm hpart) a
  have hread : ∀ n, Text.Denotes (Text.trim value) n → Text.Fits32 n →
      loaded = ⟨true, field.set n a, []⟩ := fun n hn hfits => by
    rw [hloaded, Text.readInt32?_eq_some_iff.mpr ⟨hn, hfits⟩]
    rfl
  refine ⟨?_, fun n hn hfits => ?_, fun hnone => ?_, fun n => ?_, fun other hother => ⟨?_, ?_⟩,
    fun n hfits => ?_⟩
  · rw [hloaded]
    cases Text.readInt32? (Text.trim value) <;> rfl
  · rw [hread n hn hfits]
    exact ⟨field.get_set_self n a, hset n, rfl⟩
  · have hunread : Text.readInt32? (Text.trim value) = none := by
      rw [Option.eq_none_iff_forall_ne_some]
      intro n hn
      obtain ⟨hdenotes, hfits⟩ := Text.readInt32?_eq_some_iff.mp hn
      exact hnone n hdenotes hfits
    rw [hloaded, hunread]
    exact ⟨rfl, rfl⟩
  · rw [Text.scanInt32?_trim, Text.readInt32?_eq_some_iff]
  · exact fun heq => hother (Part.int.inj (Part.key_inj heq))
  · rw [hloaded]
    cases Text.readInt32? (Text.trim value) with
    | none => rfl
    | some n => exact hset n (.int other) fun heq => hother (Part.int.inj heq)
  · intro back
    have hback : back = ⟨true, field.set n a, []⟩ := by
      show loadFrom path _ a = _
      rw [loadFrom_intRow (isPlain_ofInt n) hending, Text.trim_ofInt,
        Text.readInt32?_eq_some_iff.mpr ⟨Text.denotes_ofInt n, hfits⟩]
      rfl
    rw [hback]
    exact ⟨field.get_set_self n a, rfl⟩

/-- A sign, a zero in front and blanks around are read over; a number just past the greatest of 32
bits is complained about. -/
theorem load_intRow_padding :
    let value : Text := "  +07\t"
    let tooLarge : Text := "2147483648"
    let loaded := loadFrom "area.ini" (some (Text.lit "scatter.padding =   +07\t\n")) {}
    let refused := loadFrom "area.ini" (some (Text.lit "scatter.padding = 2147483648")) {}
    IsPlain value ∧ IsPlain tooLarge ∧ loaded.template.scatter.padding = 7 ∧
      loaded.messages = [] ∧ refused.template = {} ∧
      refused.messages = Text.lit "Line 1: Invalid int for scatter.padding\n" := by
  intro value tooLarge loaded refused
  have hvalue : IsPlain value := by decide
  have htooLarge : IsPlain tooLarge := by decide
  have hseven : Text.readInt32? (Text.trim value) = some 7 := by decide
  have hnone : Text.readInt32? (Text.trim tooLarge) = none := by decide
  obtain ⟨hdenotes, hfits⟩ := Text.readInt32?_eq_some_iff.mp hseven
  obtain ⟨-, haccepted, -⟩ := load_intRow .scatterPadding hvalue (.inr rfl) "area.ini" {}
  obtain ⟨-, -, hrefused, -⟩ := load_intRow .scatterPadding htooLarge (.inl rfl) "area.ini" {}
  obtain ⟨hget, -, hquiet⟩ := haccepted 7 hdenotes hfits
  obtain ⟨htemplate, hmessages⟩ := hrefused fun n hn hn32 => by
    rw [Text.readInt32?_eq_some_iff.mpr ⟨hn, hn32⟩] at hnone
    cases hnone
  exact ⟨hvalue, htooLarge, hget, hquiet, htemplate, hmessages⟩

end Settings
end Dungeon
