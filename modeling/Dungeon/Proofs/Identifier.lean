import Dungeon.Proofs.LetterCase
import Dungeon.Theme
import Mathlib.Data.FinEnum
import Mathlib.Logic.Relation

/-!
# Identifiers

Names that differ in the case of letters, in which separators stand between words and how many, or in
bytes that are neither separators nor letters nor digits, are one name in different spellings. The
identifier of a name is what all its spellings have in common: spellings of one name have the same
identifier, and every name is a spelling of its identifier. So a look-up that goes by the identifier
cannot tell spellings apart.

Results:
1. `Identifier.words_separator`: a separator parts the words before it from those after it.
2. `Identifier.words_respelling`: no change of the spelling changes the words.
3. `Identifier.isIdentifier_ofName`, `Identifier.ofName_eq_self`: what identifiers look like, and that
   they stay as they are.
4. `Identifier.alike_ofName`, `Identifier.alike_iff`: names with one identifier are spellings of one
   name.
5. `Theme.lookUp_found_iff`: the names of themes.
6. `Identifier.lookUp_by_identifier`: all of this together.
-/

namespace Dungeon

namespace Identifier

open Text (byte lowerByte SameLetter isAlphanumeric)

/-! ## Spellings -/

/-- One change of the spelling of a name. -/
inductive Respelling : Text → Text → Prop where
  /-- A letter in the other case. -/
  | letter (front back : Text) {c d : UInt8} (h : SameLetter c d) :
      Respelling (front ++ c :: back) (front ++ d :: back)
  /-- Another separator in the place of one. -/
  | separator (front back : Text) {c d : UInt8} (hc : isSeparator c = true)
      (hd : isSeparator d = true) : Respelling (front ++ c :: back) (front ++ d :: back)
  /-- A separator repeated. -/
  | repeated (front back : Text) {c : UInt8} (hc : isSeparator c = true) :
      Respelling (front ++ c :: back) (front ++ c :: c :: back)
  /-- A separator in front of the name. -/
  | inFront (name : Text) {c : UInt8} (hc : isSeparator c = true) : Respelling name (c :: name)
  /-- A separator behind the name. -/
  | behind (name : Text) {c : UInt8} (hc : isSeparator c = true) : Respelling name (name ++ [c])
  /-- Another byte anywhere, which is neither letter nor digit nor separator. -/
  | ignored (front back : Text) {c : UInt8} (hc : isAlphanumeric c = false)
      (hc' : isSeparator c = false) : Respelling (front ++ back) (front ++ c :: back)

/-- The names come from each other by changes of the spelling, there and back. -/
def Alike : Text → Text → Prop := Relation.EqvGen Respelling

namespace Alike

theorem of {s t : Text} (h : Respelling s t) : Alike s t := .rel s t h

theorem refl (s : Text) : Alike s s := Relation.EqvGen.refl s

theorem symm {s t : Text} (h : Alike s t) : Alike t s := Relation.EqvGen.symm s t h

theorem trans {s t u : Text} (h : Alike s t) (h' : Alike t u) : Alike s u :=
  Relation.EqvGen.trans s t u h h'

end Alike

/-- A byte of the words of an identifier. -/
def isWordByte (c : UInt8) : Bool := Text.isLower c || Text.isDigit c

/-- Words of lower-case letters and digits, joined by single underscores. -/
inductive IsIdentifier : Text → Prop where
  | word {w : Text} (hne : w ≠ []) (hw : ∀ c ∈ w, isWordByte c = true) : IsIdentifier w
  | join {w t : Text} (hne : w ≠ []) (hw : ∀ c ∈ w, isWordByte c = true) (ht : IsIdentifier t) :
      IsIdentifier (w ++ byte '_' :: t)

/-! ## Bytes -/

section Bytes

variable {c d : UInt8}

theorem isSeparator_iff :
    isSeparator c = true ↔ c = byte ' ' ∨ c = byte '_' ∨ c = byte '-' := by
  rw [isSeparator, Bool.or_eq_true, Bool.or_eq_true, beq_iff_eq, beq_iff_eq, beq_iff_eq, or_assoc]

theorem isSeparator_of_isLetter (c : UInt8) (h : Text.isLetter c = true) :
    isSeparator c = false := by
  rw [← Bool.not_eq_true, isSeparator_iff]
  rintro (rfl | rfl | rfl) <;> exact absurd h (by decide)

theorem isSeparator_lowerByte (c : UInt8) : isSeparator (lowerByte c) = isSeparator c :=
  congrFun (Text.class_lowerByte isSeparator_of_isLetter) c

theorem isAlphanumeric_of_sameLetter (h : SameLetter c d) :
    isAlphanumeric d = isAlphanumeric c := by
  rcases h with rfl | ⟨hupper, rfl⟩ | ⟨hlower, rfl⟩
  · rfl
  · simp [isAlphanumeric, Text.isLetter, hupper, Text.isLower_add hupper]
  · simp [isAlphanumeric, Text.isLetter, hlower, Text.isUpper_sub hlower]

theorem isSeparator_of_sameLetter (h : SameLetter c d) : isSeparator d = isSeparator c := by
  rw [← isSeparator_lowerByte, Text.lowerByte_of_sameLetter h, isSeparator_lowerByte]

/-- Letters and digits in lower case are the bytes of words. -/
theorem isWordByte_lowerByte :
    ∀ c : UInt8, isAlphanumeric c = true → isWordByte (lowerByte c) = true := by decide +kernel

theorem isWordByte_spec : ∀ c : UInt8, isWordByte c = true →
    isAlphanumeric c = true ∧ isSeparator c = false ∧ lowerByte c = c := by decide +kernel

end Bytes

/-! ## Words -/

/-- The bytes of a name that are not ignored. -/
def kept (name : Text) : Text := name.filter fun c => isAlphanumeric c || isSeparator c

/-- What stands between the separators of a name, in lower case. It may be empty. -/
def parts (name : Text) : List Text := (Text.lower (kept name)).splitOnP isSeparator

theorem words_eq (name : Text) : words name = (parts name).filter (· ≠ []) := rfl

theorem lower_kept_append (s t : Text) :
    Text.lower (kept (s ++ t)) = Text.lower (kept s) ++ Text.lower (kept t) := by
  rw [kept, List.filter_append, Text.lower, List.map_append]
  rfl

theorem kept_cons {c : UInt8} (hc : isAlphanumeric c = true ∨ isSeparator c = true) (t : Text) :
    kept (c :: t) = c :: kept t :=
  List.filter_cons_of_pos (Bool.or_eq_true_iff.mpr hc)

theorem kept_cons_of_ignored {c : UInt8} (hc : isAlphanumeric c = false)
    (hc' : isSeparator c = false) (t : Text) : kept (c :: t) = kept t :=
  List.filter_cons_of_neg (by rw [hc, hc']; decide)

/-- A separator parts the words before it from those after it. -/
theorem words_separator {c : UInt8} (hc : isSeparator c = true) (s t : Text) :
    words (s ++ c :: t) = words s ++ words t := by
  have hlower : Text.lower (kept (s ++ c :: t)) =
      Text.lower (kept s) ++ lowerByte c :: Text.lower (kept t) := by
    rw [lower_kept_append, kept_cons (.inr hc)]
    rfl
  rw [words_eq, parts, hlower, List.splitOnP_append_cons _ _ ((isSeparator_lowerByte c).trans hc),
    List.filter_append]
  rfl

theorem words_congr {s t : Text} (h : Text.lower (kept s) = Text.lower (kept t)) :
    words s = words t := by
  rw [words_eq, parts, h]
  rfl

theorem words_respelling {s t : Text} (h : Respelling s t) : words t = words s := by
  cases h with
  | @letter front back c d h =>
    refine words_congr ?_
    rw [lower_kept_append, lower_kept_append]
    refine congrArg (Text.lower (kept front) ++ ·) ?_
    simp only [kept, List.filter_cons, isAlphanumeric_of_sameLetter h, isSeparator_of_sameLetter h]
    split
    · exact congrArg (· :: _) (Text.lowerByte_of_sameLetter h)
    · rfl
  | separator front back hc hd => rw [words_separator hd, words_separator hc]
  | @repeated front back c hc =>
    rw [words_separator hc, words_separator hc]
    exact congrArg (words front ++ ·) (words_separator hc [] back)
  | inFront _ hc => exact words_separator hc [] s
  | behind _ hc => exact (words_separator hc s []).trans (List.append_nil _)
  | ignored front back hc hc' =>
    refine words_congr ?_
    rw [lower_kept_append, kept_cons_of_ignored hc hc', lower_kept_append]

theorem ofName_of_alike {s t : Text} (h : Alike s t) : ofName t = ofName s := by
  induction h with
  | rel s t h => rw [ofName, words_respelling h, ofName]
  | refl s => rfl
  | symm s t _ ih => exact ih.symm
  | trans s t u _ _ ih ih' => exact ih'.trans ih

/-! ## Identifiers -/

/-- The bytes between separators are bytes of the text, and no separators. -/
theorem mem_splitOnP {p : UInt8 → Bool} {t part : Text} (hpart : part ∈ t.splitOnP p) {c : UInt8}
    (hc : c ∈ part) : c ∈ t ∧ p c = false := by
  induction t generalizing part c with
  | nil =>
    rw [List.splitOnP_nil, List.mem_singleton] at hpart
    rw [hpart] at hc
    cases hc
  | cons d t ih =>
    have hlater : ∀ part ∈ t.splitOnP p, ∀ c ∈ part, c ∈ d :: t ∧ p c = false :=
      fun part hpart c hc => (ih hpart hc).imp_left (List.mem_cons_of_mem d)
    rw [List.splitOnP_cons_eq_if_modifyHead] at hpart
    split at hpart
    · rcases List.mem_cons.mp hpart with rfl | hpart
      · cases hc
      · exact hlater part hpart c hc
    · next hd =>
      -- The byte in front belongs to the first part.
      obtain ⟨first, more, hsplit⟩ := List.exists_cons_of_ne_nil (List.splitOnP_ne_nil p t)
      rw [hsplit] at hpart hlater
      rcases List.mem_cons.mp hpart with rfl | hpart
      · rcases List.mem_cons.mp hc with rfl | hc
        · exact ⟨List.mem_cons_self, Bool.not_eq_true _ ▸ hd⟩
        · exact hlater first List.mem_cons_self c hc
      · exact hlater part (List.mem_cons_of_mem first hpart) c hc

theorem isWordByte_of_mem_lower {name : Text} {c : UInt8} (hc : c ∈ Text.lower (kept name))
    (hc' : isSeparator c = false) : isWordByte c = true := by
  obtain ⟨d, hd, rfl⟩ := List.mem_map.mp hc
  rw [isSeparator_lowerByte] at hc'
  have hkept := (List.mem_filter.mp hd).2
  rw [hc', Bool.or_false] at hkept
  exact isWordByte_lowerByte d hkept

/-- Every word has a byte, and all its bytes are lower-case letters and digits. -/
theorem mem_words {name w : Text} (hw : w ∈ words name) :
    w ≠ [] ∧ ∀ c ∈ w, isWordByte c = true := by
  rw [words_eq, List.mem_filter, decide_eq_true_eq] at hw
  refine ⟨hw.2, fun c hc => ?_⟩
  obtain ⟨hmem, hseparator⟩ := mem_splitOnP hw.1 hc
  exact isWordByte_of_mem_lower hmem hseparator

theorem join_cons_cons (first second : Text) (more : List Text) :
    Text.join "_" (first :: second :: more) =
      first ++ byte '_' :: Text.join "_" (second :: more) := by
  rw [Text.join, List.append_assoc]
  · rfl
  · exact List.cons_ne_nil _ _

theorem isIdentifier_join {ws : List Text} (hne : ws ≠ [])
    (h : ∀ w ∈ ws, w ≠ [] ∧ ∀ c ∈ w, isWordByte c = true) : IsIdentifier (Text.join "_" ws) := by
  induction ws with
  | nil => exact absurd rfl hne
  | cons first more ih =>
    obtain ⟨hfirst, hmore⟩ := List.forall_mem_cons.mp h
    cases more with
    | nil => exact .word hfirst.1 hfirst.2
    | cons second more =>
      rw [join_cons_cons]
      exact .join hfirst.1 hfirst.2 (ih (List.cons_ne_nil _ _) hmore)

theorem isIdentifier_ofName (name : Text) : ofName name = [] ∨ IsIdentifier (ofName name) := by
  unfold ofName
  by_cases hnil : words name = []
  · exact .inl (by rw [hnil]; rfl)
  · exact .inr (isIdentifier_join hnil fun w hw => mem_words hw)

/-- A word of lower-case letters and digits is its own only word. -/
theorem words_word {w : Text} (hne : w ≠ []) (hw : ∀ c ∈ w, isWordByte c = true) :
    words w = [w] := by
  have hkept : kept w = w := List.filter_eq_self.mpr fun c hc => by
    rw [(isWordByte_spec c (hw c hc)).1, Bool.true_or]
  have hlower : Text.lower w = w :=
    (List.map_congr_left fun c hc => (isWordByte_spec c (hw c hc)).2.2).trans (List.map_id' w)
  have hparts : parts w = [w] := by
    rw [parts, hkept, hlower]
    exact List.splitOnP_eq_singleton fun c hc => (isWordByte_spec c (hw c hc)).2.1
  rw [words_eq, hparts]
  exact List.filter_cons_of_pos (decide_eq_true hne)

theorem ofName_eq_self {t : Text} (h : IsIdentifier t) : words t ≠ [] ∧ ofName t = t := by
  induction h with
  | word hne hw =>
    rw [ofName, words_word hne hw]
    exact ⟨List.cons_ne_nil _ _, rfl⟩
  | @join w t hne hw _ ih =>
    obtain ⟨hwords, hself⟩ := ih
    obtain ⟨first, more, hfirst⟩ := List.exists_cons_of_ne_nil hwords
    rw [ofName, words_separator (by decide), words_word hne hw, List.singleton_append]
    refine ⟨List.cons_ne_nil _ _, ?_⟩
    rw [hfirst, join_cons_cons, ← hfirst]
    exact congrArg (w ++ byte '_' :: ·) hself

theorem ofName_ofName (name : Text) : ofName (ofName name) = ofName name := by
  rcases isIdentifier_ofName name with hnil | hidentifier
  · rw [hnil]
    rfl
  · exact (ofName_eq_self hidentifier).2

/-! ## Names and their identifiers -/

/-- Every separator as an underscore. -/
def underscored (t : Text) : Text := t.map fun c => if isSeparator c then byte '_' else c

theorem join_splitOnP (t : Text) : Text.join "_" (t.splitOnP isSeparator) = underscored t := by
  induction t with
  | nil => rfl
  | cons c t ih =>
    obtain ⟨first, more, hsplit⟩ :=
      List.exists_cons_of_ne_nil (List.splitOnP_ne_nil isSeparator t)
    rw [underscored, List.map_cons, ← underscored, ← ih, List.splitOnP_cons_eq_if_modifyHead,
      hsplit]
    split
    · exact join_cons_cons [] first more
    · cases more with
      | nil => rfl
      | cons second more =>
        rw [List.modifyHead_cons, join_cons_cons, join_cons_cons]
        rfl

/-- The parts of a name with underscores between. -/
def joined (name : Text) : Text := underscored (Text.lower (kept name))

theorem joined_eq (name : Text) : joined name = Text.join "_" (parts name) :=
  (join_splitOnP _).symm

section Joined

variable {c : UInt8} (name : Text)

theorem joined_cons_of_isSeparator (hc : isSeparator c = true) :
    joined (c :: name) = byte '_' :: joined name := by
  rw [joined, kept_cons (.inr hc)]
  exact congrArg (· :: _) (if_pos ((isSeparator_lowerByte c).trans hc))

theorem joined_cons_of_isAlphanumeric (hc : isAlphanumeric c = true)
    (hc' : isSeparator c = false) : joined (c :: name) = lowerByte c :: joined name := by
  rw [joined, kept_cons (.inl hc)]
  refine congrArg (· :: _) (if_neg ?_)
  rw [isSeparator_lowerByte, hc']
  exact Bool.false_ne_true

theorem joined_cons_of_ignored (hc : isAlphanumeric c = false) (hc' : isSeparator c = false) :
    joined (c :: name) = joined name := by
  rw [joined, kept_cons_of_ignored hc hc', joined]

end Joined

/-- A name is respelled byte by byte. The bytes in front are those that are done. -/
theorem alike_joined (front name : Text) : Alike (front ++ name) (front ++ joined name) := by
  induction name generalizing front with
  | nil => exact .refl _
  | cons c name ih =>
    have hrest : ∀ d, Alike (front ++ d :: name) (front ++ d :: joined name) := fun d => by
      have hnext := ih (front ++ [d])
      rwa [List.append_assoc, List.append_assoc] at hnext
    cases hseparator : isSeparator c with
    | true =>
      rw [joined_cons_of_isSeparator name hseparator]
      exact (Alike.of (.separator front name hseparator (by decide))).trans (hrest _)
    | false =>
      cases halphanumeric : isAlphanumeric c with
      | true =>
        rw [joined_cons_of_isAlphanumeric name halphanumeric hseparator]
        exact (Alike.of (.letter front name (Text.sameLetter_lowerByte c))).trans (hrest _)
      | false =>
        rw [joined_cons_of_ignored name halphanumeric hseparator]
        exact (Alike.of (.ignored front name halphanumeric hseparator)).symm.trans (ih front)

/-- The parts, each after an underscore. -/
def trailing (ps : List Text) : Text := ps.flatMap (byte '_' :: ·)

theorem join_cons_eq (p : Text) (ps : List Text) :
    Text.join "_" (p :: ps) = p ++ trailing ps := by
  induction ps generalizing p with
  | nil => exact (List.append_nil p).symm
  | cons q ps ih => rw [join_cons_cons, ih]; rfl

/-- Behind other bytes, empty parts are separators repeated or behind the name. -/
theorem alike_trailing (front : Text) (ps : List Text) :
    Alike (front ++ trailing ps) (front ++ trailing (ps.filter (· ≠ []))) := by
  induction ps generalizing front with
  | nil => exact .refl _
  | cons p ps ih =>
    cases p with
    | nil =>
      have hdrop : Alike (front ++ byte '_' :: trailing ps) (front ++ trailing ps) := by
        cases ps with
        | nil =>
          rw [trailing, List.flatMap_nil, List.append_nil]
          exact (Alike.of (.behind front (by decide))).symm
        | cons q ps => exact (Alike.of (.repeated front (q ++ trailing ps) (by decide))).symm
      exact hdrop.trans (ih front)
    | cons c w =>
      have hnext := ih (front ++ byte '_' :: c :: w)
      rwa [List.append_assoc, List.append_assoc] at hnext

theorem alike_join (ps : List Text) :
    Alike (Text.join "_" ps) (Text.join "_" (ps.filter (· ≠ []))) := by
  induction ps with
  | nil => exact .refl _
  | cons p ps ih =>
    cases p with
    | nil =>
      cases ps with
      | nil => exact .refl _
      | cons q ps =>
        rw [join_cons_cons]
        exact (Alike.of (.inFront _ (by decide))).symm.trans ih
    | cons c w =>
      have hfilter : ((c :: w) :: ps).filter (· ≠ []) = (c :: w) :: ps.filter (· ≠ []) := rfl
      rw [hfilter, join_cons_eq, join_cons_eq]
      exact alike_trailing (c :: w) ps

/-- Every name is a spelling of its identifier. -/
theorem alike_ofName (name : Text) : Alike name (ofName name) := by
  have hjoined := alike_joined [] name
  rw [joined_eq] at hjoined
  exact hjoined.trans (alike_join (parts name))

theorem alike_iff {s t : Text} : Alike s t ↔ ofName s = ofName t := by
  constructor
  · intro h
    exact (ofName_of_alike h).symm
  · intro h
    exact (alike_ofName s).trans (h ▸ (alike_ofName t).symm)

/-! ## Look-ups -/

theorem lookUp_fst {α : Type} (meaning? : Text → Option α) (name : Text) (value : α) :
    (lookUp meaning? name value).1 = (meaning? name).isSome := by
  unfold lookUp
  split <;> simp [*]

/-- Without a meaning the value that was handed over is left as it is. -/
theorem lookUp_unchanged {α : Type} {meaning? : Text → Option α} {name : Text} {value : α}
    (h : (lookUp meaning? name value).1 = false) : (lookUp meaning? name value).2 = value := by
  unfold lookUp at *
  split at h
  · cases h
  · rfl

end Identifier

open Identifier (Alike IsIdentifier)

theorem Theme.lookUp_congr {s t : Text} (h : Identifier.ofName s = Identifier.ofName t)
    (theme : Theme) : lookUp s theme = lookUp t theme := by
  unfold lookUp Identifier.lookUp ofName?
  rw [h]

theorem Algorithm.lookUp_congr {s t : Text} (h : Identifier.ofName s = Identifier.ofName t)
    (layout : Algorithm) : lookUp s layout = lookUp t layout := by
  unfold lookUp Identifier.lookUp ofName?
  rw [h]

theorem Theme.hasIdentifier_iff {t : Theme} {identifier : Text} :
    t.hasIdentifier identifier = true ↔
      t.info.id = identifier ∨ Identifier.ofName t.info.display = identifier := by
  rw [hasIdentifier, Bool.or_eq_true, beq_iff_eq, beq_iff_eq, eq_comm, @eq_comm _ identifier]

theorem Theme.lookUp_found_iff (name : Text) (theme : Theme) : (lookUp name theme).1 = true ↔
    Identifier.ofName name ∈ all.map (·.info.id) ∨
      Identifier.ofName name ∈ all.map (fun t => Identifier.ofName t.info.display) ∨
      Identifier.ofName name = "city" := by
  have hlisted : (∃ t ∈ all, t.hasIdentifier (Identifier.ofName name) = true) ↔
      Identifier.ofName name ∈ all.map (·.info.id) ∨
        Identifier.ofName name ∈ all.map (fun t => Identifier.ofName t.info.display) := by
    simp only [hasIdentifier_iff, and_or_left, exists_or, List.mem_map]
  rw [← or_assoc, ← hlisted, lookUp, Identifier.lookUp_fst, ofName?]
  cases hfind : all.find? fun t => t.hasIdentifier (Identifier.ofName name) with
  | some t =>
    have hname : t.hasIdentifier (Identifier.ofName name) = true := by
      simpa using List.find?_some hfind
    exact iff_of_true rfl (.inl ⟨t, List.mem_of_find?_eq_some hfind, hname⟩)
  | none =>
    have hnone : ¬ ∃ t ∈ all, t.hasIdentifier (Identifier.ofName name) = true := by
      rintro ⟨t, ht, hname⟩
      exact List.find?_eq_none.mp hfind t ht hname
    rw [or_iff_right hnone]
    dsimp only
    split
    · next hcity => exact iff_of_true rfl hcity
    · next hcity => exact iff_of_false Bool.false_ne_true hcity

/-- An identifier is empty or made of words of lower-case letters and digits with single underscores
between, and it is its own identifier. Names have the same identifier just if they are spellings of
one name. Look-ups of themes and layouts come out the same for all spellings and for the identifier,
and leave what was handed over as it is if they find nothing. A theme is found by the identifiers of
the catalogue, by the display names and by one name more. -/
theorem Identifier.lookUp_by_identifier (name other : Text) (theme : Theme) (layout : Algorithm) :
    (ofName name = [] ∨ IsIdentifier (ofName name)) ∧
      ofName (ofName name) = ofName name ∧
      (Alike name other ↔ ofName name = ofName other) ∧
      (Alike name other ∨ other = ofName name →
        Theme.lookUp other theme = Theme.lookUp name theme ∧
          Algorithm.lookUp other layout = Algorithm.lookUp name layout) ∧
      ((Theme.lookUp name theme).1 = false → (Theme.lookUp name theme).2 = theme) ∧
      ((Algorithm.lookUp name layout).1 = false → (Algorithm.lookUp name layout).2 = layout) ∧
      ((Theme.lookUp name theme).1 = true ↔
        ofName name ∈ Theme.all.map (·.info.id) ∨
          ofName name ∈ Theme.all.map (fun t => ofName t.info.display) ∨
          ofName name = "city") := by
  refine ⟨isIdentifier_ofName name, ofName_ofName name, alike_iff, fun h => ?_, lookUp_unchanged,
    lookUp_unchanged, Theme.lookUp_found_iff name theme⟩
  have hsame : ofName other = ofName name := by
    rcases h with hother | rfl
    · exact ofName_of_alike hother
    · exact ofName_ofName name
  exact ⟨Theme.lookUp_congr hsame theme, Algorithm.lookUp_congr hsame layout⟩

/-- Two spellings of the name of a theme, which is the name of no layout. -/
theorem Identifier.lookUp_by_identifier_city :
    Alike "-Under.ground__CITY " "underground city" ∧
      Theme.lookUp "-Under.ground__CITY " .castle = Theme.lookUp "underground city" .castle ∧
      (Theme.lookUp "-Under.ground__CITY " .castle).1 = true ∧
      (Algorithm.lookUp "-Under.ground__CITY " .scatter).2 = .scatter := by
  obtain ⟨-, -, halike, hsame, -, hkept, hfound⟩ := lookUp_by_identifier "-Under.ground__CITY "
    "underground city" .castle .scatter
  have hspelling : Alike "-Under.ground__CITY " "underground city" := halike.mpr (by decide)
  exact ⟨hspelling, (hsame (.inl hspelling)).1.symm, hfound.mpr (.inl (by decide)),
    hkept (by decide)⟩

end Dungeon
