import Dungeon.Proofs.Cutting
import Dungeon.Proofs.Decimal
import Dungeon.Quest
import Mathlib.Data.List.Forall2

/-!
# The quest of a map

Written out, the pattern of a title is a text that holds each gap as a name in braces, and the title
comes about by searching for one name after the other and putting in what it stands for. Nothing that
is put in has braces, so no later search finds anything in it, and in the end all gaps are filled and
no brace is left.

The difficulty is a level and an eighth of a sum, rounded toward zero and kept between bounds. Each
of these steps grows with the numbers it is made from.

Results:
1. `Text.replaceAll_key_append`, `Text.replaceAll_append_of_notMem`: what a search finds and what it
   leaves.
2. `Quest.replaceAll_written`, `Quest.foldl_replaceAll`: one gap filled by a search, and all of them.
3. `Quest.titleOf_eq_foldl`, `Quest.titleOf_braceless`: the title of a quest.
4. `Map.monsterTotal_mono`, `clamp_mono`: the steps to the difficulty.
5. `Map.quest_title_difficulty`: the quest of a map.
-/

namespace Dungeon

open Text (byte)

namespace Text

/-! ## Search and replace -/

/-- The text with every `key` replaced by the value, after `skip` bytes, which belong to the key that
was found last. -/
def replaceFrom (key value : Text) : Nat → Text → Text
  | _, [] => []
  | skip + 1, _ :: rest => replaceFrom key value skip rest
  | 0, c :: rest =>
      if key.isPrefixOf (c :: rest) then value ++ replaceFrom key value (key.length - 1) rest
      else c :: replaceFrom key value 0 rest

/-- The text with every `key` replaced by the value, from left to right. The value is not searched
for further keys. -/
def replaceAll (key value t : Text) : Text := replaceFrom key value 0 t

section Replace

variable {first : UInt8} {name value : Text}

theorem replaceFrom_length_append (key value t u : Text) :
    replaceFrom key value t.length (t ++ u) = replaceFrom key value 0 u := by
  induction t with
  | nil => rfl
  | cons c t ih => exact ih

theorem replaceAll_cons_of_not_prefix {key : Text} {c : UInt8} {t : Text}
    (h : ¬ key <+: c :: t) : replaceAll key value (c :: t) = c :: replaceAll key value t := by
  rw [replaceAll, replaceFrom, if_neg (mt List.isPrefixOf_iff_prefix.mp h)]
  rfl

theorem replaceAll_key_append (t : Text) :
    replaceAll (first :: name) value ((first :: name) ++ t) =
      value ++ replaceAll (first :: name) value t := by
  have hprefix : (first :: name).isPrefixOf (first :: (name ++ t)) = true :=
    List.isPrefixOf_iff_prefix.mpr (List.prefix_append (first :: name) t)
  rw [List.cons_append, replaceAll, replaceFrom, if_pos hprefix, List.length_cons,
    Nat.add_sub_cancel, replaceFrom_length_append]
  rfl

/-- A text without the first byte of the key is left as it is. -/
theorem replaceAll_append_of_notMem {t : Text} (h : first ∉ t) (u : Text) :
    replaceAll (first :: name) value (t ++ u) = t ++ replaceAll (first :: name) value u := by
  induction t with
  | nil => rfl
  | cons c t ih =>
    rw [List.mem_cons, not_or] at h
    rw [List.cons_append, replaceAll_cons_of_not_prefix, ih h.2, List.cons_append]
    exact fun hprefix => h.1 (List.cons_prefix_cons.mp hprefix).1

end Replace

/-- There is no brace in the text. -/
def Braceless (t : Text) : Prop := byte '\x7b' ∉ t ∧ byte '\x7d' ∉ t

instance (t : Text) : Decidable (Braceless t) := inferInstanceAs (Decidable (_ ∧ _))

theorem Braceless.append {t u : Text} (ht : Braceless t) (hu : Braceless u) :
    Braceless (t ++ u) :=
  ⟨List.not_mem_append ht.1 hu.1, List.not_mem_append ht.2 hu.2⟩

theorem Braceless.flatMap {α : Type} {f : α → Text} {items : List α}
    (h : ∀ x ∈ items, Braceless (f x)) : Braceless (items.flatMap f) := by
  unfold Braceless
  simp only [List.mem_flatMap, not_exists, not_and]
  exact ⟨fun x hx => (h x hx).1, fun x hx => (h x hx).2⟩

theorem braceless_ofNat (n : Nat) : Braceless (ofNat n) := by
  constructor <;> intro hmem <;> exact absurd (isDigit_of_mem_ofNat n _ hmem) (by decide)

theorem braceless_ofInt (n : Int) : Braceless (ofInt n) := by
  cases n with
  | ofNat n => exact braceless_ofNat n
  | negSucc n => exact Braceless.append (by decide) (braceless_ofNat (n + 1))

end Text

/-! ## Written patterns -/

namespace Quest

/-- The name of a gap. -/
def Piece.name : Piece → Text
  | .words _ => []
  | .count => "count"
  | .monsters => "monsters"
  | .treasure => "treasure"
  | .helper => "npc"
  | .artifact => "artifact"
  | .location => "location"

/-- A piece as it is written in a pattern: a gap is its name in braces. -/
def Piece.written : Piece → Text
  | .words t => t
  | gap => byte '\x7b' :: (gap.name ++ [byte '\x7d'])

/-- The pattern as it is written. -/
def written (pattern : List Piece) : Text := pattern.flatMap Piece.written

/-- The gaps, in the order in which they are filled. -/
def gaps : List Piece := [.count, .monsters, .treasure, .helper, .artifact, .location]

theorem words_notMem_gaps (t : Text) : Piece.words t ∉ gaps := by simp [gaps]

/-- What the searches need of the gaps. -/
theorem gaps_spec : (∀ gap ∈ gaps, gap.written = byte '\x7b' :: (gap.name ++ [byte '\x7d'])) ∧
    (∀ gap ∈ gaps, Text.Braceless gap.name) ∧
    ∀ gap ∈ gaps, ∀ gap' ∈ gaps, gap.name = gap'.name → gap = gap' := by decide

/-- The words of a piece have no brace. -/
def Piece.IsClean : Piece → Prop
  | .words t => Text.Braceless t
  | _ => True

instance : DecidablePred Piece.IsClean
  | .words t => inferInstanceAs (Decidable (Text.Braceless t))
  | .count | .monsters | .treasure | .helper | .artifact | .location => .isTrue trivial

theorem gaps_clean : ∀ gap ∈ gaps, gap.IsClean := by decide

/-- The piece with a value put into one gap. -/
def Piece.put (gap : Piece) (value : Text) (p : Piece) : Piece :=
  if p = gap then .words value else p

theorem Piece.IsClean.put {gap p : Piece} {value : Text} (hvalue : Text.Braceless value)
    (hp : p.IsClean) : (Piece.put gap value p).IsClean := by
  unfold Piece.put
  split
  · exact hvalue
  · exact hp

/-- The name of another gap is passed over. -/
theorem not_prefix_written {gap other : Piece} (hgap : gap ∈ gaps) (hother : other ∈ gaps)
    (hne : other ≠ gap) (t : Text) : ¬ gap.written <+: other.written ++ t := by
  obtain ⟨hwritten, hbraceless, hinj⟩ := gaps_spec
  rw [hwritten gap hgap, hwritten other hother]
  rintro ⟨rest, hrest⟩
  simp only [List.cons_append, List.cons.injEq, true_and, List.append_assoc,
    List.nil_append] at hrest
  -- Both names end at the first closing brace.
  have hcut := congrArg (Text.splitAt? (byte '\x7d')) hrest
  rw [Text.splitAt?_append (hbraceless gap hgap).2,
    Text.splitAt?_append (hbraceless other hother).2, Option.some.injEq, Prod.mk.injEq] at hcut
  exact hne (hinj other hother gap hgap hcut.1.symm)

/-- A search for a gap fills it in the first piece, or passes over this piece. -/
theorem replaceAll_written_append {gap p : Piece} (hgap : gap ∈ gaps) (hp : p.IsClean)
    (value t : Text) : Text.replaceAll gap.written value (p.written ++ t) =
      (Piece.put gap value p).written ++ Text.replaceAll gap.written value t := by
  obtain ⟨hwritten, hbraceless, -⟩ := gaps_spec
  by_cases hfound : p = gap
  · have hput : (Piece.put gap value p).written = value := by rw [Piece.put, if_pos hfound]; rfl
    rw [hput, hfound, hwritten gap hgap]
    exact Text.replaceAll_key_append t
  · rw [Piece.put, if_neg hfound]
    by_cases hother : p ∈ gaps
    · -- The search stops at the opening brace, and goes on behind it.
      have hprefix := not_prefix_written hgap hother hfound t
      rw [hwritten gap hgap, hwritten p hother, List.cons_append] at hprefix ⊢
      rw [Text.replaceAll_cons_of_not_prefix hprefix, Text.replaceAll_append_of_notMem]
      · rfl
      · exact List.not_mem_append (hbraceless p hother).1 (by decide)
    · cases p with
      | words words => rw [hwritten gap hgap]; exact Text.replaceAll_append_of_notMem hp.1 t
      | _ => exact absurd (by decide) hother

/-- Searching for a gap fills it wherever it stands, and changes nothing else. -/
theorem replaceAll_written {gap : Piece} (hgap : gap ∈ gaps) {pattern : List Piece}
    (hclean : ∀ p ∈ pattern, p.IsClean) (value : Text) :
    Text.replaceAll gap.written value (written pattern) =
      written (pattern.map (Piece.put gap value)) := by
  induction pattern with
  | nil => rfl
  | cons p pattern ih =>
    obtain ⟨hp, hpattern⟩ := List.forall_mem_cons.mp hclean
    calc Text.replaceAll gap.written value (p.written ++ written pattern)
        = (Piece.put gap value p).written ++ Text.replaceAll gap.written value (written pattern) :=
          replaceAll_written_append hgap hp value _
      _ = (Piece.put gap value p).written ++ written (pattern.map (Piece.put gap value)) := by
          rw [ih hpattern]

/-- The piece with its value, if it is one of the gaps. -/
def Piece.putAll (gaps : List Piece) (value : Piece → Text) (p : Piece) : Piece :=
  if p ∈ gaps then .words (value p) else p

theorem Piece.putAll_put {gap : Piece} {more : List Piece} (hmore : ∀ p ∈ more, p ∈ gaps)
    (value : Piece → Text) (p : Piece) :
    putAll more value (put gap (value gap) p) = putAll (gap :: more) value p := by
  unfold putAll put
  by_cases hp : p = gap
  · subst hp
    rw [if_pos rfl, if_neg, if_pos List.mem_cons_self]
    -- What is put in is no gap.
    exact fun hmem => words_notMem_gaps _ (hmore _ hmem)
  · rw [if_neg hp]
    simp only [List.mem_cons, hp, false_or]

/-- Searching for one gap after the other fills them all. -/
theorem foldl_replaceAll {listed : List Piece} (hlisted : ∀ gap ∈ listed, gap ∈ gaps)
    {value : Piece → Text} (hvalue : ∀ gap ∈ listed, Text.Braceless (value gap))
    {pattern : List Piece} (hclean : ∀ p ∈ pattern, p.IsClean) :
    listed.foldl (fun t gap => Text.replaceAll gap.written (value gap) t) (written pattern) =
      written (pattern.map (Piece.putAll listed value)) := by
  induction listed generalizing pattern with
  | nil => exact congrArg written (List.map_id'' (fun p => if_neg List.not_mem_nil) pattern).symm
  | cons gap more ih =>
    obtain ⟨hgap, hmore⟩ := List.forall_mem_cons.mp hlisted
    obtain ⟨hvaluegap, hvaluemore⟩ := List.forall_mem_cons.mp hvalue
    have hclean' : ∀ p ∈ pattern.map (Piece.put gap (value gap)), p.IsClean :=
      List.forall_mem_map.mpr fun p hp => (hclean p hp).put hvaluegap
    rw [List.foldl_cons, replaceAll_written hgap hclean, ih hmore hvaluemore hclean', List.map_map]
    exact congrArg written (List.map_congr_left fun p _ => Piece.putAll_put hmore value p)

/-! ## Titles -/

section Title

variable (h : UInt32) (count : Int) {location : Text} (hlocation : Text.Braceless location)

theorem pick_mem {α : Type} {n : Nat} (table : Vector α (n + 1)) (h : UInt32) :
    pick table h ∈ table := Vector.getElem_mem _

theorem patterns_clean : ∀ pattern ∈ patterns.toList, ∀ p ∈ pattern, p.IsClean := by decide

theorem pattern_clean : ∀ p ∈ pick patterns h, p.IsClean :=
  patterns_clean _ (Vector.mem_toList_iff.mpr (pick_mem patterns h))

theorem names_braceless : (∀ t ∈ monsterNames.toList, Text.Braceless t) ∧
    (∀ t ∈ treasureNames.toList, Text.Braceless t) ∧
    (∀ t ∈ helperNames.toList, Text.Braceless t) ∧
    ∀ t ∈ artifactNames.toList, Text.Braceless t := by decide

include hlocation

theorem fill_braceless {p : Piece} (hp : p.IsClean) :
    Text.Braceless (p.fill h count location) := by
  obtain ⟨hmonsters, htreasures, hhelpers, hartifacts⟩ := names_braceless
  cases p with
  | words t => exact hp
  | count => exact Text.braceless_ofInt count
  | monsters => exact hmonsters _ (Vector.mem_toList_iff.mpr (pick_mem _ _))
  | treasure => exact htreasures _ (Vector.mem_toList_iff.mpr (pick_mem _ _))
  | helper => exact hhelpers _ (Vector.mem_toList_iff.mpr (pick_mem _ _))
  | artifact => exact hartifacts _ (Vector.mem_toList_iff.mpr (pick_mem _ _))
  | location => exact hlocation

theorem titleOf_braceless : Text.Braceless (titleOf h count location) :=
  .flatMap fun p hp => fill_braceless h count hlocation (pattern_clean h p hp)

/-- The title is what is left of the written pattern when all gaps have been searched for. -/
theorem titleOf_eq_foldl : titleOf h count location =
    gaps.foldl (fun t gap => Text.replaceAll gap.written (gap.fill h count location) t)
      (written (pick patterns h)) := by
  have hgaps : ∀ gap ∈ gaps, Text.Braceless (gap.fill h count location) := fun gap hgap =>
    fill_braceless h count hlocation (gaps_clean gap hgap)
  rw [foldl_replaceAll (fun _ => id) hgaps (pattern_clean h), written, List.flatMap_map]
  refine List.flatMap_congr fun p _ => ?_
  cases p <;> rfl

/-- The patterns in which the gaps are searched for. -/
example : patterns.toList.map written =
    [Text.lit "Slay \x7bcount\x7d \x7bmonsters\x7d",
     Text.lit "Find the \x7btreasure\x7d of \x7blocation\x7d",
     Text.lit "Rescue \x7bnpc\x7d from \x7blocation\x7d",
     Text.lit "Retrieve the \x7bartifact\x7d for \x7bnpc\x7d",
     Text.lit "Explore the depths of \x7blocation\x7d",
     Text.lit "Survive \x7bcount\x7d encounters"] := by decide

end Title

/-- Words stand in a title as they are written. -/
theorem fill_eq_written (h : UInt32) (count : Int) (location : Text) {p : Piece} (hp : p ∉ gaps) :
    p.fill h count location = p.written := by
  cases p with
  | words t => rfl
  | _ => exact absurd (by decide) hp

theorem patterns_words :
    ∀ pattern ∈ patterns.toList, ∃ p ∈ pattern, p ∉ gaps ∧ p.written ≠ [] := by decide

theorem titleOf_ne_nil (h : UInt32) (count : Int) (location : Text) :
    titleOf h count location ≠ [] := by
  obtain ⟨p, hp, hwords, hne⟩ :=
    patterns_words _ (Vector.mem_toList_iff.mpr (pick_mem patterns h))
  intro hnil
  rw [titleOf, List.flatMap_eq_nil_iff] at hnil
  exact hne (by rw [← fill_eq_written h count location hwords, hnil p hp])

end Quest

/-! ## Difficulties -/

theorem clamp_mem {lo hi : Int} (h : lo ≤ hi) (v : Int) :
    lo ≤ clamp lo hi v ∧ clamp lo hi v ≤ hi := by
  unfold clamp
  split_ifs <;> omega

theorem clamp_mono {lo hi v w : Int} (h : lo ≤ hi) (hle : v ≤ w) :
    clamp lo hi v ≤ clamp lo hi w := by
  unfold clamp
  split_ifs <;> omega

namespace Map

theorem foldl_monsters_mono {rooms rooms' : List Room}
    (h : List.Forall₂ (fun r s => r.monsters ≤ s.monsters) rooms rooms') {total total' : Int}
    (htotal : total ≤ total') :
    rooms.foldl (fun total r => total + r.monsters) total ≤
      rooms'.foldl (fun total r => total + r.monsters) total' := by
  induction h generalizing total total' with
  | nil => exact htotal
  | cons hroom _ ih => exact ih (Int.add_le_add htotal hroom)

theorem monsterTotal_mono {m n : Map}
    (h : List.Forall₂ (fun r s => r.monsters ≤ s.monsters) m.rooms n.rooms) :
    m.monsterTotal ≤ n.monsterTotal := foldl_monsters_mono h (Int.le_refl 0)

theorem display_braceless (t : Theme) : Text.Braceless t.info.display := by
  have hdungeon : Text.Braceless (Theme.info .dungeon).display := by decide
  cases t with
  | unlisted => exact hdungeon
  | _ => decide

/-- The title of a quest is not empty and has no brace. It is what is left of a written pattern when
its gaps are searched for one after the other. The difficulty lies between one and ten and sets the
reward, and it does not fall when the level or the monsters of rooms rise. -/
theorem quest_title_difficulty (m n : Map) (hlevel : m.area.level ≤ n.area.level)
    (hrooms : List.Forall₂ (fun r s => r.monsters ≤ s.monsters) m.rooms n.rooms) :
    let h := Hash.combine₃ m.seed (Hash.tag "QUEST") m.area.theme.code.toUInt32
    let count := if 0 < m.monsterTotal then m.monsterTotal else 1
    m.quest.title ≠ [] ∧ byte '\x7b' ∉ m.quest.title ∧ byte '\x7d' ∉ m.quest.title ∧
      m.quest.title = Quest.gaps.foldl
        (fun t gap => Text.replaceAll gap.written (gap.fill h count m.area.theme.info.display) t)
        (Quest.written (pick Quest.patterns h)) ∧
      1 ≤ m.quest.difficulty ∧ m.quest.difficulty ≤ 10 ∧
      m.quest.reward = 100 * m.quest.difficulty ∧
      m.quest.difficulty ≤ n.quest.difficulty := by
  intro h count
  have hbraceless := Quest.titleOf_braceless h count (display_braceless m.area.theme)
  have hbounds := clamp_mem (by decide : (1 : Int) ≤ 10)
    (m.area.level + m.monsterTotal.tdiv 8)
  have heighth : m.monsterTotal.tdiv 8 ≤ n.monsterTotal.tdiv 8 :=
    Int.tdiv_le_tdiv (by decide) (monsterTotal_mono hrooms)
  refine ⟨Quest.titleOf_ne_nil h count _, hbraceless.1, hbraceless.2,
    Quest.titleOf_eq_foldl h count (display_braceless m.area.theme), hbounds.1, hbounds.2,
    Int.mul_comm _ _, clamp_mono (by decide) (Int.add_le_add hlevel heighth)⟩

/-- A map of an unlisted theme with two rooms, the second of which holds so many monsters. -/
def guarded (monsters : Int) : Map where
  rooms := [.ofRect 0 ⟨1, 1, 4, 4⟩, { Room.ofRect 1 ⟨8, 1, 4, 4⟩ with monsters }]
  area := { theme := .ofCode 200, level := 2 }

/-- With the sixteenth monster the difficulty rises from three to four. -/
theorem quest_title_difficulty_sixteen :
    (guarded 15).quest.difficulty = 3 ∧ (guarded 16).quest.difficulty = 4 ∧
      (guarded 15).quest.title ≠ [] ∧ byte '\x7b' ∉ (guarded 15).quest.title ∧
      (guarded 15).quest.reward = 300 ∧
      (guarded 15).quest.difficulty ≤ (guarded 16).quest.difficulty := by
  have hrooms : List.Forall₂ (fun r s : Room => r.monsters ≤ s.monsters) (guarded 15).rooms
      (guarded 16).rooms := .cons (by decide) (.cons (by decide) .nil)
  obtain ⟨hne, hopen, -, -, -, -, hreward, hmono⟩ :=
    quest_title_difficulty (guarded 15) (guarded 16) (by decide) hrooms
  have hdifficulty : (guarded 15).quest.difficulty = 3 := by decide
  exact ⟨hdifficulty, by decide, hne, hopen, by rw [hreward, hdifficulty]; rfl, hmono⟩

end Map
end Dungeon
