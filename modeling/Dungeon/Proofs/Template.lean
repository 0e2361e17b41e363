import Dungeon.Template.Fault
import Mathlib

/-!
# Accepted templates

A template without a fault satisfies every rule that applies to it. Layouts rely on some of the
rules only, and these are read off once, as facts about the parameters.

Results:
1. `Template.faultFor?_eq_none`: a template has no fault if it breaks none of its rules.
2. `Template.size_accepted`, `Template.partition_accepted`, `Template.cavern_accepted`,
   `Template.scatter_accepted`: what the rules say about size and parameters.
-/

namespace Dungeon

/-! ## What layouts rely on -/

/-- The least leaf holds the least room with its margins, and the map holds the least leaf. -/
structure PartitionParams.Sound (p : PartitionParams) (width height : Int) : Prop where
  room : 1 ≤ p.minRoom
  padding : 0 ≤ p.padding
  leaf : p.neededLeaf ≤ p.minLeaf
  width : p.minLeaf ≤ width
  height : p.minLeaf ≤ height

/-- There is at least one attempt at a cave, and chambers have sides. -/
structure CavernParams.Sound (p : CavernParams) : Prop where
  retries : 0 ≤ p.maxRetries
  room : 1 ≤ p.minRoom

/-- The map holds the least room and a border, the greatest side is no less than the least one, and
there is at least one attempt. -/
structure ScatterParams.Sound (p : ScatterParams) (width height : Int) : Prop where
  target : 1 ≤ p.targetRooms
  room : 1 ≤ p.minRoom
  sides : p.maxRoom = 0 ∨ p.minRoom ≤ p.maxRoom
  padding : 0 ≤ p.padding
  attempts : 1 ≤ p.attemptsPerRoom
  width : p.minRoom ≤ width - 2
  height : p.minRoom ≤ height - 2

theorem PartitionParams.one_le_margin (p : PartitionParams) : 1 ≤ p.margin := le_max_left _ _

theorem PartitionParams.Sound.minLeaf_pos {p : PartitionParams} {width height : Int}
    (h : p.Sound width height) : 0 < p.minLeaf := by
  have hroom := h.room
  have hmargin := p.one_le_margin
  have hleaf := h.leaf
  unfold neededLeaf at hleaf
  omega

theorem PartitionParams.padding_le_margins (p : PartitionParams) : p.padding ≤ 2 * p.margin := by
  cases lt_or_ge p.padding 0 with
  | inl hneg =>
    have hone := p.one_le_margin
    omega
  | inr hpos =>
    unfold margin
    rw [Int.tdiv_eq_ediv_of_nonneg (by omega)]
    omega

theorem ScatterParams.Sound.greatestSide {p : ScatterParams} {width height : Int}
    (h : p.Sound width height) : p.minRoom ≤ p.greatestSide width height := by
  have hsides := h.sides
  unfold ScatterParams.greatestSide
  split
  · omega
  · exact le_max_left _ _

/-! ## What the rules say -/

namespace Template

variable {a : Template} {leaf : Int}

theorem within_eq_none {field : IntField} {least greatest : Int} :
    a.within field least greatest = none ↔ least ≤ field.get a ∧ field.get a ≤ greatest := by
  simp [within]

theorem atLeast_eq_none {field : IntField} {least : Int} :
    a.atLeast field least = none ↔ least ≤ field.get a := by
  simp [atLeast]

theorem leafFits_eq_none :
    a.leafFits = none ↔ a.partition.minLeaf ≤ a.width ∧ a.partition.minLeaf ≤ a.height := by
  simp [leafFits]

theorem roomSidesAgree_eq_none :
    a.roomSidesAgree = none ↔ a.scatter.maxRoom = 0 ∨ a.scatter.minRoom ≤ a.scatter.maxRoom := by
  unfold roomSidesAgree
  split
  · next h => exact iff_of_true rfl (.inl h)
  · next h =>
    rw [atLeast_eq_none]
    exact (or_iff_right h).symm

theorem roomFits_eq_none :
    a.roomFits = none ↔ a.scatter.minRoom ≤ a.width - 2 ∧ a.scatter.minRoom ≤ a.height - 2 := by
  simp [roomFits]

theorem faultFor?_eq_none :
    a.faultFor? leaf = none ↔ ∀ rule ∈ a.commonRules ++ a.layoutRules leaf, rule = none :=
  List.findSome?_eq_none_iff

theorem common_accepted (h : a.faultFor? leaf = none) : ∀ rule ∈ a.commonRules, rule = none :=
  fun rule hrule => faultFor?_eq_none.mp h rule (List.mem_append_left _ hrule)

theorem layout_accepted (h : a.faultFor? leaf = none) : ∀ rule ∈ a.layoutRules leaf, rule = none :=
  fun rule hrule => faultFor?_eq_none.mp h rule (List.mem_append_right _ hrule)

/-- The leaf matters to partitions only. -/
theorem faultFor?_eq_fault? (h : a.algorithm ≠ .partition) : a.faultFor? leaf = a.fault? := by
  unfold fault? faultFor? layoutRules
  cases halg : a.algorithm with
  | partition => exact absurd halg h
  | cavern => rfl
  | scatter => rfl
  | unlisted c => rfl

theorem size_accepted (h : a.faultFor? leaf = none) :
    (8 ≤ a.width ∧ a.width ≤ 512) ∧ 8 ≤ a.height ∧ a.height ≤ 512 := by
  have hrules := common_accepted h
  simp only [commonRules, List.forall_mem_cons, within_eq_none] at hrules
  obtain ⟨hwidth, hheight, _⟩ := hrules
  exact ⟨hwidth, hheight⟩

/-- The three layouts are the only ones that are accepted. -/
theorem algorithm_accepted (h : a.faultFor? leaf = none) :
    a.algorithm = .partition ∨ a.algorithm = .cavern ∨ a.algorithm = .scatter := by
  have hrules := layout_accepted h
  unfold layoutRules at hrules
  cases halg : a.algorithm with
  | partition => exact .inl rfl
  | cavern => exact .inr (.inl rfl)
  | scatter => exact .inr (.inr rfl)
  | unlisted c =>
    rw [halg] at hrules
    cases hrules _ List.mem_cons_self

theorem partitionRules_accepted (hrules : ∀ rule ∈ a.partitionRules leaf, rule = none) :
    (1 ≤ a.partition.minRoom ∧ 0 ≤ a.partition.padding) ∧ leaf ≤ a.partition.minLeaf ∧
      a.partition.minLeaf ≤ a.width ∧ a.partition.minLeaf ≤ a.height := by
  simp only [partitionRules, List.forall_mem_cons, atLeast_eq_none, leafFits_eq_none] at hrules
  obtain ⟨hroom, hpadding, _, _, hleaf, hsides, _⟩ := hrules
  exact ⟨⟨hroom, hpadding⟩, hleaf, hsides⟩

theorem cavernRules_accepted (hrules : ∀ rule ∈ a.cavernRules, rule = none) :
    a.cavern.Sound := by
  simp only [cavernRules, List.forall_mem_cons, atLeast_eq_none, within_eq_none] at hrules
  obtain ⟨_, _, _, _, ⟨hretries, _⟩, hroom, _⟩ := hrules
  exact ⟨hretries, hroom⟩

theorem scatterRules_accepted (hrules : ∀ rule ∈ a.scatterRules, rule = none) :
    a.scatter.Sound a.width a.height := by
  simp only [scatterRules, List.forall_mem_cons, atLeast_eq_none, roomSidesAgree_eq_none,
    roomFits_eq_none] at hrules
  obtain ⟨htarget, hroom, hsides, hpadding, hattempts, ⟨hwidth, hheight⟩, _⟩ := hrules
  exact ⟨htarget, hroom, hsides, hpadding, hattempts, hwidth, hheight⟩

/-- A partition is accepted with the leaf that it is checked for, whichever that is. -/
theorem partition_acceptedFor (h : a.faultFor? leaf = none) (halg : a.algorithm = .partition) :
    (1 ≤ a.partition.minRoom ∧ 0 ≤ a.partition.padding) ∧ leaf ≤ a.partition.minLeaf ∧
      a.partition.minLeaf ≤ a.width ∧ a.partition.minLeaf ≤ a.height :=
  partitionRules_accepted (by simpa only [layoutRules, halg] using layout_accepted h)

theorem partition_accepted (h : a.fault? = none) (halg : a.algorithm = .partition) :
    a.partition.Sound a.width a.height := by
  obtain ⟨⟨hroom, hpadding⟩, hleaf, hwidth, hheight⟩ := partition_acceptedFor h halg
  exact ⟨hroom, hpadding, hleaf, hwidth, hheight⟩

theorem cavern_accepted (h : a.faultFor? leaf = none) (halg : a.algorithm = .cavern) :
    a.cavern.Sound :=
  cavernRules_accepted (by simpa only [layoutRules, halg] using layout_accepted h)

/-- Chambers have sides, there may be one, and they claim at least themselves. -/
theorem cavernRules_chambers (hrules : ∀ rule ∈ a.cavernRules, rule = none) :
    (1 ≤ a.cavern.minRoom ∧ 1 ≤ a.cavern.maxRooms) ∧ 0 ≤ a.cavern.roomPadding := by
  simp only [cavernRules, List.forall_mem_cons, atLeast_eq_none] at hrules
  obtain ⟨_, _, _, _, _, hroom, hrooms, hpadding, _⟩ := hrules
  exact ⟨⟨hroom, hrooms⟩, hpadding⟩

theorem roomPadding_accepted (h : a.faultFor? leaf = none) (halg : a.algorithm = .cavern) :
    0 ≤ a.cavern.roomPadding :=
  (cavernRules_chambers (by simpa only [layoutRules, halg] using layout_accepted h)).2

theorem scatter_accepted (h : a.faultFor? leaf = none) (halg : a.algorithm = .scatter) :
    a.scatter.Sound a.width a.height :=
  scatterRules_accepted (by simpa only [layoutRules, halg] using layout_accepted h)

end Template
end Dungeon
