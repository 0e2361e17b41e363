import Dungeon.Proofs.Scatter

/-!
# Numbers of 32 bits

Parameters are whole numbers of 32 bits, and the layouts add and multiply them in as many, as the
check of a template does. Paddings, sides, the number of rooms and the number of attempts have least
values only, so a template may be accepted although what is computed from it has no room in 32 bits.

For a partition the map bounds the least leaf, and this would bound the room and the padding. But
the check compares the leaf with the sum that is left in a machine word, which may be small although
the room or the padding is large. Where the sums have room, the check in machine words is the exact
one.

Results:
1. `Template.wordFault?_eq_fault?`: the check in machine words is exact where its sums have room.
2. `PartitionParams.fits_iff`, `CavernParams.fits_iff`, `ScatterParams.Sound.fits_iff`: when what a
   layout computes has room.
3. `Template.numbersFit_iff`: the bounds that the check in machine words leaves out.
4. `Template.overflows_accepted`: accepted templates that are beyond them.
-/

namespace Dungeon

open Text (Fits32)

theorem fits32_iff_of_nonneg {n : ℤ} (h : 0 ≤ n) : Fits32 n ↔ n < 2 ^ 31 := by
  unfold Fits32
  omega

theorem wrap32_eq_self {n : ℤ} (h : Fits32 n) : wrap32 n = n := by
  unfold Fits32 at h
  exact Int.bmod_eq_of_le_mul_two (by omega) (by omega)

/-! ## What layouts compute -/

/-- What a partition computes from its parameters has room. -/
structure PartitionParams.Fits (p : PartitionParams) : Prop where
  padding : Fits32 (p.padding + 1)
  leaf : Fits32 (p.minRoom + 2 * p.margin)

/-- The ends of the ring around every point of the map have room. -/
structure CavernParams.Fits (p : CavernParams) (width height : ℤ) : Prop where
  columns : ∀ x, 0 ≤ x → x < width → Fits32 (x + p.roomPadding)
  rows : ∀ y, 0 ≤ y → y < height → Fits32 (y + p.roomPadding)

/-- The number of attempts and the ends of every padded room inside the map have room. -/
structure ScatterParams.Fits (p : ScatterParams) (width height : ℤ) : Prop where
  attempts : Fits32 (p.targetRooms * p.attemptsPerRoom)
  rooms : ∀ r : Rect, FitsMap width height 1 0 r →
    Fits32 (r.right + p.padding) ∧ Fits32 (r.bottom + p.padding)

/-- What the chosen layout computes from the parameters has room. -/
def Template.NumbersFit (a : Template) : Prop :=
  match a.algorithm with
  | .partition => a.partition.Fits
  | .cavern => a.cavern.Fits a.width a.height
  | .scatter => a.scatter.Fits a.width a.height
  | .unlisted _ => True

/-! ## Checks in machine words -/

theorem PartitionParams.margins_le (p : PartitionParams) :
    2 * p.margin ≤ max 2 (p.padding + 1) := by
  rw [margin, Int.tdiv_eq_ediv, show Int.sign 2 = 1 from rfl]
  split
  · omega
  · omega

/-- The margins on both sides have room if the padding and one more tile have. -/
theorem PartitionParams.fits32_margins {p : PartitionParams} (h : Fits32 (p.padding + 1)) :
    Fits32 (2 * p.margin) := by
  have hone := p.one_le_margin
  have hmargins := p.margins_le
  unfold Fits32 at h ⊢
  omega

theorem PartitionParams.Fits.wordNeededLeaf {p : PartitionParams} (h : p.Fits) :
    p.wordNeededLeaf = p.neededLeaf := by
  have hmargin : p.wordMargin = p.margin := by
    rw [wordMargin, wrap32_eq_self h.padding]
    rfl
  rw [PartitionParams.wordNeededLeaf, hmargin, wrap32_eq_self (fits32_margins h.padding),
    wrap32_eq_self h.leaf]
  rfl

/-- The check in machine words is exact for templates whose numbers have room, accepted or not. -/
theorem Template.wordFault?_eq_fault? {a : Template} (h : a.NumbersFit) :
    a.wordFault? = a.fault? := by
  by_cases halg : a.algorithm = .partition
  · rw [NumbersFit, halg] at h
    rw [wordFault?, h.wordNeededLeaf]
    rfl
  · exact faultFor?_eq_fault? halg

/-! ## Bounds -/

/-- The least leaf takes in the padding. -/
theorem PartitionParams.fits_iff {p : PartitionParams} (hroom : 1 ≤ p.minRoom)
    (hpadding : 0 ≤ p.padding) :
    p.Fits ↔ p.minRoom + 2 * max 1 ((p.padding + 1) / 2) < 2 ^ 31 := by
  have hone := p.one_le_margin
  have hmargins := p.padding_le_margins
  have hmargin : p.margin = max 1 ((p.padding + 1) / 2) := by
    rw [margin, Int.tdiv_eq_ediv_of_nonneg (by omega)]
  rw [← hmargin]
  constructor
  · intro h
    exact (fits32_iff_of_nonneg (by omega)).mp h.leaf
  · intro h
    constructor
    case padding => exact (fits32_iff_of_nonneg (by omega)).mpr (by omega)
    case leaf => exact (fits32_iff_of_nonneg (by omega)).mpr h

/-- The last column and the last row have the farthest rings. -/
theorem CavernParams.fits_iff {p : CavernParams} {width height : ℤ} (hpadding : 0 ≤ p.roomPadding)
    (hwidth : 0 < width) (hheight : 0 < height) :
    p.Fits width height ↔ p.roomPadding + max width height ≤ 2 ^ 31 := by
  constructor
  · intro h
    have hcolumn := (h.columns (width - 1) (by omega) (by omega)).2
    have hrow := (h.rows (height - 1) (by omega) (by omega)).2
    omega
  · intro h
    constructor
    case columns =>
      intro x hx hwidth
      rw [fits32_iff_of_nonneg (by omega)]
      omega
    case rows =>
      intro y hy hheight
      rw [fits32_iff_of_nonneg (by omega)]
      omega

/-- A room that fills the map ends last. -/
theorem ScatterParams.Sound.fits_iff {p : ScatterParams} {width height : ℤ}
    (h : p.Sound width height) :
    p.Fits width height ↔
      p.targetRooms * p.attemptsPerRoom < 2 ^ 31 ∧ p.padding + max width height < 2 ^ 31 := by
  have hpadding := h.padding
  have hroom := h.room
  have hwidth := h.width
  have hheight := h.height
  have hattempts : 0 ≤ p.targetRooms * p.attemptsPerRoom :=
    mul_nonneg (by linarith [h.target]) (by linarith [h.attempts])
  constructor
  · intro hfits
    have hwhole : FitsMap width height 1 0 ⟨0, 0, width, height⟩ := by
      constructor <;> simp only [Rect.right, Rect.bottom] <;> omega
    obtain ⟨hright, hbottom⟩ := hfits.rooms _ hwhole
    refine ⟨(fits32_iff_of_nonneg hattempts).mp hfits.attempts, ?_⟩
    have hright := hright.2
    have hbottom := hbottom.2
    simp only [Rect.right, Rect.bottom] at hright hbottom
    omega
  · rintro ⟨hproduct, hends⟩
    refine ⟨(fits32_iff_of_nonneg hattempts).mpr hproduct, fun r hr => ?_⟩
    have hsides := hr.sides
    have hcolumns := hr.columns
    have hrows := hr.rows
    simp only [Rect.right, Rect.bottom] at hcolumns hrows ⊢
    rw [fits32_iff_of_nonneg (by omega), fits32_iff_of_nonneg (by omega)]
    omega

/-! ## Accepted templates -/

namespace Template

/-- A template is accepted by the check in machine words. What is computed from it has room in 32
bits exactly if, for a partition, the least room with its margins has, for scattered rooms, all
attempts together and a padded map have, and, for a cave, a map with its ring has. The check itself
asks for none of this. If there is room, then the exact rules accept the template too. -/
theorem numbersFit_iff {a : Template} (h : a.wordFault? = none) :
    (a.NumbersFit ↔
      (a.algorithm = .partition →
        a.partition.minRoom + 2 * max 1 ((a.partition.padding + 1) / 2) < 2 ^ 31) ∧
      (a.algorithm = .scatter → a.scatter.targetRooms * a.scatter.attemptsPerRoom < 2 ^ 31 ∧
        a.scatter.padding + max a.width a.height < 2 ^ 31) ∧
      (a.algorithm = .cavern → a.cavern.roomPadding + max a.width a.height ≤ 2 ^ 31)) ∧
    (a.NumbersFit → a.fault? = none) := by
  refine ⟨?_, fun hfits => (wordFault?_eq_fault? hfits).symm.trans h⟩
  obtain ⟨⟨hwidth, -⟩, hheight, -⟩ := size_accepted h
  unfold NumbersFit
  rcases algorithm_accepted h with halg | halg | halg
  · obtain ⟨⟨hroom, hpadding⟩, -⟩ := partition_acceptedFor h halg
    simp [halg, PartitionParams.fits_iff hroom hpadding]
  · have hiff := CavernParams.fits_iff (roomPadding_accepted h halg) (by omega : 0 < a.width)
      (by omega : 0 < a.height)
    simp [halg, hiff]
  · simp [halg, (scatter_accepted h halg).fits_iff]

/-- The default parameters of all three layouts. -/
theorem numbersFit_iff_defaults :
    (({} : Template).wordFault? = none ∧ ({} : Template).NumbersFit ∧
        ({} : Template).fault? = none) ∧
      (({ algorithm := .scatter } : Template).wordFault? = none ∧
        ({ algorithm := .scatter } : Template).NumbersFit) ∧
      ({ algorithm := .cavern } : Template).wordFault? = none ∧
        ({ algorithm := .cavern } : Template).NumbersFit := by
  have hpartition : ({} : Template).wordFault? = none := by decide +kernel
  have hscatter : ({ algorithm := .scatter } : Template).wordFault? = none := by decide +kernel
  have hcavern : ({ algorithm := .cavern } : Template).wordFault? = none := by decide +kernel
  obtain ⟨hfits, hexact⟩ := numbersFit_iff hpartition
  have hroom : ({} : Template).NumbersFit :=
    hfits.mpr ⟨fun _ => by decide, (nomatch ·), (nomatch ·)⟩
  refine ⟨⟨hpartition, hroom, hexact hroom⟩, ⟨hscatter, ?_⟩, hcavern, ?_⟩
  · exact (numbersFit_iff hscatter).1.mpr
      ⟨(nomatch ·), fun _ => by decide, (nomatch ·)⟩
  · exact (numbersFit_iff hcavern).1.mpr
      ⟨(nomatch ·), (nomatch ·), fun _ => by decide⟩

/-- The template is accepted by the check in machine words and its fields have 32 bits, but what is
computed from it has not. -/
structure Overflows (a : Template) : Prop where
  accepted : a.wordFault? = none
  fields : ∀ field : IntField, Fits32 (field.get a)
  numbers : ¬ a.NumbersFit

theorem overflows_of_partition {a : Template} (haccepted : a.wordFault? = none)
    (halg : a.algorithm = .partition) (hfields : ∀ field : IntField, Fits32 (field.get a))
    (hlarge : 2 ^ 31 ≤ a.partition.minRoom + 2 * max 1 ((a.partition.padding + 1) / 2)) :
    a.Overflows where
  accepted := haccepted
  fields := hfields
  numbers := fun hfits => by
    rw [NumbersFit, halg] at hfits
    obtain ⟨⟨hroom, hpadding⟩, -⟩ := partition_acceptedFor haccepted halg
    exact hlarge.not_gt ((PartitionParams.fits_iff hroom hpadding).mp hfits)

theorem overflows_of_scatter {a : Template} (haccepted : a.wordFault? = none)
    (halg : a.algorithm = .scatter) (hfields : ∀ field : IntField, Fits32 (field.get a))
    (hlarge : 2 ^ 31 ≤ a.scatter.targetRooms * a.scatter.attemptsPerRoom ∨
      2 ^ 31 ≤ a.scatter.padding + max a.width a.height) : a.Overflows where
  accepted := haccepted
  fields := hfields
  numbers := fun hfits => by
    rw [NumbersFit, halg] at hfits
    obtain ⟨hattempts, hends⟩ := (scatter_accepted haccepted halg).fits_iff.mp hfits
    exact hlarge.elim hattempts.not_ge hends.not_ge

theorem overflows_of_cavern {a : Template} (haccepted : a.wordFault? = none)
    (halg : a.algorithm = .cavern) (hfields : ∀ field : IntField, Fits32 (field.get a))
    (hlarge : 2 ^ 31 < a.cavern.roomPadding + max a.width a.height) : a.Overflows where
  accepted := haccepted
  fields := hfields
  numbers := fun hfits => by
    rw [NumbersFit, halg] at hfits
    obtain ⟨⟨hwidth, -⟩, hheight, -⟩ := size_accepted haccepted
    have hends := (CavernParams.fits_iff (roomPadding_accepted haccepted halg) (by omega)
      (by omega)).mp hfits
    exact hlarge.not_ge hends

/-- Accepted templates from which numbers beyond 32 bits are computed: the number of all attempts,
whose last 32 bits are zero, so that none would be made, the ends of rooms with a gap between them
and of the ring around chambers, and the padding and the least room of a partition. The last two are
refused by the exact rules. -/
theorem overflows_accepted :
    let attempts : ScatterParams := { targetRooms := 65536, attemptsPerRoom := 65536 }
    let padded : Template := { partition := { padding := 2147483647 } }
    let roomy : Template := { partition := { minRoom := 2147483647 } }
    Overflows { algorithm := .scatter, scatter := attempts } ∧
      wrap32 (attempts.targetRooms * attempts.attemptsPerRoom) = 0 ∧
      Overflows { algorithm := .scatter, scatter := { padding := 2147483647 } } ∧
      Overflows { algorithm := .cavern, cavern := { roomPadding := 2147483647 } } ∧
      (Overflows padded ∧ padded.fault? ≠ none) ∧ Overflows roomy ∧ roomy.fault? ≠ none := by
  intro attempts padded roomy
  refine ⟨?attempts, by decide, ?gap, ?ring, ⟨?padding, by decide +kernel⟩, ?room,
    by decide +kernel⟩
  case attempts =>
    exact overflows_of_scatter (by decide +kernel) rfl (fun field => by cases field <;> decide)
      (.inl (by decide))
  case gap =>
    exact overflows_of_scatter (by decide +kernel) rfl (fun field => by cases field <;> decide)
      (.inr (by decide))
  case ring =>
    exact overflows_of_cavern (by decide +kernel) rfl (fun field => by cases field <;> decide)
      (by decide)
  case padding =>
    exact overflows_of_partition (by decide +kernel) rfl (fun field => by cases field <;> decide)
      (by decide)
  case room =>
    exact overflows_of_partition (by decide +kernel) rfl (fun field => by cases field <;> decide)
      (by decide)

end Template
end Dungeon
