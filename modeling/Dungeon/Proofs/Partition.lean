import Dungeon.Layout.Partition
import Dungeon.Proofs.Plan
import Dungeon.Proofs.Template

/-!
# Partitions

`Partition.Drawn` says all that the draws can come to: where a rectangle becomes a leaf and where it
is cut, where a leaf's room lies, and between which rooms the corridor of a cut runs. What holds of
a partition is then proved by induction over `Drawn`, and no proof looks at a draw again.

Results:
1. `Partition.draw_drawn`: every draw comes to a `Drawn` partition.
2. `Partition.Drawn.fits`, `Partition.Drawn.apart`: rooms keep the margin to the border of the
   rectangle, and twice the margin to each other.
3. `Partition.Drawn.spans`: the corridors are a spanning tree of the rooms.
4. `Layout.partition_spans`: all of this for the layout of an accepted template, also when it fails.
-/

namespace Dungeon

namespace Partition

/-! ## The closest rooms -/

theorem foldl_shorter_mem (links : List Link) (best : Option Link) :
    (links = [] ∧ best = none) ∨
      ∃ l, links.foldl Link.shorter best = some l ∧ (best = some l ∨ l ∈ links) := by
  induction links generalizing best with
  | nil =>
    cases best with
    | none => exact .inl ⟨rfl, rfl⟩
    | some l => exact .inr ⟨l, rfl, .inl rfl⟩
  | cons l rest ih =>
    right
    rw [List.foldl_cons]
    rcases ih (Link.shorter best l) with ⟨_, hnone⟩ | ⟨m, hfold, hm⟩
    · cases best with
      | none => cases hnone
      | some old =>
        simp only [Link.shorter] at hnone
        split at hnone <;> cases hnone
    · refine ⟨m, hfold, ?_⟩
      cases hm with
      | inl hm =>
        cases best with
        | none =>
          rw [Link.shorter, Option.some.injEq] at hm
          exact .inr (hm ▸ List.mem_cons_self)
        | some old =>
          rw [Link.shorter] at hm
          split at hm
          · rw [Option.some.injEq] at hm
            exact .inr (hm ▸ List.mem_cons_self)
          · exact .inl hm
      | inr hm => exact .inr (List.mem_cons_of_mem l hm)

theorem closest?_eq_foldl (as bs : List Room) :
    closest? as bs = (as.flatMap fun a => bs.map (Link.ofRooms a)).foldl Link.shorter none := by
  rw [List.foldl_flatMap]
  simp only [List.foldl_map]
  rfl

/-- Two lists with rooms have a shortest link, and its rooms are some of theirs. -/
theorem exists_closest {as bs : List Room} (ha : as ≠ []) (hb : bs ≠ []) :
    ∃ l, closest? as bs = some l ∧ l.first ∈ as ∧ l.second ∈ bs := by
  rw [closest?_eq_foldl]
  rcases foldl_shorter_mem (as.flatMap fun a => bs.map (Link.ofRooms a)) none with
    ⟨hnil, _⟩ | ⟨l, hfold, hl⟩
  · obtain ⟨a, ha'⟩ := List.exists_mem_of_ne_nil as ha
    obtain ⟨b, hb'⟩ := List.exists_mem_of_ne_nil bs hb
    have hmem : Link.ofRooms a b ∈ as.flatMap fun a => bs.map (Link.ofRooms a) :=
      List.mem_flatMap.mpr ⟨a, ha', List.mem_map_of_mem hb'⟩
    rw [hnil] at hmem
    cases hmem
  · cases hl with
    | inl hl => cases hl
    | inr hl =>
      obtain ⟨a, ha', hl⟩ := List.mem_flatMap.mp hl
      obtain ⟨b, hb', rfl⟩ := List.mem_map.mp hl
      exact ⟨_, hfold, ha', hb'⟩

/-! ## What a draw comes to -/

/-- The room is at least as large as asked, and keeps the margin to the border of the leaf. -/
structure FitsLeaf (p : PartitionParams) (leaf r : Rect) : Prop where
  width : p.minRoom ≤ r.w
  height : p.minRoom ≤ r.h
  left : leaf.x + p.margin ≤ r.x
  right : r.right + p.margin ≤ leaf.right
  top : leaf.y + p.margin ≤ r.y
  bottom : r.bottom + p.margin ≤ leaf.bottom

/-- A partition of a rectangle that draws can come to, with so many cuts left above each other and
rooms numbered from `id` on. -/
inductive Drawn (p : PartitionParams) : Nat → Nat → Rect → Partition → Prop where
  | leaf {depth id : Nat} {r : Rect} {room : Room} (fits : FitsLeaf p r room.toRect)
      (number : room.id = id)
      (stop : depth = 0 ∨ ∀ axis : Axis, axis.canCut p.minLeaf r = false) :
      Drawn p depth id r (leaf room)
  | cut {depth id : Nat} {r : Rect} {first second : Partition} {axis : Axis} {length : Int}
      {link : Link} {bend : Bend} (can : axis.canCut p.minLeaf r = true)
      (least : p.minLeaf ≤ length) (greatest : length ≤ axis.extent r - p.minLeaf)
      (one : Drawn p depth id (axis.split r length).1 first)
      (two : Drawn p depth (id + first.leafCount) (axis.split r length).2 second)
      (closest : closest? first.rooms second.rooms = some link) :
      Drawn p (depth + 1) id r
        (cut first second (some (Corridor.between bend link.first link.second)))

theorem rooms_ne_nil (t : Partition) : t.rooms ≠ [] := by
  induction t with
  | leaf room => exact List.cons_ne_nil room []
  | cut first second corridor ih _ => exact fun h => ih (List.append_eq_nil_iff.mp h).1

theorem length_rooms (t : Partition) : t.rooms.length = t.leafCount := by
  induction t with
  | leaf room => rfl
  | cut first second corridor ih ih' => rw [rooms, leafCount, List.length_append, ih, ih']

theorem drawRoom_ensures {p : PartitionParams} {id : Nat} {leaf : Rect}
    (hw : p.neededLeaf ≤ leaf.w) (hh : p.neededLeaf ≤ leaf.h) :
    (drawRoom p id leaf).Ensures fun room => FitsLeaf p leaf room.toRect ∧ room.id = id := by
  unfold PartitionParams.neededLeaf at hw hh
  unfold drawRoom
  refine (Draw.between_ensures (by omega)).bind fun w hw' => ?_
  refine (Draw.between_ensures (by omega)).bind fun h hh' => ?_
  refine (Draw.between_ensures (by omega)).bind fun x hx => ?_
  refine (Draw.between_ensures (by omega)).bind fun y hy => ?_
  refine .pure ⟨⟨hw'.1, hh'.1, hx.1, ?_, hy.1, ?_⟩, rfl⟩
  · simp only [Room.ofRect, Rect.right]
    omega
  · simp only [Room.ofRect, Rect.bottom]
    omega

theorem Axis.canCut_orOther {minLeaf : Int} {r : Rect} (wanted : Axis)
    (h : ∃ axis : Axis, axis.canCut minLeaf r = true) :
    (wanted.orOther minLeaf r).canCut minLeaf r = true := by
  obtain ⟨axis, haxis⟩ := h
  unfold orOther
  split
  · next hwanted => exact hwanted
  · next hwanted =>
    -- There are only two axes, so the one that can be cut is the other one.
    have hother : axis = wanted.other := by
      cases axis <;> cases wanted
      · exact absurd haxis hwanted
      · rfl
      · rfl
      · exact absurd haxis hwanted
    exact hother ▸ haxis

/-- If some axis can be cut, the one that is drawn can. -/
theorem drawAxis_ensures {minLeaf : Int} {r : Rect}
    (h : ∃ axis : Axis, axis.canCut minLeaf r = true) :
    (drawAxis minLeaf r).Ensures fun axis => axis.canCut minLeaf r = true :=
  (Draw.Ensures.trivial _).bind fun wanted _ => .pure (wanted.canCut_orOther h)

theorem drawCorridor_ensures (first second : Partition) :
    (drawCorridor first second).Ensures fun corridor => ∃ link bend,
      closest? first.rooms second.rooms = some link ∧
        corridor = some (Corridor.between bend link.first link.second) := by
  obtain ⟨link, hlink, _⟩ := exists_closest first.rooms_ne_nil second.rooms_ne_nil
  unfold drawCorridor
  rw [hlink]
  refine (Corridor.draw_ensures link.first link.second).bind fun c hc => ?_
  obtain ⟨bend, rfl⟩ := hc
  exact .pure ⟨link, bend, rfl, rfl⟩

/-- A cut leaves two parts with both sides as long as the least leaf, or as anything shorter that the
rectangle has for its sides. -/
theorem Axis.le_split {minLeaf least : Int} {axis : Axis} {r : Rect} {length : Int}
    (hleast : least ≤ minLeaf) (hw : least ≤ r.w) (hh : least ≤ r.h)
    (hlength : minLeaf ≤ length) (hlength' : length ≤ axis.extent r - minLeaf) :
    (least ≤ (axis.split r length).1.w ∧ least ≤ (axis.split r length).1.h) ∧
      least ≤ (axis.split r length).2.w ∧ least ≤ (axis.split r length).2.h := by
  cases axis with
  | columns =>
    simp only [extent] at hlength'
    exact ⟨⟨by simp only [split]; omega, hh⟩, by simp only [split]; omega, hh⟩
  | rows =>
    simp only [extent] at hlength'
    exact ⟨⟨hw, by simp only [split]; omega⟩, hw, by simp only [split]; omega⟩

/-- Every draw comes to a partition with rooms that fit their leaves, as long as the rectangle and
the parts that cuts may leave are large enough for one. -/
theorem draw_drawn {p : PartitionParams} (hp : p.neededLeaf ≤ p.minLeaf) (depth id : Nat) {r : Rect}
    (hw : p.neededLeaf ≤ r.w) (hh : p.neededLeaf ≤ r.h) :
    (draw p depth id r).Ensures (Drawn p depth id r) := by
  induction depth generalizing id r with
  | zero =>
    unfold draw
    refine (drawRoom_ensures hw hh).bind fun room hroom => .pure ?_
    exact .leaf hroom.1 hroom.2 (.inl rfl)
  | succ depth ih =>
    unfold draw
    split
    · next hcan =>
      have hsome : ∃ axis : Axis, axis.canCut p.minLeaf r = true := by
        cases Bool.or_eq_true_iff.mp hcan with
        | inl h => exact ⟨.rows, h⟩
        | inr h => exact ⟨.columns, h⟩
      refine (drawAxis_ensures hsome).bind fun axis haxis => ?_
      have hextent : p.minLeaf ≤ axis.extent r - p.minLeaf := by
        rw [Axis.canCut, decide_eq_true_eq] at haxis
        omega
      refine (Draw.between_ensures hextent).bind fun length hlength => ?_
      -- Both parts are large enough again, so the induction goes on with each of them.
      obtain ⟨⟨hw₁, hh₁⟩, hw₂, hh₂⟩ := axis.le_split hp hw hh hlength.1 hlength.2
      refine (ih id hw₁ hh₁).bind fun first hfirst => ?_
      refine (ih (id + first.leafCount) hw₂ hh₂).bind fun second hsecond => ?_
      refine (drawCorridor_ensures first second).bind fun corridor hcorridor => .pure ?_
      obtain ⟨link, bend, hclosest, rfl⟩ := hcorridor
      exact .cut haxis hlength.1 hlength.2 hfirst hsecond hclosest
    · next hcan =>
      have hnone : ∀ axis : Axis, axis.canCut p.minLeaf r = false := by
        rw [Bool.or_eq_true_iff, not_or, Bool.not_eq_true, Bool.not_eq_true] at hcan
        intro axis
        cases axis with
        | columns => exact hcan.2
        | rows => exact hcan.1
      refine (drawRoom_ensures hw hh).bind fun room hroom => .pure ?_
      exact .leaf hroom.1 hroom.2 (.inr hnone)

/-! ## Where the rooms lie -/

section Drawn

variable {p : PartitionParams} {depth id : Nat} {r : Rect} {t : Partition}

/-- What fits a part of a rectangle fits the rectangle. -/
theorem FitsLeaf.mono {leaf s : Rect} (h : FitsLeaf p leaf s) (hx : r.x ≤ leaf.x)
    (hright : leaf.right ≤ r.right) (hy : r.y ≤ leaf.y) (hbottom : leaf.bottom ≤ r.bottom) :
    FitsLeaf p r s :=
  ⟨h.width, h.height, (by have := h.left; omega), (by have := h.right; omega),
    (by have := h.top; omega), (by have := h.bottom; omega)⟩

section Split

variable {axis : Axis} {length : Int} {s s' : Rect}

theorem FitsLeaf.of_first (hlength : length ≤ axis.extent r)
    (h : FitsLeaf p (axis.split r length).1 s) : FitsLeaf p r s := by
  cases axis with
  | columns =>
    rw [Axis.extent] at hlength
    exact h.mono (le_refl _) (by simp only [Axis.split, Rect.right]; omega) (le_refl _) (le_refl _)
  | rows =>
    rw [Axis.extent] at hlength
    exact h.mono (le_refl _) (le_refl _) (le_refl _) (by simp only [Axis.split, Rect.bottom]; omega)

theorem FitsLeaf.of_second (hlength : 0 ≤ length)
    (h : FitsLeaf p (axis.split r length).2 s) : FitsLeaf p r s := by
  cases axis with
  | columns =>
    exact h.mono (by simp only [Axis.split]; omega) (by simp only [Axis.split, Rect.right]; omega)
      (le_refl _) (le_refl _)
  | rows =>
    exact h.mono (le_refl _) (le_refl _) (by simp only [Axis.split]; omega)
      (by simp only [Axis.split, Rect.bottom]; omega)

/-- Both rooms keep the margin to the border between the parts. -/
theorem FitsLeaf.apart (h : FitsLeaf p (axis.split r length).1 s)
    (h' : FitsLeaf p (axis.split r length).2 s') : s.meets s' (2 * p.margin) = false := by
  apply Rect.meets_eq_false_of_gap
  cases axis with
  | columns =>
    have hright := h.right
    have hleft := h'.left
    simp only [Axis.split, Rect.right] at hright hleft ⊢
    omega
  | rows =>
    have hbottom := h.bottom
    have htop := h'.top
    simp only [Axis.split, Rect.bottom] at hbottom htop ⊢
    omega

end Split

theorem Drawn.fits (hp : 0 ≤ p.minLeaf) (h : Drawn p depth id r t) :
    ∀ room ∈ t.rooms, FitsLeaf p r room.toRect := by
  induction h with
  | leaf fits _ _ =>
    intro room hroom
    rw [rooms, List.mem_singleton] at hroom
    subst hroom
    exact fits
  | cut _ least greatest _ _ _ ih ih' =>
    intro room hroom
    cases List.mem_append.mp hroom with
    | inl hroom => exact (ih room hroom).of_first (by omega)
    | inr hroom => exact (ih' room hroom).of_second (by omega)

/-- Any two rooms are apart: some cut of the partition runs between them. -/
theorem Drawn.apart (hp : 0 ≤ p.minLeaf) (h : Drawn p depth id r t) :
    t.rooms.Pairwise fun a b => a.meets b.toRect (2 * p.margin) = false := by
  induction h with
  | leaf _ _ _ => exact List.pairwise_singleton _ _
  | cut _ _ _ one two _ ih ih' =>
    refine List.pairwise_append.mpr ⟨ih, ih', fun a ha b hb => ?_⟩
    exact (one.fits hp a ha).apart (two.fits hp b hb)

/-! ## Numbers and corridors -/

theorem Drawn.number (h : Drawn p depth id r t) :
    ∀ (n : Nat) (room : Room), t.rooms[n]? = some room → room.id = (id : Int) + n := by
  induction h with
  | leaf _ number _ =>
    intro n room hroom
    obtain ⟨hn, hroom⟩ := List.getElem?_eq_some_iff.mp hroom
    simp only [rooms, List.length_singleton] at hn
    have hzero : n = 0 := by omega
    subst hzero
    rw [← hroom, Nat.cast_zero, add_zero]
    exact number
  | @cut depth id r first second axis length link bend _ _ _ one two _ ih ih' =>
    intro n room hroom
    rw [rooms] at hroom
    cases Nat.lt_or_ge n first.rooms.length with
    | inl hn =>
      rw [List.getElem?_append_left hn] at hroom
      exact ih n room hroom
    | inr hn =>
      -- The numbers of the second part start where those of the first one end.
      rw [List.getElem?_append_right hn] at hroom
      have hnumber := ih' _ room hroom
      rw [length_rooms] at hn hnumber
      omega

theorem Drawn.number_mem (h : Drawn p depth id r t) {room : Room} (hroom : room ∈ t.rooms) :
    (id : Int) ≤ room.id ∧ room.id < (id : Int) + t.leafCount := by
  obtain ⟨n, hn⟩ := List.mem_iff_getElem?.mp hroom
  have hlt := (List.getElem?_eq_some_iff.mp hn).1
  rw [length_rooms] at hlt
  rw [h.number n room hn]
  omega

/-- The rooms of the closest link are rooms of the two parts. -/
theorem closest_mem {first second : Partition} {link : Link}
    (h : closest? first.rooms second.rooms = some link) :
    link.first ∈ first.rooms ∧ link.second ∈ second.rooms := by
  obtain ⟨l, hl, hmem⟩ := exists_closest first.rooms_ne_nil second.rooms_ne_nil
  rw [h, Option.some.injEq] at hl
  exact hl ▸ hmem

theorem Drawn.spans (h : Drawn p depth id r t) : Spans id (id + t.leafCount) t.corridors := by
  induction h with
  | leaf _ _ _ => exact Spans.single _
  | cut _ _ _ one two closest ih ih' =>
    obtain ⟨hfirst, hsecond⟩ := closest_mem closest
    have hA := one.number_mem hfirst
    have hB := two.number_mem hsecond
    push_cast [leafCount] at *
    rw [← add_assoc]
    exact ih.join ih' hA hB

theorem Drawn.between (h : Drawn p depth id r t) :
    ∀ c ∈ t.corridors, ∃ a ∈ t.rooms, ∃ b ∈ t.rooms, ∃ bend, c = Corridor.between bend a b := by
  induction h with
  | leaf _ _ _ => exact fun c hc => by cases hc
  | cut _ _ _ _ _ closest ih ih' =>
    intro c hc
    simp only [corridors, List.mem_append, Option.toList_some, List.mem_singleton] at hc
    rcases hc with (hc | hc) | rfl
    · obtain ⟨a, ha, b, hb, bend, rfl⟩ := ih c hc
      exact ⟨a, List.mem_append_left _ ha, b, List.mem_append_left _ hb, bend, rfl⟩
    · obtain ⟨a, ha, b, hb, bend, rfl⟩ := ih' c hc
      exact ⟨a, List.mem_append_right _ ha, b, List.mem_append_right _ hb, bend, rfl⟩
    · obtain ⟨hfirst, hsecond⟩ := closest_mem closest
      exact ⟨_, List.mem_append_left _ hfirst, _, List.mem_append_right _ hsecond, _, rfl⟩

theorem Drawn.wellPlanned {width height : Int} (hp : 0 ≤ p.minLeaf)
    (h : Drawn p depth 0 ⟨0, 0, width, height⟩ t) :
    WellPlanned width height p.minRoom p.margin (2 * p.margin) t.rooms t.corridors where
  number := fun n room hroom => by
    have hid := h.number n room hroom
    omega
  sides := fun room hroom => ⟨(h.fits hp room hroom).width, (h.fits hp room hroom).height⟩
  border := fun room hroom => by
    obtain ⟨_, _, hleft, hright, htop, hbottom⟩ := h.fits hp room hroom
    simp only [Rect.right, Rect.bottom] at *
    omega
  apart := h.apart hp
  between := h.between
  spans := by
    have hspans := h.spans
    rw [Nat.cast_zero, zero_add, ← length_rooms] at hspans
    exact hspans

end Drawn

end Partition

/-! ## The layout -/

/-- What a layout leaves is what a draw comes to, whether or not it has enough rooms. -/
theorem Layout.partition_drawn {p : PartitionParams} {m : Map} (report : Report)
    (h : p.Sound m.grid.width m.grid.height) :
    (Layout.partition p m report).Ensures fun laid => ∃ tree,
      Partition.Drawn p p.maxDepth.toNat 0 m.grid.frame tree ∧
        laid = if (tree.rooms.length : Int) < p.minRooms then
            .failed (m.ofPlan tree.rooms tree.corridors) { report with leaves := tree.rooms.length }
              (.tooFewRooms p.maxDepth tree.rooms.length p.minRooms)
          else { map := m.ofPlan tree.rooms tree.corridors,
                 report := { report with leaves := tree.rooms.length } } := by
  unfold Layout.partition
  refine (Partition.draw_drawn h.leaf p.maxDepth.toNat 0 (h.leaf.trans h.width)
    (h.leaf.trans h.height)).bind fun tree htree => .pure ⟨tree, htree, ?_⟩
  rw [tree.length_rooms]

/-- The rooms and corridors of what a layout leaves are a plan with the margins of the leaves. -/
theorem Layout.partition_ensures {p : PartitionParams} {m : Map} (report : Report)
    (h : p.Sound m.grid.width m.grid.height) :
    (Layout.partition p m report).Ensures fun laid => ∃ rooms corridors,
      WellPlanned m.grid.width m.grid.height p.minRoom p.margin (2 * p.margin) rooms corridors ∧
        laid = if (rooms.length : Int) < p.minRooms then
            .failed (m.ofPlan rooms corridors) { report with leaves := rooms.length }
              (.tooFewRooms p.maxDepth rooms.length p.minRooms)
          else { map := m.ofPlan rooms corridors, report := { report with leaves := rooms.length } } := by
  refine (Layout.partition_drawn report h).mono fun laid hlaid => ?_
  obtain ⟨tree, htree, hlaid⟩ := hlaid
  exact ⟨tree.rooms, tree.corridors, htree.wellPlanned h.minLeaf_pos.le, hlaid⟩

/-- The layout of an accepted template leaves one room for each leaf, of the least size at least and
with the margin to the map, any two of them with twice the margin between them. Its corridors join
them, each of them two groups of rooms that were apart before, from center to center. -/
theorem Layout.partition_spans (a : Template) (haccepted : a.fault? = none)
    (halgorithm : a.algorithm = .partition) (m : Map) (hwidth : m.grid.width = a.width)
    (hheight : m.grid.height = a.height) (report : Report) (s : Source) :
    let laid := ((Layout.partition a.partition m report).run s).1
    let rooms := laid.map.rooms
    let corridors := laid.map.corridors
    let margin := a.partition.margin
    (rooms.length : Int) = laid.report.leaves ∧
      (∀ (i : Nat) (r : Room), rooms[i]? = some r → r.id = i) ∧
      (∀ r ∈ rooms, (a.partition.minRoom ≤ r.w ∧ a.partition.minRoom ≤ r.h) ∧
        (margin ≤ r.x ∧ r.right + margin ≤ a.width) ∧
        margin ≤ r.y ∧ r.bottom + margin ≤ a.height) ∧
      (∀ (i j : Nat) (r t : Room), rooms[i]? = some r → rooms[j]? = some t → i ≠ j →
        r.meets t.toRect (2 * margin) = false ∧ r.meets t.toRect a.partition.padding = false) ∧
      Spans 0 rooms.length corridors ∧
      ∀ c ∈ corridors, ∃ r t, rooms[c.roomA.toNat]? = some r ∧ rooms[c.roomB.toNat]? = some t ∧
        Walks c.path ∧ c.path.head? = some r.center ∧ c.path.getLast? = some t.center := by
  have hsound : a.partition.Sound m.grid.width m.grid.height := by
    rw [hwidth, hheight]
    exact Template.partition_accepted haccepted halgorithm
  obtain ⟨rooms, corridors, hplan, hlaid⟩ := Layout.partition_ensures report hsound s
  have hmap : ((Layout.partition a.partition m report).run s).1.map = m.ofPlan rooms corridors := by
    rw [hlaid]
    split <;> rfl
  have hleaves : ((Layout.partition a.partition m report).run s).1.report.leaves = rooms.length := by
    rw [hlaid]
    split <;> rfl
  simp only [hmap, Map.ofPlan, ← hwidth, ← hheight]
  refine ⟨hleaves.symm, hplan.number, fun r hr => ⟨hplan.sides r hr, hplan.border r hr⟩, ?_,
    hplan.spans, ?_⟩
  · intro i j r t hr ht hij
    have hapart := hplan.apart_of_ne hr ht hij
    exact ⟨hapart, Rect.meets_mono a.partition.padding_le_margins hapart⟩
  · intro c hc
    obtain ⟨r, t, hr, ht, bend, hpath⟩ := hplan.path_between hc
    refine ⟨r, t, hr, ht, ?_⟩
    rw [hpath]
    exact ⟨bend.path_walks _ _, bend.head?_path _ _, bend.getLast?_path _ _⟩

/-- The default template, laid out from seed 1: its corridors span its rooms. -/
theorem Layout.partition_spans_default :
    let laid := ((Layout.partition ({} : Template).partition (.ofSize 48 32) {}).run (.ofSeed 1)).1
    Spans 0 laid.map.rooms.length laid.map.corridors :=
  (Layout.partition_spans {} (by decide) rfl (.ofSize 48 32) rfl rfl {} (.ofSeed 1)).2.2.2.2.1

end Dungeon
