import Dungeon.Proofs.Partition

/-!
# The corridor of a cut

Every cut of a partition gets a corridor. It runs between the two rooms on either side of the cut
whose centers are closest, and of several such pairs it is the one with the lowest numbers. The
search for it goes through the rooms in the order of their numbers and keeps the first of the
shortest links, so what has to be known is how the numbers of the two sides lie to each other.

A search on machine words starts from a distance below which links have to stay. On maps of the
sizes that are accepted all links do.

Results:
1. `Partition.foldl_shorter_first`: the search finds the first of the shortest links.
2. `Partition.closestBelow?_eq`: a limit above all distances makes no difference to it.
3. `Partition.Drawn.of_isPart`: what draws can come to holds of every part of what they come to.
4. `Partition.Drawn.numbers`: the rooms of a part have the numbers of a block, in order.
5. `Layout.partition_closest`: the corridors of all cuts in the layout of an accepted template.
-/

namespace Dungeon

theorem Point.distSq_eq (p q : Point) :
    p.distSq q = (p.x - q.x) ^ 2 + (p.y - q.y) ^ 2 := by
  rw [sq, sq]
  rfl

theorem Point.distSq_le {p q : Point} {n : Int} (hx : |p.x - q.x| ≤ n) (hy : |p.y - q.y| ≤ n) :
    p.distSq q ≤ n * n + n * n := by
  have hxx := mul_self_le_mul_self (abs_nonneg _) hx
  have hyy := mul_self_le_mul_self (abs_nonneg _) hy
  rw [abs_mul_abs_self] at hxx hyy
  exact add_le_add hxx hyy

namespace Partition

/-! ## The first of the shortest links -/

/-- The first link comes before the second, by the numbers of their rooms. -/
def Link.Before (l m : Link) : Prop :=
  l.first.id < m.first.id ∨ l.first.id = m.first.id ∧ l.second.id < m.second.id

/-- The square of the distance between the centers of two rooms, which lie half a side from their
upper left corners. -/
def centersApart (a b : Room) : ℤ :=
  (a.x + a.w.tdiv 2 - (b.x + b.w.tdiv 2)) ^ 2 + (a.y + a.h.tdiv 2 - (b.y + b.h.tdiv 2)) ^ 2

theorem distance_ofRooms (a b : Room) : (Link.ofRooms a b).distance = centersApart a b :=
  Point.distSq_eq a.center b.center

/-- The pair is the first of those with the least distance between the centers, by the numbers of
its rooms. -/
structure FirstClosest (as bs : List Room) (a b : Room) : Prop where
  first : a ∈ as
  second : b ∈ bs
  least : ∀ a' ∈ as, ∀ b' ∈ bs, centersApart a b ≤ centersApart a' b'
  earliest : ∀ a' ∈ as, ∀ b' ∈ bs, centersApart a' b' = centersApart a b →
    a.id < a'.id ∨ a.id = a'.id ∧ b.id ≤ b'.id

/-- What is found is longer than nothing behind it, and shorter than everything in front of it. -/
theorem foldl_shorter_first {links : List Link} {l : Link}
    (h : links.foldl Link.shorter none = some l) :
    ∃ front back, links = front ++ l :: back ∧ (∀ m ∈ front, l.distance < m.distance) ∧
      ∀ m ∈ back, l.distance ≤ m.distance := by
  induction links using List.reverseRecOn generalizing l with
  | nil => cases h
  | append_singleton links m ih =>
    rw [List.foldl_concat] at h
    cases hfound : links.foldl Link.shorter none with
    | none =>
      rcases foldl_shorter_mem links none with ⟨rfl, _⟩ | ⟨old, hold, _⟩
      · cases h
        exact ⟨[], [], rfl, by simp, by simp⟩
      · rw [hfound] at hold
        cases hold
    | some old =>
      obtain ⟨front, back, rfl, hfront, hback⟩ := ih hfound
      rw [hfound, Link.shorter] at h
      split at h
      · next hshorter =>
        cases h
        refine ⟨front ++ old :: back, [], rfl, fun x hx => ?_, by simp⟩
        rcases List.mem_append.mp hx with hx | hx
        · exact hshorter.trans (hfront x hx)
        · rcases List.mem_cons.mp hx with rfl | hx
          · exact hshorter
          · exact hshorter.trans_le (hback x hx)
      · next hlonger =>
        cases h
        refine ⟨front, back ++ [m], by simp, hfront, fun x hx => ?_⟩
        rcases List.mem_append.mp hx with hx | hx
        · exact hback x hx
        · rw [List.mem_singleton.mp hx]
          exact Int.not_lt.mp hlonger

/-- The links between rooms in the order of their numbers are in their order too. -/
theorem links_pairwise {as bs : List Room} (has : as.Pairwise fun a a' => a.id < a'.id)
    (hbs : bs.Pairwise fun b b' => b.id < b'.id) :
    (as.flatMap fun a => bs.map (Link.ofRooms a)).Pairwise Link.Before := by
  refine List.pairwise_flatMap.mpr ⟨fun a _ => ?_, has.imp fun {a a'} hlt l hl m hm => ?_⟩
  · exact List.pairwise_map.mpr (hbs.imp fun hlt => .inr ⟨rfl, hlt⟩)
  · obtain ⟨b, _, rfl⟩ := List.mem_map.mp hl
    obtain ⟨b', _, rfl⟩ := List.mem_map.mp hm
    exact .inl hlt

theorem firstClosest_of_closest? {as bs : List Room} {l : Link}
    (has : as.Pairwise fun a a' => a.id < a'.id) (hbs : bs.Pairwise fun b b' => b.id < b'.id)
    (h : closest? as bs = some l) : l = Link.ofRooms l.first l.second ∧
      FirstClosest as bs l.first l.second := by
  have hordered := links_pairwise has hbs
  rw [closest?_eq_foldl] at h
  obtain ⟨front, back, hlinks, hfront, hback⟩ := foldl_shorter_first h
  have hmem : ∀ m, (m ∈ front ∨ m = l ∨ m ∈ back) ↔
      ∃ a ∈ as, ∃ b ∈ bs, Link.ofRooms a b = m := fun m => by
    rw [← List.mem_cons, ← List.mem_append, ← hlinks]
    simp only [List.mem_flatMap, List.mem_map]
  rw [hlinks] at hordered
  have hafter : ∀ m ∈ back, l.Before m := fun m hm =>
    List.rel_of_pairwise_cons (List.pairwise_append.mp hordered).2.1 hm
  obtain ⟨a, ha, b, hb, rfl⟩ := (hmem l).mp (.inr (.inl rfl))
  refine ⟨rfl, ha, hb, fun a' ha' b' hb' => ?_, fun a' ha' b' hb' heq => ?_⟩
  · rw [← distance_ofRooms, ← distance_ofRooms]
    rcases (hmem _).mpr ⟨a', ha', b', hb', rfl⟩ with hm | hm | hm
    · exact (hfront _ hm).le
    · exact (congrArg Link.distance hm).ge
    · exact hback _ hm
  · rw [← distance_ofRooms, ← distance_ofRooms] at heq
    rcases (hmem _).mpr ⟨a', ha', b', hb', rfl⟩ with hm | hm | hm
    · exact absurd heq (hfront _ hm).ne'
    · obtain ⟨rfl, rfl⟩ : a' = a ∧ b' = b := by
        rw [Link.ofRooms, Link.ofRooms, Link.mk.injEq] at hm
        exact ⟨hm.1, hm.2.1⟩
      exact .inr ⟨rfl, le_rfl⟩
    · exact (hafter _ hm).imp_right (And.imp_right le_of_lt)

/-! ## Searching below a limit -/

/-- The shorter of a link and what was found before it. If nothing was, the link has to be shorter
than the limit. -/
def Link.shorterThan (limit : Int) (best : Option Link) (l : Link) : Option Link :=
  if l.distance < best.elim limit Link.distance then some l else best

/-- The shortest link between rooms of two lists, if there is one below the limit. -/
def closestBelow? (limit : Int) (as bs : List Room) : Option Link :=
  as.foldl (fun best a =>
    bs.foldl (fun best b => Link.shorterThan limit best (.ofRooms a b)) best) none

/-- The greatest distance that a machine word with a sign can hold. -/
def farthest : Int := 2147483647

theorem closestBelow?_eq {limit : Int} {as bs : List Room}
    (h : ∀ a ∈ as, ∀ b ∈ bs, a.center.distSq b.center < limit) :
    closestBelow? limit as bs = closest? as bs := by
  refine List.foldl_ext _ _ _ fun best a ha => List.foldl_ext _ _ _ fun best b hb => ?_
  cases best with
  | none => exact if_pos (h a ha b hb)
  | some old => rfl

/-! ## Parts of a partition -/

/-- The first partition is the second one, or it is on either side of one of its cuts. -/
inductive IsPart (s : Partition) : Partition → Prop where
  | self : IsPart s s
  | first {first second : Partition} {corridor : Option Corridor} (h : IsPart s first) :
      IsPart s (cut first second corridor)
  | second {first second : Partition} {corridor : Option Corridor} (h : IsPart s second) :
      IsPart s (cut first second corridor)

section Parts

variable {p : PartitionParams} {depth id : Nat} {r : Rect} {s t : Partition}

theorem IsPart.rooms_infix (h : IsPart s t) : s.rooms <:+: t.rooms := by
  induction h with
  | self => exact List.infix_rfl
  | first _ ih => exact ih.trans (List.prefix_append _ _).isInfix
  | second _ ih => exact ih.trans (List.suffix_append _ _).isInfix

theorem IsPart.corridors_infix (h : IsPart s t) : s.corridors <:+: t.corridors := by
  induction h with
  | self => exact List.infix_rfl
  | first _ ih =>
    rw [corridors, List.append_assoc]
    exact ih.trans (List.prefix_append _ _).isInfix
  | second _ ih =>
    rw [corridors]
    exact ih.trans (List.infix_append _ _ _)

theorem Drawn.of_isPart (h : Drawn p depth id r t) (hpart : IsPart s t) :
    ∃ depth id r, Drawn p depth id r s := by
  induction hpart generalizing depth id r with
  | self => exact ⟨depth, id, r, h⟩
  | first _ ih =>
    cases h with
    | cut _ _ _ one _ _ => exact ih one
  | second _ ih =>
    cases h with
    | cut _ _ _ _ two _ => exact ih two

theorem Drawn.numbers (h : Drawn p depth id r t) :
    t.rooms.map (·.id) = span id t.leafCount := by
  refine List.ext_getElem? fun n => ?_
  rw [List.getElem?_map, span, List.getElem?_map, Int.toNat_natCast, ← length_rooms]
  cases Nat.lt_or_ge n t.rooms.length with
  | inl hn =>
    rw [List.getElem?_range hn, List.getElem?_eq_getElem hn, Option.map_some, Option.map_some,
      h.number n _ (List.getElem?_eq_getElem hn)]
  | inr hn =>
    rw [List.getElem?_eq_none hn, List.getElem?_eq_none (by rw [List.length_range]; exact hn)]
    rfl

theorem Drawn.rooms_pairwise (h : Drawn p depth id r t) :
    t.rooms.Pairwise fun a b => a.id < b.id := by
  have hspan := span_pairwise id t.leafCount
  rw [← h.numbers, List.pairwise_map] at hspan
  exact hspan

end Parts

end Partition

/-! ## The layout -/

/-- On a map of an accepted size no two centers are as far apart as a machine word can tell. -/
theorem WellPlanned.distSq_lt_farthest {width height minRoom border padding : Int}
    {rooms : List Room} {corridors : List Corridor}
    (h : WellPlanned width height minRoom border padding rooms corridors) (hroom : 1 ≤ minRoom)
    (hborder : 0 ≤ border) (hwidth : width ≤ 512) (hheight : height ≤ 512) {a b : Room}
    (ha : a ∈ rooms) (hb : b ∈ rooms) : a.center.distSq b.center < Partition.farthest := by
  have hcenter : ∀ r ∈ rooms, (0 ≤ r.center.x ∧ r.center.x < 512) ∧
      0 ≤ r.center.y ∧ r.center.y < 512 := fun r hr => by
    have hsides := h.sides r hr
    have hinside := h.contains_in_border hr (Rect.contains_center (by omega) (by omega))
    omega
  have hca := hcenter a ha
  have hcb := hcenter b hb
  have hx : |a.center.x - b.center.x| ≤ 511 := abs_le.mpr (by omega)
  have hy : |a.center.y - b.center.y| ≤ 511 := abs_le.mpr (by omega)
  exact (Point.distSq_le hx hy).trans_lt (by decide)

open Dungeon.Partition in
/-- In the layout of an accepted template every cut has a corridor. The rooms of its two sides have
the numbers of two blocks, one after the other. Of all pairs of rooms from the two sides the corridor
joins the closest one, and of several the one with the lowest numbers. A search below the greatest
machine word finds the same pair. The corridor is the next one after those of the two sides. -/
theorem Layout.partition_closest (a : Template) (haccepted : a.fault? = none)
    (halgorithm : a.algorithm = .partition) (m : Map) (hwidth : m.grid.width = a.width)
    (hheight : m.grid.height = a.height) (report : Report) (s : Source) :
    let tree := ((Partition.draw a.partition a.partition.maxDepth.toNat 0 m.grid.frame).run s).1
    let map := ((Layout.partition a.partition m report).run s).1.map
    map.rooms = tree.rooms ∧ map.corridors = tree.corridors ∧
      ∀ first second corridor, IsPart (cut first second corridor) tree →
        (∃ lo : Nat, first.rooms.map (·.id) = span lo first.leafCount ∧
          second.rooms.map (·.id) = span (lo + first.leafCount) second.leafCount) ∧
        (∀ r ∈ first.rooms ++ second.rooms, map.rooms[r.id.toNat]? = some r) ∧
        ∃ r t bend, FirstClosest first.rooms second.rooms r t ∧
          closestBelow? farthest first.rooms second.rooms = some (.ofRooms r t) ∧
          corridor = some (.between bend r t) ∧
          first.corridors ++ second.corridors ++ [.between bend r t] <:+: map.corridors := by
  have hsound := Template.partition_accepted haccepted halgorithm
  have hsize := Template.size_accepted haccepted
  rw [← hwidth, ← hheight] at hsound hsize
  intro tree map
  have htree : Drawn a.partition a.partition.maxDepth.toNat 0 m.grid.frame tree :=
    draw_drawn hsound.leaf _ 0 (hsound.leaf.trans hsound.width) (hsound.leaf.trans hsound.height) s
  have hplan := htree.wellPlanned hsound.minLeaf_pos.le
  have hmap : map = m.ofPlan tree.rooms tree.corridors := by
    show (Layout.partition a.partition m report s).1.map = _
    unfold Layout.partition
    show LayoutResult.map (if _ then _ else _) = _
    split <;> rfl
  refine ⟨congrArg Map.rooms hmap, congrArg Map.corridors hmap,
    fun first second corridor hpart => ?_⟩
  rw [hmap]
  have hinfix := hpart.rooms_infix
  have hcorridors := hpart.corridors_infix
  obtain ⟨depth, id, r, hdrawn⟩ := htree.of_isPart hpart
  cases hdrawn with
  | @cut _ _ _ _ _ _ _ link bend _ _ _ one two hclosest =>
    have hrooms : ∀ r ∈ first.rooms ++ second.rooms, r ∈ tree.rooms := fun r hr => hinfix.subset hr
    obtain ⟨hlink, hfirst⟩ :=
      firstClosest_of_closest? one.rooms_pairwise two.rooms_pairwise hclosest
    have hbelow : closestBelow? farthest first.rooms second.rooms =
        closest? first.rooms second.rooms :=
      closestBelow?_eq fun x hx y hy => hplan.distSq_lt_farthest hsound.room
        (zero_le_one.trans a.partition.one_le_margin) hsize.1.2 hsize.2.2
        (hrooms x (List.mem_append_left _ hx)) (hrooms y (List.mem_append_right _ hy))
    refine ⟨⟨id, one.numbers, ?_⟩, fun x hx => ?_, link.first, link.second, bend, hfirst, ?_, rfl,
      hcorridors⟩
    · rw [← Nat.cast_add]
      exact two.numbers
    · exact Room.Numbered.getElem?_id hplan.number (hrooms x hx)
    · rw [hbelow, hclosest, ← hlink]

open Dungeon.Partition in
/-- The first cut of the default map from seed 1, which runs through all of it. -/
theorem Layout.partition_closest_default :
    let tree := ((Partition.draw ({} : Template).partition 4 0 ⟨0, 0, 48, 32⟩).run (.ofSeed 1)).1
    ∃ first second corridor, tree = cut first second corridor ∧
      ∃ r t bend, FirstClosest first.rooms second.rooms r t ∧
        corridor = some (.between bend r t) := by
  intro tree
  have hleaves : tree.leafCount ≠ 1 := by decide +kernel
  obtain ⟨_, _, hcuts⟩ :=
    Layout.partition_closest {} (by decide) rfl (.ofSize 48 32) rfl rfl {} (.ofSeed 1)
  cases htree : tree with
  | leaf room => exact absurd (congrArg leafCount htree) hleaves
  | cut first second corridor =>
    obtain ⟨_, _, r, t, bend, hfirst, _, hcorridor, _⟩ :=
      hcuts first second corridor (htree ▸ .self)
    exact ⟨first, second, corridor, rfl, r, t, bend, hfirst, hcorridor⟩

end Dungeon
