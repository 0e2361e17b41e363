import Dungeon.Proofs.Growth
import Dungeon.Proofs.Rooms

/-!
# The rooms of a cave

The rooms of a cave are its chambers, chosen greedily from the most open peak on. Which chamber
stands at a place of the list depends on those before it only, so a lower bound on their number
cuts the list short and changes nothing else. The first chamber has the whole cave to itself: it
takes in the most open spot.

Results:
1. `Chambers.grow_grownOut`: a chamber grows as far as its clearance, the cave and the claims allow.
2. `Chambers.ofGrid_take`: with fewer rooms allowed the chambers are the first ones.
3. `Chambers.rooms_chosen`: what rooms a cave has.
4. `Chambers.rooms_first`: where its first room lies, and which caves have a chamber at all.
-/

namespace Dungeon

/-- The point is the first one of the set, row by row. -/
structure FirstOf (s : Set Point) (p : Point) : Prop where
  mem : p ∈ s
  first : ∀ q ∈ s, p = q ∨ p.Before q

theorem Grid.find?_floor {g : Grid} (h : g.floor.Nonempty) :
    ∃ q, g.points.find? (fun q => g.isFloor q) = some q ∧ FirstOf g.floor q := by
  obtain ⟨t, ht⟩ := h
  have hpoint : ∀ q ∈ g.floor, q ∈ g.points := fun q hq => mem_points.mpr (inBounds_of_mem_floor hq)
  cases hfind : g.points.find? fun q => g.isFloor q with
  | none => exact absurd ht (List.find?_eq_none.mp hfind t (hpoint t ht))
  | some q =>
    refine ⟨q, rfl, List.find?_some hfind, fun r hr => ?_⟩
    obtain ⟨_, before, after, hsplit, hnone⟩ := List.find?_eq_some_iff_append.mp hfind
    have hsorted : g.points.Pairwise Point.Before := Rect.points_pairwise g.frame
    have hmem := hpoint r hr
    rw [hsplit] at hsorted hmem
    rcases List.mem_append.mp hmem with hmem | hmem
    · have hfalse := hnone r hmem
      rw [mem_floor.mp hr] at hfalse
      cases hfalse
    · rcases List.mem_cons.mp hmem with rfl | hmem
      · exact .inl rfl
      · exact .inr ((List.pairwise_cons.mp (List.pairwise_append.mp hsorted).2.1).1 r hmem)

theorem getElem?_numbered_eq (rects : List Rect) (n : Nat) :
    (numbered 0 rects)[n]? = rects[n]?.map (Room.ofRect n) := by
  rw [numbered, List.getElem?_map, List.getElem?_zipIdx, Option.map_map, Nat.zero_add]
  rfl

theorem numbered_take (rects : List Rect) (k : Nat) :
    numbered 0 (rects.take k) = (numbered 0 rects).take k := by
  refine List.ext_getElem? fun n => ?_
  rw [getElem?_numbered_eq, List.getElem?_take, List.getElem?_take, getElem?_numbered_eq]
  split <;> rfl

namespace Chambers

variable {g : Grid} {p : CavernParams} {chambers claimed : List Rect} {r : Rect} {s : Point}

/-! ## Chambers that have grown out -/

/-- The rectangle has no side longer than the clearance of a point allows, and cannot grow: where a
side is shorter, the strip beside it holds a point that is not floor, as those off the grid, or
that is claimed. -/
structure GrownOut (g : Grid) (claimed : List Rect) (s : Point) (r : Rect) : Prop where
  width : r.w ≤ 2 * clearance g.floor s + 1
  height : r.h ≤ 2 * clearance g.floor s + 1
  maximal : ∀ side : Side, side.extent r = 2 * clearance g.floor s + 1 ∨
    ∃ q, (side.strip r).contains q = true ∧
      (q ∉ g.floor ∨ ∃ c ∈ claimed, c.contains q = true)

theorem isFree_eq_false {q : Point} (h : isFree g claimed q = false) :
    q ∉ g.floor ∨ ∃ c ∈ claimed, c.contains q = true := by
  rw [isFree, Bool.and_eq_false_iff] at h
  rcases h with h | h
  · exact .inl fun hq => by rw [Grid.mem_floor.mp hq] at h; cases h
  · rw [List.all_eq_false] at h
    obtain ⟨c, hc, hcontains⟩ := h
    exact .inr ⟨c, hc, by simpa using hcontains⟩

theorem grow_grownOut (g : Grid) (claimed : List Rect) (s : Point) :
    GrownOut g claimed s (grow (isFree g claimed) ⟨s, clearance g.floor s⟩) := by
  obtain ⟨hwithin, hmaximal⟩ := grow_spec (isFree g claimed) ⟨s, clearance g.floor s⟩
  have hlimit : ((longestSide ⟨s, clearance g.floor s⟩ : Nat) : Int)
      = 2 * clearance g.floor s + 1 := by
    rw [longestSide]
    push_cast
    rfl
  rw [hlimit] at hwithin hmaximal
  refine ⟨hwithin.width, hwithin.height, fun side => (hmaximal side).imp_right ?_⟩
  rintro ⟨q, hq, hblocked⟩
  exact ⟨q, hq, isFree_eq_false hblocked⟩

/-! ## The choice of chambers -/

theorem Chosen.length_le (hmax : 0 ≤ p.maxRooms) (h : Chosen g p chambers) :
    (chambers.length : Int) ≤ p.maxRooms := by
  cases h with
  | none => exact hmax
  | more _ _ hadmits =>
    have hcount := hadmits.count
    rw [List.length_append, List.length_singleton]
    push_cast
    omega

/-- Each chamber is grown against the claims of those before it. -/
theorem Chosen.of_getElem? (h : Chosen g p chambers) {i : Nat} (hr : chambers[i]? = some r) :
    ∃ peak ∈ peaks g, Admits g p (chambers.take i) peak ∧
      r = grow (isFree g (claims p (chambers.take i))) peak := by
  induction h with
  | none => cases hr
  | @more chambers peak _ hpeak hadmits ih =>
    rcases getElem?_append_cases hr with ⟨hr, htake⟩ | ⟨k, hr, htake⟩
    · rw [htake]
      exact ih hr
    · cases k with
      | succ k => cases hr
      | zero =>
        rw [htake, List.take_zero, List.append_nil]
        exact ⟨peak, hpeak, hadmits, (Option.some.inj hr).symm⟩

theorem grown_of_getElem? (hg : g.Full) {i : Nat} (hr : (grown g p)[i]? = some r) :
    (p.minRoom ≤ r.w ∧ p.minRoom ≤ r.h) ∧ ∃ s, IsPeak g.floor s ∧ r.contains s = true ∧
      let claimed := claims p ((grown g p).take i)
      r = grow (isFree g claimed) ⟨s, clearance g.floor s⟩ ∧ GrownOut g claimed s r := by
  obtain ⟨⟨s, c⟩, hmem, hadmits, rfl⟩ := (grown_chosen g p).of_getElem? hr
  obtain ⟨hpeak, hc⟩ := (mem_peaks hg).mp hmem
  simp only at hpeak hc
  subst hc
  exact ⟨⟨hadmits.width, hadmits.height⟩, s, hpeak, contains_grow_point, rfl, grow_grownOut g _ s⟩

theorem prefix_foldl_addChamber (ps : List Peak) (chambers : List Rect) :
    chambers <+: ps.foldl (addChamber g p) chambers := by
  induction ps generalizing chambers with
  | nil => exact List.prefix_rfl
  | cons peak rest ih =>
    refine List.IsPrefix.trans ?_ (ih _)
    by_cases hadmits : Admits g p chambers peak
    · rw [addChamber_of_admits hadmits]
      exact List.prefix_append _ _
    · rw [addChamber_of_not_admits hadmits]

/-- A peak whose chamber is large enough with nothing claimed leaves a chamber in any case. -/
theorem not_admits_of_none {ps : List Peak} (h : ps.foldl (addChamber g p) [] = []) :
    ∀ peak ∈ ps, ¬ Admits g p [] peak := by
  induction ps with
  | nil =>
    intro peak hpeak
    cases hpeak
  | cons peak rest ih =>
    rw [List.foldl_cons] at h
    have hfirst : ¬ Admits g p [] peak := fun hadmits => by
      have hprefix := prefix_foldl_addChamber (g := g) (p := p) rest (addChamber g p [] peak)
      rw [h, List.prefix_nil, addChamber_of_admits hadmits] at hprefix
      cases hprefix
    rw [addChamber_of_not_admits hfirst] at h
    exact List.forall_mem_cons.mpr ⟨hfirst, ih h⟩

/-- A lower bound on the number of chambers cuts the list that a step leaves. -/
theorem addChamber_take {k : Nat} (hk : (k : Int) ≤ p.maxRooms) (chambers : List Rect)
    (peak : Peak) :
    addChamber g { p with maxRooms := k } (chambers.take k) peak
      = (addChamber g p chambers peak).take k := by
  cases Nat.lt_or_ge chambers.length k with
  | inl hlt =>
    -- Below the lower bound both make the same choice.
    rw [List.take_of_length_le hlt.le]
    have hiff : Admits g { p with maxRooms := k } chambers peak ↔ Admits g p chambers peak :=
      ⟨fun h => ⟨by omega, h.free, h.width, h.height⟩,
        fun h => ⟨by simpa using hlt, h.free, h.width, h.height⟩⟩
    by_cases hadmits : Admits g p chambers peak
    · rw [addChamber_of_admits (hiff.mpr hadmits), addChamber_of_admits hadmits,
        List.take_of_length_le (by simpa using hlt)]
      rfl
    · rw [addChamber_of_not_admits (mt hiff.mp hadmits), addChamber_of_not_admits hadmits,
        List.take_of_length_le hlt.le]
  | inr hge =>
    have hfull : ¬ Admits g { p with maxRooms := k } (chambers.take k) peak := fun h => by
      have hcount := h.count
      rw [List.length_take, min_eq_left hge] at hcount
      exact absurd hcount (lt_irrefl _)
    rw [addChamber_of_not_admits hfull]
    by_cases hadmits : Admits g p chambers peak
    · rw [addChamber_of_admits hadmits, List.take_append_of_le_length hge]
    · rw [addChamber_of_not_admits hadmits]

theorem grown_take {k : Nat} (hk : (k : Int) ≤ p.maxRooms) :
    grown g { p with maxRooms := k } = (grown g p).take k := by
  have hfold : ∀ (ps : List Peak) (chambers : List Rect),
      ps.foldl (addChamber g { p with maxRooms := k }) (chambers.take k)
        = (ps.foldl (addChamber g p) chambers).take k := by
    intro ps
    induction ps with
    | nil => exact fun chambers => rfl
    | cons peak rest ih =>
      intro chambers
      rw [List.foldl_cons, List.foldl_cons, addChamber_take hk, ih]
  have hgrown := hfold (ranked (peaks g)) []
  rw [List.take_nil] at hgrown
  exact hgrown

/-- The chamber around a point is too small, even with nothing claimed. -/
def TooSmall (g : Grid) (p : CavernParams) (s : Point) : Prop :=
  (grow (isFree g []) ⟨s, clearance g.floor s⟩).w < p.minRoom ∨
    (grow (isFree g []) ⟨s, clearance g.floor s⟩).h < p.minRoom

theorem tooSmall_of_none (hg : g.Full) (hmax : 1 ≤ p.maxRooms) (h : grown g p = []) :
    ∀ s, IsPeak g.floor s → TooSmall g p s := by
  intro s hs
  have hpeak : ⟨s, clearance g.floor s⟩ ∈ ranked (peaks g) :=
    mem_ranked.mpr ((mem_peaks hg).mpr ⟨hs, rfl⟩)
  have hnot := not_admits_of_none h _ hpeak
  by_contra hlarge
  rw [TooSmall, not_or, not_lt, not_lt] at hlarge
  refine hnot ⟨hmax, ?_, hlarge.1, hlarge.2⟩
  rw [isFree, Grid.mem_floor.mp hs.mem]
  rfl

theorem ofGrid_of_none (hfloor : g.floor.Nonempty) (h : grown g p = []) :
    ∃ q, FirstOf g.floor q ∧ ofGrid g p = [⟨q.x, q.y, 1, 1⟩] := by
  obtain ⟨q, hfind, hfirst⟩ := Grid.find?_floor hfloor
  refine ⟨q, hfirst, ?_⟩
  rw [ofGrid, h, hfind]
  rfl

theorem ofGrid_length_le (hfloor : g.floor.Nonempty) (hmax : 1 ≤ p.maxRooms) :
    ((ofGrid g p).length : Int) ≤ p.maxRooms := by
  by_cases hnone : grown g p = []
  · obtain ⟨q, _, hq⟩ := ofGrid_of_none hfloor hnone
    rw [hq]
    exact hmax
  · rw [ofGrid_of_grown hnone]
    exact (grown_chosen g p).length_le (zero_le_one.trans hmax)

/-- With fewer chambers allowed, but one at least, the chambers are the first ones. -/
theorem ofGrid_take (hfloor : g.floor.Nonempty) {k : Nat} (hone : 1 ≤ k)
    (hk : (k : Int) ≤ p.maxRooms) :
    ofGrid g { p with maxRooms := k } = (ofGrid g p).take k := by
  have htake := grown_take (g := g) hk
  by_cases hnone : grown g p = []
  · obtain ⟨q, _, hq⟩ := ofGrid_of_none hfloor hnone
    rw [hq, List.take_of_length_le (by simpa using hone)]
    rw [hnone, List.take_nil] at htake
    rw [ofGrid, hnone] at hq
    rw [ofGrid, htake]
    exact hq
  · have hne : grown g { p with maxRooms := k } ≠ [] := by
      rw [htake, Ne, List.take_eq_nil_iff, not_or]
      exact ⟨by omega, hnone⟩
    rw [ofGrid_of_grown hnone, ofGrid_of_grown hne, htake]

/-! ## Rooms -/

/-- Adding the chambers of its cave to a map without rooms changes its list of rooms only. -/
theorem addRooms_chambers (m : Map) (p : CavernParams) (hrooms : m.rooms = []) :
    (ofGrid m.grid p).foldl Map.addRoom m = { m with rooms := numbered 0 (ofGrid m.grid p) } := by
  rw [Map.addRooms_eq fun r hr q hq => (ofGrid_filled hr).passes q hq, hrooms, List.nil_append,
    List.length_nil]

theorem rooms_addRooms_chambers (m : Map) (p : CavernParams) (hrooms : m.rooms = []) :
    ((ofGrid m.grid p).foldl Map.addRoom m).rooms = numbered 0 (ofGrid m.grid p) := by
  rw [addRooms_chambers m p hrooms]

/-- A cave becomes rooms without a change to its tiles. There is at least one and at most as many as
allowed; they consist of floor and keep the padding. Either each is a large enough chamber around
a peak, grown out against the claims of the rooms before it, or all peaks have too small chambers
and the first floor point is the only room. With fewer rooms allowed the rooms are the first of
these. Sides, gaps and the passes of the growth are exact integers, which stand for machine words as
long as none of them needs more than 32 bits. -/
theorem rooms_chosen (a : Template) (hrules : ∀ rule ∈ a.cavernRules, rule = none) (m : Map)
    (hg : m.grid.Full) (hfloor : m.grid.floor.Nonempty) (hrooms : m.rooms = []) :
    let p := a.cavern
    let g := m.grid
    let after := (ofGrid g p).foldl Map.addRoom m
    let rooms := after.rooms
    after = { m with rooms } ∧
      (1 ≤ rooms.length ∧ (rooms.length : Int) ≤ p.maxRooms) ∧
      (∀ r ∈ rooms, ∀ q, r.contains q = true → q ∈ g.floor) ∧
      (∀ (i j : Nat) (r t : Room), rooms[i]? = some r → rooms[j]? = some t → i ≠ j →
        r.meets t.toRect p.roomPadding = false) ∧
      ((∃ q, FirstOf g.floor q ∧ rooms = [Room.ofRect 0 ⟨q.x, q.y, 1, 1⟩] ∧
          ∀ s, IsPeak g.floor s → TooSmall g p s) ∨
        ∀ (i : Nat) (r : Room), rooms[i]? = some r →
          (p.minRoom ≤ r.w ∧ p.minRoom ≤ r.h) ∧
            ∃ s, IsPeak g.floor s ∧ r.contains s = true ∧
              let claimed := claims p ((rooms.take i).map Room.toRect)
              r.toRect = grow (isFree g claimed) ⟨s, clearance g.floor s⟩ ∧
                GrownOut g claimed s r.toRect) ∧
      (∀ (claimed : List Rect) (s : Point),
        GrownOut g claimed s (grow (isFree g claimed) ⟨s, clearance g.floor s⟩)) ∧
      ∀ k : Nat, 1 ≤ k → (k : Int) ≤ p.maxRooms →
        ((ofGrid g { p with maxRooms := k }).foldl Map.addRoom m).rooms = rooms.take k := by
  obtain ⟨⟨hroom, hmax⟩, hpadding⟩ := Template.cavernRules_chambers hrules
  intro p g after rooms
  have hafter : rooms = numbered 0 (ofGrid g p) := rooms_addRooms_chambers m p hrooms
  have hrects : rooms.map Room.toRect = ofGrid g p := by rw [hafter, toRect_numbered]
  have hlength : rooms.length = (ofGrid g p).length := by rw [← hrects, List.length_map]
  refine ⟨?_, ⟨?_, ?_⟩, fun r hr q hq => ?_, fun i j r t hr ht hij => ?_, ?_, grow_grownOut g,
    fun k hone hk => ?_⟩
  · rw [hafter]
    exact addRooms_chambers m p hrooms
  · rw [hlength, Nat.one_le_iff_ne_zero, Ne, List.length_eq_zero_iff]
    exact ofGrid_ne_nil hfloor
  · rw [hlength]
    exact ofGrid_length_le hfloor hmax
  · have hr' : r.toRect ∈ ofGrid g p := hrects ▸ List.mem_map_of_mem hr
    exact (ofGrid_filled hr').passes q hq
  · have hmeets := ofGrid_meets g hpadding
    rw [← hrects, List.pairwise_map] at hmeets
    exact Room.meets_eq_false_of_ne hmeets hr ht hij
  · by_cases hnone : grown g p = []
    · obtain ⟨q, hfirst, hq⟩ := ofGrid_of_none hfloor hnone
      refine .inl ⟨q, hfirst, ?_, tooSmall_of_none hg hmax hnone⟩
      rw [hafter, hq]
      rfl
    · refine .inr fun i r hr => ?_
      rw [List.map_take, hrects, ofGrid_of_grown hnone]
      refine grown_of_getElem? hg ?_
      rw [← ofGrid_of_grown hnone, ← hrects, List.getElem?_map, hr, Option.map_some]
  · rw [hafter, ← numbered_take, ← ofGrid_take hfloor hone hk]
    exact rooms_addRooms_chambers m { p with maxRooms := k } hrooms

/-- A map with two hollows and a passage between them. -/
def hollows : Map where
  grid := .ofFloor 12 8 fun q =>
    decide (q.y < 3 ∧ (q.x < 3 ∨ 6 ≤ q.x ∧ q.x < 11) ∨ q.y = 1 ∧ q.x < 8)

/-- Each hollow is a room, the second one grown out beside what the first one claims. The passage
and the rest are in no room. With one room allowed it is the first. -/
theorem rooms_chosen_hollows :
    let p := ({} : Template).cavern
    let rooms := ((ofGrid hollows.grid p).foldl Map.addRoom hollows).rooms
    let r := Room.ofRect 0 ⟨0, 0, 3, 3⟩
    let t := Room.ofRect 1 ⟨6, 0, 5, 3⟩
    (hollows.grid.Full ∧ hollows.grid.floor.Nonempty) ∧ rooms = [r, t] ∧
      r.meets t.toRect p.roomPadding = false ∧
      (∃ s, IsPeak hollows.grid.floor s ∧ t.contains s = true ∧
        GrownOut hollows.grid (claims p [r.toRect]) s t.toRect) ∧
      ((ofGrid hollows.grid { p with maxRooms := 1 }).foldl Map.addRoom hollows).rooms = [r] := by
  intro p rooms r t
  have hfull : hollows.grid.Full := Grid.full_ofFloor 12 8 _
  have hfloor : hollows.grid.floor.Nonempty := ⟨⟨0, 0⟩, Grid.mem_floor.mpr (by decide +kernel)⟩
  have htwo : rooms = [r, t] := by decide +kernel
  obtain ⟨-, -, -, happart, hgrown, -, htake⟩ :=
    rooms_chosen {} (by decide) hollows hfull hfloor rfl
  have hfirst : rooms[0]? = some r := by rw [htwo]; rfl
  have hsecond : rooms[1]? = some t := by rw [htwo]; rfl
  refine ⟨⟨hfull, hfloor⟩, htwo, happart 0 1 r t hfirst hsecond Nat.zero_ne_one, ?_, ?_⟩
  · rcases hgrown with ⟨q, -, hone, -⟩ | hgrown
    · have hlength := congrArg List.length (htwo.symm.trans hone)
      cases hlength
    · obtain ⟨-, s, hpeak, hcontains, -, hout⟩ := hgrown 1 t hsecond
      have hclaimed : (rooms.take 1).map Room.toRect = [r.toRect] := by rw [htwo]; rfl
      exact ⟨s, hpeak, hcontains, hclaimed ▸ hout⟩
  · exact (htake 1 le_rfl (by decide)).trans (congrArg (List.take 1) htwo)

/-! ## The first room -/

/-- With nothing claimed the chamber around a point takes in all that is nearer than the way out. -/
theorem contains_grow_open {q : Point} (hq : s.chebyshev q < clearance g.floor s) :
    (grow (isFree g []) ⟨s, clearance g.floor s⟩).contains q = true := by
  refine contains_grow_near (fun t ht => ?_) hq
  rw [isFree, List.all_nil, Bool.and_true]
  exact mem_of_chebyshev_lt ht

theorem le_sides_of_contains {k : Nat} (h : ∀ q, s.chebyshev q ≤ k → r.contains q = true) :
    2 * (k : Int) + 1 ≤ r.w ∧ 2 * (k : Int) + 1 ≤ r.h := by
  have hleft := Rect.contains_iff.mp (h ⟨s.x - k, s.y⟩ (by simp only [Point.chebyshev]; omega))
  have hright := Rect.contains_iff.mp (h ⟨s.x + k, s.y⟩ (by simp only [Point.chebyshev]; omega))
  have hup := Rect.contains_iff.mp (h ⟨s.x, s.y - k⟩ (by simp only [Point.chebyshev]; omega))
  have hdown := Rect.contains_iff.mp (h ⟨s.x, s.y + k⟩ (by simp only [Point.chebyshev]; omega))
  simp only at hleft hright hup hdown
  omega

theorem le_sides_grow_open (hs : s ∈ g.floor) :
    let r := grow (isFree g []) ⟨s, clearance g.floor s⟩
    2 * (clearance g.floor s : Int) - 1 ≤ r.w ∧ 2 * (clearance g.floor s : Int) - 1 ≤ r.h := by
  have hpos := (clearance_pos g.compl_floor_nonempty).mpr hs
  intro r
  have hsides : 2 * ((clearance g.floor s - 1 : Nat) : Int) + 1 ≤ r.w ∧
      2 * ((clearance g.floor s - 1 : Nat) : Int) + 1 ≤ r.h :=
    le_sides_of_contains (s := s) fun q hq => contains_grow_open (by omega)
  omega

/-- The most open point has the first chamber, if it is open enough. -/
theorem grown_head (hg : g.Full) (hmax : 1 ≤ p.maxRooms) (h : MostOpen g.floor s)
    (hroom : p.minRoom ≤ 2 * (clearance g.floor s : Int) - 1) :
    (grown g p)[0]? = some (grow (isFree g []) ⟨s, clearance g.floor s⟩) := by
  obtain ⟨hwidth, hheight⟩ := le_sides_grow_open h.mem
  have hadmits : Admits g p [] ⟨s, clearance g.floor s⟩ :=
    ⟨hmax, by rw [claims, List.map_nil, isFree, Grid.mem_floor.mp h.mem]; rfl,
      hroom.trans hwidth, hroom.trans hheight⟩
  obtain ⟨ps, hps⟩ := ranked_head hg h
  obtain ⟨rest, hrest⟩ := prefix_foldl_addChamber (g := g) (p := p) ps
    (addChamber g p [] ⟨s, clearance g.floor s⟩)
  rw [grown, hps, List.foldl_cons, ← hrest, addChamber_of_admits hadmits]
  rfl

/-- A cave that holds a square of floor, large enough and with an odd side, has a chamber. -/
theorem grown_ne_nil_of_square (hg : g.Full) (hmax : 1 ≤ p.maxRooms) {k : Nat}
    (hsquare : ∀ q, s.chebyshev q ≤ k → q ∈ g.floor) (hroom : p.minRoom ≤ 2 * (k : Int) + 1) :
    grown g p ≠ [] := by
  obtain ⟨t, ht⟩ := exists_mostOpen g
    ⟨s, hsquare s (by rw [Point.chebyshev_eq_zero.mpr rfl]; exact Nat.zero_le k)⟩
  have hfar := ht.lt_clearance g.compl_floor_nonempty hsquare
  intro hnone
  have hhead := grown_head (p := p) hg hmax ht (by omega)
  rw [hnone] at hhead
  cases hhead

/-- The first room takes in the most open spot: where the least side allows it, it holds all points
nearer to the first most open point than the way out of the cave, and its sides follow. So a cave
with a square of floor that is large enough, and has an odd side, has no other rooms than
chambers. -/
theorem rooms_first (a : Template) (hrules : ∀ rule ∈ a.cavernRules, rule = none) (m : Map)
    (hg : m.grid.Full) (hfloor : m.grid.floor.Nonempty) (hrooms : m.rooms = []) :
    let p := a.cavern
    let g := m.grid
    let rooms := ((ofGrid g p).foldl Map.addRoom m).rooms
    (∃ s, MostOpen g.floor s) ∧
      (∀ s, MostOpen g.floor s →
        let c : Int := clearance g.floor s
        p.minRoom ≤ 2 * c - 1 → ∃ r : Room, rooms[0]? = some r ∧
          (∀ q, (s.chebyshev q : Int) ≤ c - 1 → r.contains q = true) ∧
          (2 * c - 1 ≤ r.w ∧ r.w ≤ 2 * c + 1) ∧ 2 * c - 1 ≤ r.h ∧ r.h ≤ 2 * c + 1) ∧
      ∀ (t : Point) (k : Nat), (∀ q, t.chebyshev q ≤ k → q ∈ g.floor) →
        p.minRoom ≤ 2 * (k : Int) + 1 → grown g p ≠ [] ∧ rooms = numbered 0 (grown g p) := by
  obtain ⟨⟨_, hmax⟩, _⟩ := Template.cavernRules_chambers hrules
  intro p g rooms
  have heq : grown g p ≠ [] → rooms = numbered 0 (grown g p) := by
    intro hne
    rw [← ofGrid_of_grown hne]
    exact rooms_addRooms_chambers m p hrooms
  refine ⟨exists_mostOpen g hfloor, fun s hs hroom => ?_, fun t k hsquare hroom => ?_⟩
  · have hhead := grown_head hg hmax hs hroom
    have hne : grown g p ≠ [] := fun hnone => by
      rw [hnone] at hhead
      cases hhead
    refine ⟨Room.ofRect 0 (grow (isFree g []) ⟨s, clearance g.floor s⟩), ?_, fun q hq => ?_, ?_⟩
    · rw [heq hne, getElem?_numbered_eq, hhead]
      rfl
    · exact contains_grow_open (by omega)
    · obtain ⟨hwidth, hheight⟩ := le_sides_grow_open hs.mem
      have hgrown := grow_grownOut g [] s
      exact ⟨⟨hwidth, hgrown.width⟩, hheight, hgrown.height⟩
  · have hne := grown_ne_nil_of_square hg hmax hsquare hroom
    exact ⟨hne, heq hne⟩

/-- A map with a cave of five by five tiles in its corner. -/
def corner : Map := { grid := .ofFloor 8 8 fun q => decide (q.x < 5 ∧ q.y < 5) }

theorem corner_full : corner.grid.Full := Grid.full_ofFloor 8 8 _

theorem corner_square {q : Point} (hq : (Point.mk 2 2).chebyshev q ≤ 2) :
    q ∈ corner.grid.floor := by
  simp only [Point.chebyshev] at hq
  simp only [corner, Grid.floor_ofFloor, Set.mem_ofPred_eq, Grid.inBounds_iff, Grid.walls,
    decide_eq_true_eq]
  omega

theorem corner_nonempty : corner.grid.floor.Nonempty := ⟨⟨2, 2⟩, corner_square (by decide)⟩

/-- The middle of the corner cave is two steps from all of it. -/
theorem rooms_first_corner :
    let rooms := ((ofGrid corner.grid ({} : Template).cavern).foldl Map.addRoom corner).rooms
    ∃ s, MostOpen corner.grid.floor s ∧ 2 < clearance corner.grid.floor s ∧
      ∃ r : Room, rooms[0]? = some r ∧ ∀ q, s.chebyshev q ≤ 2 → r.contains q = true := by
  obtain ⟨⟨s, hs⟩, hfirst, _⟩ := rooms_first {} (by decide) corner corner_full corner_nonempty rfl
  have hfar := hs.lt_clearance corner.grid.compl_floor_nonempty fun q => corner_square
  obtain ⟨r, hr, hcontains, _⟩ := hfirst s hs (by show (2 : Int) ≤ _; omega)
  exact ⟨s, hs, hfar, r, hr, fun q hq => hcontains q (by omega)⟩

end Chambers
end Dungeon
