import Dungeon.Proofs.Path

/-!
# Regions of a set of points

The points of a set fall into regions: two of them are in one region when steps along the axes lead
from one to the other without leaving the set. Nothing here knows of grids; the set can be the
floor of a map as well as a plan of one.

Results:
1. `region_eq_of_mem`: a region is the region of each of its points.
2. `region_inOnePiece`: a region is in one piece, also when everything else is taken away.
3. `Walks.joined`, `Rect.joined`: a path or a rectangle inside the set lies in one region.
4. `largestArea_eq`: the area of the largest region, from a point of such a region.
5. `region_mono`, `largestArea_mono`: regions grow with the set.
-/

namespace Dungeon

/-- A step along an axis that starts and ends in the set. -/
def StepIn (s : Set Point) (p q : Point) : Prop := p ∈ s ∧ q ∈ s ∧ p.manhattan q = 1

/-- Steps inside the set lead from the first point to the second. -/
def Joined (s : Set Point) : Point → Point → Prop := Relation.ReflTransGen (StepIn s)

/-- The points of the set to which steps lead from a point of it. -/
def region (s : Set Point) (p : Point) : Set Point := {q | p ∈ s ∧ Joined s p q}

/-- Any two points of the set are joined. -/
def InOnePiece (s : Set Point) : Prop := ∀ p ∈ s, ∀ q ∈ s, Joined s p q

section Joined

variable {s t : Set Point} {p q r : Point}

theorem StepIn.symm (h : StepIn s p q) : StepIn s q p :=
  ⟨h.2.1, h.1, by rw [Point.manhattan_comm]; exact h.2.2⟩

theorem Joined.symm (h : Joined s p q) : Joined s q p := by
  induction h with
  | refl => exact .refl
  | tail _ hstep ih => exact .head hstep.symm ih

theorem Joined.trans (h : Joined s p q) (h' : Joined s q r) : Joined s p r :=
  Relation.ReflTransGen.trans h h'

theorem Joined.mem (h : Joined s p q) (hp : p ∈ s) : q ∈ s := by
  cases h with
  | refl => exact hp
  | tail _ hstep => exact hstep.2.1

theorem mem_region_self (hp : p ∈ s) : p ∈ region s p := ⟨hp, .refl⟩

theorem region_subset (s : Set Point) (p : Point) : region s p ⊆ s := fun _ h => h.2.mem h.1

theorem mem_region_iff : q ∈ region s p ↔ q ∈ s ∧ Joined s p q :=
  ⟨fun h => ⟨region_subset s p h, h.2⟩, fun h => ⟨h.2.symm.mem h.1, h.2⟩⟩

theorem region_of_notMem (hp : p ∉ s) : region s p = ∅ := by
  rw [Set.eq_empty_iff_forall_notMem]
  exact fun _ h => hp h.1

theorem region_eq_of_mem (h : q ∈ region s p) : region s q = region s p := by
  ext r
  constructor
  · exact fun hr => ⟨h.1, h.2.trans hr.2⟩
  · exact fun hr => ⟨h.2.mem h.1, h.2.symm.trans hr.2⟩

/-- The steps of a walk that starts in a region all stay in it. -/
theorem Joined.in_region (hp : p ∈ s) (h : Joined s p q) : Joined (region s p) p q := by
  induction h with
  | refl => exact .refl
  | @tail b c hpb hstep ih =>
    -- Both ends of the last step can be reached, so the step is one of the region too.
    have hb : b ∈ region s p := ⟨hp, hpb⟩
    have hc : c ∈ region s p := ⟨hp, .tail hpb hstep⟩
    exact .tail ih ⟨hb, hc, hstep.2.2⟩

theorem region_inOnePiece (s : Set Point) (p : Point) : InOnePiece (region s p) := by
  intro a ha b hb
  exact (ha.2.in_region ha.1).symm.trans (hb.2.in_region hb.1)

theorem region_region (hp : p ∈ s) : region (region s p) p = region s p :=
  (region_subset _ _).antisymm fun _ hq => ⟨mem_region_self hp, hq.2.in_region hp⟩

theorem StepIn.mono (hst : s ⊆ t) (h : StepIn s p q) : StepIn t p q := ⟨hst h.1, hst h.2.1, h.2.2⟩

theorem Joined.mono (hst : s ⊆ t) (h : Joined s p q) : Joined t p q :=
  Relation.ReflTransGen.mono (fun _ _ => StepIn.mono hst) _ _ h

theorem region_mono (hst : s ⊆ t) (p : Point) : region s p ⊆ region t p :=
  fun _ h => ⟨hst h.1, h.2.mono hst⟩

end Joined

/-! ## Paths and rectangles -/

theorem Walks.joined {s : Set Point} {path : List Point} {a : Point} (hw : Walks (a :: path))
    (hs : ∀ p ∈ a :: path, p ∈ s) : ∀ q ∈ a :: path, Joined s a q := by
  induction path generalizing a with
  | nil =>
    intro q hq
    rw [List.mem_singleton] at hq
    subst hq
    exact .refl
  | cons b rest ih =>
    intro q hq
    unfold Walks at hw
    rw [List.isChain_cons_cons] at hw
    have hstep : StepIn s a b := ⟨hs a (by simp), hs b (by simp), hw.1⟩
    rcases List.mem_cons.mp hq with rfl | hq
    · exact .refl
    · exact .head hstep (ih hw.2 (fun p hp => hs p (List.mem_cons_of_mem a hp)) q hq)

theorem Bend.joined_path {s : Set Point} (bend : Bend) {a b : Point}
    (hs : ∀ p ∈ bend.path a b, p ∈ s) : ∀ q ∈ bend.path a b, Joined s a q := by
  have hhead := bend.head?_path a b
  have hwalks := bend.path_walks a b
  cases hpath : bend.path a b with
  | nil =>
    rw [hpath] at hhead
    cases hhead
  | cons c rest =>
    rw [hpath, List.head?_cons, Option.some.injEq] at hhead
    subst hhead
    rw [hpath] at hs hwalks
    exact hwalks.joined hs

theorem Bend.joined_ends {s : Set Point} (bend : Bend) {a b : Point}
    (hs : ∀ p ∈ bend.path a b, p ∈ s) : Joined s a b :=
  bend.joined_path hs b (List.mem_of_getLast? (bend.getLast?_path a b))

/-- Inside a rectangle a bent path joins any two points, since it stays between them. -/
theorem Rect.joined {s : Set Point} {r : Rect} {p q : Point}
    (hs : ∀ p, r.contains p = true → p ∈ s) (hp : r.contains p = true) (hq : r.contains q = true) :
    Joined s p q := by
  refine Bend.horizontal.joined_ends fun a ha => hs a ?_
  have hbox := Bend.path_in_box ha
  rw [Rect.contains_iff] at *
  omega

/-! ## The largest region -/

/-- The area of the largest region of a set; zero for the empty set. -/
noncomputable def largestArea (s : Set Point) : Nat := ⨆ p, (region s p).ncard

/-- The point is the first one, row by row, of all that lie in a largest region. -/
structure LeadsLargest (s : Set Point) (p : Point) : Prop where
  mem : p ∈ s
  largest : ∀ q, (region s q).ncard ≤ (region s p).ncard
  first : ∀ q ∈ s, (region s q).ncard = (region s p).ncard → p = q ∨ p.Before q

/-- It still leads when all other regions are taken away. -/
theorem LeadsLargest.in_region {s : Set Point} {p : Point} (hs : s.Finite)
    (h : LeadsLargest s p) : LeadsLargest (region s p) p where
  mem := mem_region_self h.mem
  largest := fun q => by
    rw [region_region h.mem]
    exact Set.ncard_le_ncard (region_subset _ q) (hs.subset (region_subset s p))
  first := fun q hq _ => h.first q (region_subset s p hq) (by rw [region_eq_of_mem hq])

theorem largestArea_empty : largestArea ∅ = 0 := by
  have hzero : ∀ p : Point, (region ∅ p).ncard = 0 := fun p => by
    rw [region_of_notMem (Set.notMem_empty p), Set.ncard_empty]
  unfold largestArea
  simp [hzero]

theorem largestArea_eq {s : Set Point} {p : Point}
    (h : ∀ q, (region s q).ncard ≤ (region s p).ncard) : largestArea s = (region s p).ncard := by
  have : Nonempty Point := ⟨p⟩
  refine le_antisymm (ciSup_le h) ?_
  exact le_ciSup (f := fun q => (region s q).ncard) ⟨_, by rintro _ ⟨q, rfl⟩; exact h q⟩ p

/-- More points may join regions, but no region loses a point. -/
theorem largestArea_mono {s t : Set Point} (hst : s ⊆ t) (ht : t.Finite) :
    largestArea s ≤ largestArea t := by
  have hle : ∀ p, (region t p).ncard ≤ t.ncard := fun p =>
    Set.ncard_le_ncard (region_subset t p) ht
  refine ciSup_mono ⟨t.ncard, by rintro _ ⟨p, rfl⟩; exact hle p⟩ fun p => ?_
  exact Set.ncard_le_ncard (region_mono hst p) (ht.subset (region_subset t p))

end Dungeon
