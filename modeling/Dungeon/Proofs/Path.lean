import Dungeon.Proofs.Geometry

/-!
# Bent paths

A bent path is two straight legs that meet in a corner. Both bends are the same pair of legs with
the axes exchanged, so what holds of two legs is stated once, for any two ways to place a number on
a line of the plane.

Results:
1. `Bend.path_walks`, `Bend.head?_path`, `Bend.getLast?_path`: a bent path goes from the first point
   to the second, one step along an axis at a time.
2. `Bend.path_in_box`, `Bend.path_on_legs`: it stays between its ends in both coordinates, on the two
   lines that meet in its corner.
3. `Bend.length_path`, `Bend.nodup_path`: it is as short as a path can be, and meets no point twice.
4. `Bend.reverse_path_horizontal`: the way back is the path with the other bend.
-/

namespace Dungeon

/-- Every point of the list is one step along an axis away from the point before it. -/
def Walks (path : List Point) : Prop := path.IsChain fun p q => p.manhattan q = 1

/-! ## Straight legs -/

theorem towards_self (a : Int) : towards a a = [] := by
  simp [towards]

theorem towards_cons {a b : Int} (h : a ≠ b) :
    towards a b = (a + (b - a).sign) :: towards (a + (b - a).sign) b := by
  have hsign : (b - a).sign = 1 ∧ a < b ∨ (b - a).sign = -1 ∧ b < a := by
    cases Int.lt_or_gt_of_ne h with
    | inl hlt => exact .inl ⟨Int.sign_eq_one_of_pos (by omega), hlt⟩
    | inr hgt => exact .inr ⟨Int.sign_eq_neg_one_of_neg (by omega), hgt⟩
  -- From the next point on the leg is one step shorter, and its steps have the same sign.
  have hlen : (b - a).natAbs = (b - (a + (b - a).sign)).natAbs + 1 := by omega
  unfold towards
  rw [hlen, List.range_succ_eq_map, List.map_cons, List.map_map]
  congr 1
  · simp
  · refine List.map_congr_left fun k hk => ?_
    rw [List.mem_range] at hk
    have hstep : (b - (a + (b - a).sign)).sign = (b - a).sign := by
      rcases hsign with ⟨hs, _⟩ | ⟨hs, _⟩
      · rw [hs] at hk ⊢
        exact Int.sign_eq_one_of_pos (by omega)
      · rw [hs] at hk ⊢
        exact Int.sign_eq_neg_one_of_neg (by omega)
    rw [hstep]
    simp only [Function.comp_apply, Nat.succ_eq_add_one, Nat.cast_add, Nat.cast_one]
    ring

/-- A leg is found by stepping towards its end: either it is there, or the rest of the leg starts one
step nearer. -/
theorem towards_induction {motive : Int → Int → Prop} (stay : ∀ b, motive b b)
    (step : ∀ a b, a ≠ b → motive (a + (b - a).sign) b → motive a b) (a b : Int) : motive a b := by
  induction n : (b - a).natAbs generalizing a with
  | zero =>
    have hab : a = b := by omega
    subst hab
    exact stay a
  | succ n ih =>
    have hab : a ≠ b := by omega
    refine step a b hab (ih _ ?_)
    cases Int.lt_or_gt_of_ne hab with
    | inl hlt =>
      rw [Int.sign_eq_one_of_pos (by omega)]
      omega
    | inr hgt =>
      rw [Int.sign_eq_neg_one_of_neg (by omega)]
      omega

theorem mem_cons_towards {a b x : Int} :
    x ∈ a :: towards a b ↔ min a b ≤ x ∧ x ≤ max a b := by
  induction a, b using towards_induction with
  | stay b =>
    rw [towards_self, List.mem_singleton]
    omega
  | step a b hab ih =>
    rw [towards_cons hab, List.mem_cons, ih]
    cases Int.lt_or_gt_of_ne hab with
    | inl hlt =>
      rw [Int.sign_eq_one_of_pos (by omega)]
      omega
    | inr hgt =>
      rw [Int.sign_eq_neg_one_of_neg (by omega)]
      omega

theorem getLast?_cons_towards (a b : Int) : (a :: towards a b).getLast? = some b := by
  induction a, b using towards_induction with
  | stay b => rw [towards_self, List.getLast?_singleton]
  | step a b hab ih => rw [towards_cons hab, List.getLast?_cons_cons, ih]

theorem isChain_cons_towards (a b : Int) :
    (a :: towards a b).IsChain fun u v => (u - v).natAbs = 1 := by
  induction a, b using towards_induction with
  | stay b =>
    rw [towards_self]
    exact .singleton b
  | step a b hab ih =>
    rw [towards_cons hab]
    refine .cons_cons ?_ ih
    cases Int.lt_or_gt_of_ne hab with
    | inl hlt =>
      rw [Int.sign_eq_one_of_pos (by omega)]
      omega
    | inr hgt =>
      rw [Int.sign_eq_neg_one_of_neg (by omega)]
      omega

theorem length_towards (a b : Int) : (towards a b).length = (b - a).natAbs := by
  rw [towards, List.length_map, List.length_range]

theorem nodup_cons_towards (a b : Int) : (a :: towards a b).Nodup := by
  induction a, b using towards_induction with
  | stay b =>
    rw [towards_self]
    exact List.nodup_singleton b
  | step a b hab ih =>
    rw [towards_cons hab, List.nodup_cons]
    refine ⟨fun hmem => ?_, ih⟩
    -- The rest of the leg lies between the next number and the end, and leaves the start behind.
    rw [mem_cons_towards] at hmem
    cases Int.lt_or_gt_of_ne hab with
    | inl hlt =>
      rw [Int.sign_eq_one_of_pos (by omega)] at hmem
      omega
    | inr hgt =>
      rw [Int.sign_eq_neg_one_of_neg (by omega)] at hmem
      omega

theorem cons_towards_eq (a b : Int) :
    a :: towards a b
      = (List.range ((b - a).natAbs + 1)).map fun (k : Nat) => a + (b - a).sign * k := by
  rw [List.range_succ_eq_map, List.map_cons, List.map_map, towards]
  simp only [Function.comp_def, Nat.cast_zero, mul_zero, add_zero, Nat.cast_succ]

theorem reverse_cons_towards (a b : Int) : (a :: towards a b).reverse = b :: towards b a := by
  have hlen : (a - b).natAbs = (b - a).natAbs := by omega
  have hsign : (a - b).sign = -(b - a).sign := by rw [← Int.sign_neg, neg_sub]
  rw [cons_towards_eq, cons_towards_eq, hlen, hsign]
  refine List.ext_getElem (by simp) fun k hk _ => ?_
  simp only [List.length_reverse, List.length_map, List.length_range] at hk
  simp only [List.getElem_reverse, List.getElem_map, List.getElem_range, List.length_map,
    List.length_range, Nat.add_sub_cancel]
  -- The `k`-th number from the end is `k` steps before it.
  rw [Nat.cast_sub (by omega)]
  linear_combination Int.sign_mul_natAbs (b - a)

/-! ## Two legs -/

section Legs

variable {f g : Int → Point} {a b c d : Int}

theorem walks_legs (hf : ∀ u v : Int, (u - v).natAbs = 1 → (f u).manhattan (f v) = 1)
    (hg : ∀ u v : Int, (u - v).natAbs = 1 → (g u).manhattan (g v) = 1) (corner : f b = g c) :
    Walks ((a :: towards a b).map f ++ (towards c d).map g) := by
  have first : Walks ((a :: towards a b).map f) := by
    unfold Walks
    rw [List.isChain_map]
    exact (isChain_cons_towards a b).imp hf
  have second : Walks ((c :: towards c d).map g) := by
    unfold Walks
    rw [List.isChain_map]
    exact (isChain_cons_towards c d).imp hg
  -- The second leg starts at the corner, which stands in the list as the end of the first one.
  unfold Walks at *
  rw [List.map_cons, List.isChain_cons] at second
  rw [List.isChain_append]
  refine ⟨first, second.2, fun x hx y hy => ?_⟩
  rw [List.getLast?_map, getLast?_cons_towards, Option.map_some, Option.mem_some] at hx
  rw [← hx, corner]
  exact second.1 y hy

theorem getLast?_legs (corner : f b = g c) :
    ((a :: towards a b).map f ++ (towards c d).map g).getLast? = some (g d) := by
  have hlast := getLast?_cons_towards c d
  rw [List.getLast?_append, List.getLast?_map, List.getLast?_map, getLast?_cons_towards]
  rw [List.getLast?_cons] at hlast
  cases h : (towards c d).getLast? with
  | none =>
    rw [h, Option.getD_none, Option.some.injEq] at hlast
    simp [corner, hlast]
  | some v =>
    rw [h, Option.getD_some] at hlast
    simp [Option.some.inj hlast]

theorem mem_legs {p : Point} (h : p ∈ (a :: towards a b).map f ++ (towards c d).map g) :
    (∃ u, min a b ≤ u ∧ u ≤ max a b ∧ p = f u) ∨ ∃ v, min c d ≤ v ∧ v ≤ max c d ∧ p = g v := by
  cases List.mem_append.mp h with
  | inl h =>
    obtain ⟨u, hu, rfl⟩ := List.mem_map.mp h
    obtain ⟨hlo, hhi⟩ := mem_cons_towards.mp hu
    exact .inl ⟨u, hlo, hhi, rfl⟩
  | inr h =>
    obtain ⟨v, hv, rfl⟩ := List.mem_map.mp h
    obtain ⟨hlo, hhi⟩ := mem_cons_towards.mp (List.mem_cons_of_mem c hv)
    exact .inr ⟨v, hlo, hhi, rfl⟩

theorem length_legs : ((a :: towards a b).map f ++ (towards c d).map g).length
    = (b - a).natAbs + (d - c).natAbs + 1 := by
  simp only [List.length_append, List.length_map, List.length_cons, length_towards]
  omega

theorem nodup_legs (hf : Function.Injective f) (hg : Function.Injective g)
    (meet : ∀ u v, f u = g v → v = c) :
    ((a :: towards a b).map f ++ (towards c d).map g).Nodup := by
  have hsecond := List.nodup_cons.mp (nodup_cons_towards c d)
  refine List.nodup_append.mpr ⟨(nodup_cons_towards a b).map hf, hsecond.2.map hg, ?_⟩
  intro p hp q hq heq
  obtain ⟨u, _, rfl⟩ := List.mem_map.mp hp
  obtain ⟨v, hv, rfl⟩ := List.mem_map.mp hq
  -- The legs have only the corner in common, which the second leg leaves out.
  exact hsecond.1 (meet u v heq ▸ hv)

theorem reverse_legs (corner : f b = g c) :
    ((a :: towards a b).map f ++ (towards c d).map g).reverse
      = (d :: towards d c).map g ++ (towards b a).map f := by
  have hfirst : ((a :: towards a b).map f).reverse = g c :: (towards b a).map f := by
    rw [← List.map_reverse, reverse_cons_towards, List.map_cons, corner]
  have hsecond : ((towards c d).map g).reverse ++ [g c] = (d :: towards d c).map g := by
    rw [← reverse_cons_towards, List.map_reverse, List.map_cons, List.reverse_cons]
  rw [List.reverse_append, hfirst, ← hsecond, List.append_assoc, List.singleton_append]

end Legs

/-! ## Bent paths -/

namespace Bend

theorem path_eq_legs (bend : Bend) (a b : Point) :
    bend.path a b = match bend with
      | .horizontal => (a.x :: towards a.x b.x).map (fun x => ⟨x, a.y⟩)
          ++ (towards a.y b.y).map fun y => ⟨b.x, y⟩
      | .vertical => (a.y :: towards a.y b.y).map (fun y => ⟨a.x, y⟩)
          ++ (towards a.x b.x).map fun x => ⟨x, b.y⟩ := by
  cases bend <;> rfl

theorem path_walks (bend : Bend) (a b : Point) : Walks (bend.path a b) := by
  rw [path_eq_legs]
  cases bend with
  | horizontal =>
    exact walks_legs (fun u v h => by simpa [Point.manhattan] using h)
      (fun u v h => by simpa [Point.manhattan] using h) rfl
  | vertical =>
    exact walks_legs (fun u v h => by simpa [Point.manhattan] using h)
      (fun u v h => by simpa [Point.manhattan] using h) rfl

theorem head?_path (bend : Bend) (a b : Point) : (bend.path a b).head? = some a := by
  cases bend <;> rfl

theorem getLast?_path (bend : Bend) (a b : Point) : (bend.path a b).getLast? = some b := by
  rw [path_eq_legs]
  cases bend <;> exact getLast?_legs rfl

theorem path_in_box {bend : Bend} {a b p : Point} (h : p ∈ bend.path a b) :
    min a.x b.x ≤ p.x ∧ p.x ≤ max a.x b.x ∧ min a.y b.y ≤ p.y ∧ p.y ≤ max a.y b.y := by
  rw [path_eq_legs] at h
  cases bend with
  | horizontal =>
    rcases mem_legs h with ⟨u, hlo, hhi, rfl⟩ | ⟨v, hlo, hhi, rfl⟩
    · exact ⟨hlo, hhi, min_le_left _ _, le_max_left _ _⟩
    · exact ⟨min_le_right _ _, le_max_right _ _, hlo, hhi⟩
  | vertical =>
    rcases mem_legs h with ⟨u, hlo, hhi, rfl⟩ | ⟨v, hlo, hhi, rfl⟩
    · exact ⟨min_le_left _ _, le_max_left _ _, hlo, hhi⟩
    · exact ⟨hlo, hhi, min_le_right _ _, le_max_right _ _⟩

/-- The point where the two legs meet. -/
def corner (bend : Bend) (a b : Point) : Point :=
  match bend with
  | horizontal => ⟨b.x, a.y⟩
  | vertical => ⟨a.x, b.y⟩

theorem path_on_legs {bend : Bend} {a b p : Point} (h : p ∈ bend.path a b) :
    p.x = (bend.corner a b).x ∨ p.y = (bend.corner a b).y := by
  rw [path_eq_legs] at h
  cases bend with
  | horizontal =>
    rcases mem_legs h with ⟨u, _, _, rfl⟩ | ⟨v, _, _, rfl⟩
    · exact .inr rfl
    · exact .inl rfl
  | vertical =>
    rcases mem_legs h with ⟨u, _, _, rfl⟩ | ⟨v, _, _, rfl⟩
    · exact .inl rfl
    · exact .inr rfl

theorem length_path (bend : Bend) (a b : Point) :
    (bend.path a b).length = a.manhattan b + 1 := by
  rw [path_eq_legs, Point.manhattan]
  cases bend <;> simp only [length_legs] <;> omega

theorem nodup_path (bend : Bend) (a b : Point) : (bend.path a b).Nodup := by
  rw [path_eq_legs]
  cases bend with
  | horizontal =>
    exact nodup_legs (fun u v h => congrArg Point.x h) (fun u v h => congrArg Point.y h)
      fun u v h => (congrArg Point.y h).symm
  | vertical =>
    exact nodup_legs (fun u v h => congrArg Point.y h) (fun u v h => congrArg Point.x h)
      fun u v h => (congrArg Point.x h).symm

theorem reverse_path_horizontal (a b : Point) :
    (horizontal.path a b).reverse = vertical.path b a := by
  rw [path_eq_legs, path_eq_legs]
  exact reverse_legs rfl

end Bend

end Dungeon
