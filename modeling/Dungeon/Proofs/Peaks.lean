import Dungeon.Layout.Chambers
import Dungeon.Proofs.Clearance
import Dungeon.Proofs.Search

/-!
# Peaks

Chambers grow around the peaks of a cave, the points that no floor point next to them exceeds in
clearance. The point with the greatest clearance is a peak, and of all such points the first one row
by row is where the first chamber grows.

Results:
1. `Chambers.mem_peaks`, `Chambers.mem_ranked`: which peaks there are.
2. `exists_mostOpen`: a finite set of points that is not empty has a first most open point.
3. `Chambers.ranked_head`: that point is the first of the ranked peaks.
-/

namespace Dungeon

/-- No point of the set next to this one has a greater clearance. -/
structure IsPeak (s : Set Point) (p : Point) : Prop where
  mem : p ∈ s
  highest : ∀ q ∈ s, p.chebyshev q = 1 → clearance s q ≤ clearance s p

/-- The point is the first one, row by row, of all that have the greatest clearance. -/
structure MostOpen (s : Set Point) (p : Point) : Prop where
  mem : p ∈ s
  greatest : ∀ q ∈ s, clearance s q ≤ clearance s p
  first : ∀ q ∈ s, clearance s q = clearance s p → p = q ∨ p.Before q

theorem MostOpen.isPeak {s : Set Point} {p : Point} (h : MostOpen s p) : IsPeak s p :=
  ⟨h.mem, fun q hq _ => h.greatest q hq⟩

/-- It is in the middle of a square as large as any in the set. -/
theorem MostOpen.lt_clearance {s : Set Point} {p t : Point} {k : Nat} (hs : sᶜ.Nonempty)
    (h : MostOpen s p) (hsquare : ∀ q, t.chebyshev q ≤ k → q ∈ s) : k < clearance s p := by
  obtain ⟨q, hq, hclearance⟩ := exists_clearance hs t
  have hfar : k < clearance s t := by
    by_contra hnear
    exact hq (hsquare q (by omega))
  exact hfar.trans_le (h.greatest t (hsquare t (by rw [Point.chebyshev_eq_zero.mpr rfl]; omega)))

theorem exists_mostOpen (g : Grid) (h : g.floor.Nonempty) : ∃ p, MostOpen g.floor p := by
  obtain ⟨a, ha, hgreatest⟩ := Set.exists_max_image _ (clearance g.floor) g.finite_floor h
  -- Of the points as open as this one the first is that with the least index.
  have hfinite : {q ∈ g.floor | clearance g.floor q = clearance g.floor a}.Finite :=
    g.finite_floor.subset fun q hq => hq.1
  obtain ⟨p, ⟨hp, hopen⟩, hleast⟩ := Set.exists_min_image _ g.index hfinite ⟨a, ha, rfl⟩
  refine ⟨p, hp, fun q hq => (hgreatest q hq).trans hopen.ge, fun q hq heq => ?_⟩
  rcases p.before_or_eq_or_before q with hbefore | heq' | hafter
  · exact .inr hbefore
  · exact .inl heq'
  · have hlt := Grid.index_lt_of_before (Grid.inBounds_of_mem_floor hq)
      (Grid.inBounds_of_mem_floor hp) hafter
    exact absurd (hleast q ⟨hq, heq.trans hopen⟩) (Nat.not_le.mpr hlt)

namespace Chambers

variable {g : Grid} {peak : Peak} {ps : List Peak} {p : Point}

theorem mem_peaks (hg : g.Full) : peak ∈ peaks g ↔
    IsPeak g.floor peak.point ∧ peak.clearance = clearance g.floor peak.point := by
  have hat : ∀ q ∈ g.floor, g.clearanceAt g.clearances q = clearance g.floor q :=
    fun q hq => Grid.clearanceAt_clearances hg (Grid.inBounds_of_mem_floor hq)
  rw [peaks, List.mem_filterMap]
  constructor
  · rintro ⟨q, _, hpeak⟩
    rw [Option.ite_none_right_eq_some, Bool.and_eq_true, List.all_eq_true] at hpeak
    obtain ⟨⟨hq, hhighest⟩, hpeak⟩ := hpeak
    cases hpeak
    refine ⟨⟨hq, fun r hr hstep => ?_⟩, hat q hq⟩
    have hle := hhighest r (Point.mem_neighbours8.mpr hstep)
    rw [Grid.mem_floor.mp hr, Bool.not_true, Bool.false_or, decide_eq_true_eq, hat r hr, hat q hq] at hle
    exact hle
  · rintro ⟨⟨hmem, hhighest⟩, hclearance⟩
    refine ⟨peak.point, Grid.mem_points.mpr (Grid.inBounds_of_mem_floor hmem), ?_⟩
    rw [Option.ite_none_right_eq_some, Bool.and_eq_true, List.all_eq_true]
    refine ⟨⟨hmem, fun r hr => ?_⟩, ?_⟩
    · rw [Bool.or_eq_true, Bool.not_eq_true', decide_eq_true_eq]
      by_cases hr' : r ∈ g.floor
      · rw [hat r hr', hat _ hmem]
        exact .inr (hhighest r hr' (Point.mem_neighbours8.mp hr))
      · exact .inl (by simpa [Grid.mem_floor] using hr')
    · rw [hat _ hmem, ← hclearance]

theorem peaks_pairwise (g : Grid) : (peaks g).Pairwise fun a b => a.point.Before b.point := by
  rw [peaks, List.pairwise_filterMap]
  refine (Rect.points_pairwise g.frame).imp fun {p q} hbefore a ha b hb => ?_
  rw [Option.ite_none_right_eq_some] at ha hb
  cases ha.2
  cases hb.2
  exact hbefore

/-! ## Ranks -/

theorem foldl_max_le {start k : Nat} :
    ps.foldl (fun top p => max top p.clearance) start ≤ k ↔
      start ≤ k ∧ ∀ p ∈ ps, p.clearance ≤ k := by
  induction ps generalizing start with
  | nil => simp
  | cons p rest ih => rw [List.foldl_cons, ih, max_le_iff, List.forall_mem_cons, and_assoc]

theorem mem_ranked : peak ∈ ranked ps ↔ peak ∈ ps := by
  simp only [ranked, List.mem_flatMap, List.mem_reverse, List.mem_range, List.mem_filter,
    decide_eq_true_eq]
  constructor
  · rintro ⟨c, _, hmem, _⟩
    exact hmem
  · intro hmem
    exact ⟨_, Nat.lt_succ_of_le ((foldl_max_le.mp le_rfl).2 peak hmem), hmem, rfl⟩

/-- A list that is in order starts with its first item. -/
theorem eq_cons_of_first (hsorted : ps.Pairwise fun a b => a.point.Before b.point)
    (hmem : peak ∈ ps) (hfirst : ∀ a ∈ ps, peak.point = a.point ∨ peak.point.Before a.point) :
    ∃ rest, ps = peak :: rest := by
  cases ps with
  | nil => cases hmem
  | cons a rest =>
    rcases List.mem_cons.mp hmem with rfl | hmem
    · exact ⟨rest, rfl⟩
    · have hbefore := (List.pairwise_cons.mp hsorted).1 peak hmem
      rcases hfirst a List.mem_cons_self with heq | hafter
      · exact absurd heq.symm hbefore.ne
      · exact absurd hafter hbefore.asymm

/-- The most open point is the first peak in rank. -/
theorem ranked_head (hg : g.Full) (h : MostOpen g.floor p) :
    ∃ rest, ranked (peaks g) = ⟨p, clearance g.floor p⟩ :: rest := by
  have hpeak : ⟨p, clearance g.floor p⟩ ∈ peaks g := (mem_peaks hg).mpr ⟨h.isPeak, rfl⟩
  have hle : ∀ a ∈ peaks g, a.clearance ≤ clearance g.floor p := by
    intro a ha
    obtain ⟨ha, hclearance⟩ := (mem_peaks hg).mp ha
    exact hclearance.trans_le (h.greatest _ ha.mem)
  have htop : (peaks g).foldl (fun top p => max top p.clearance) 0 = clearance g.floor p :=
    le_antisymm (foldl_max_le.mpr ⟨Nat.zero_le _, hle⟩) ((foldl_max_le.mp le_rfl).2 _ hpeak)
  have hblock : ∃ rest, (peaks g).filter (fun a => a.clearance = clearance g.floor p)
      = ⟨p, clearance g.floor p⟩ :: rest := by
    refine eq_cons_of_first ((peaks_pairwise g).filter _) (List.mem_filter.mpr ⟨hpeak, by simp⟩)
      fun a ha => ?_
    obtain ⟨ha, hclearance⟩ := List.mem_filter.mp ha
    obtain ⟨ha, hclearance'⟩ := (mem_peaks hg).mp ha
    rw [decide_eq_true_eq] at hclearance
    exact h.first _ ha.mem (hclearance'.symm.trans hclearance)
  obtain ⟨rest, hrest⟩ := hblock
  refine ⟨rest ++ (List.range (clearance g.floor p)).reverse.flatMap fun c =>
    (peaks g).filter fun a => a.clearance = c, ?_⟩
  rw [ranked, htop, List.range_succ, List.reverse_append, List.reverse_singleton,
    List.singleton_append, List.flatMap_cons, hrest, List.cons_append]

end Chambers
end Dungeon
