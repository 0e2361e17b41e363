import Dungeon.Populate
import Dungeon.Proofs.Plan

/-!
# Populated rooms

Populating a map changes what its rooms hold and their roles. It leaves the plan alone, whatever is
drawn, and no count comes out negative.

Results:
1. `Room.furnish_ensures`: what one room gets.
2. `Map.populate_ensures`: what becomes of a map.
-/

namespace Dungeon

theorem jitteredCount_ensures (density : Number.Single) (area : Int) :
    (jitteredCount density area).Ensures fun n => 0 ≤ n := by
  unfold jitteredCount
  dsimp only
  split
  · split
    · exact .pure (Int.natCast_nonneg _)
    · exact (Draw.Ensures.trivial _).bind fun more _ => .pure (Int.natCast_nonneg _)
  · exact .pure le_rfl

namespace Room

/-- No count is negative. -/
structure Stocked (r : Room) : Prop where
  monsters : 0 ≤ r.monsters
  treasures : 0 ≤ r.treasures
  traps : 0 ≤ r.traps

theorem stocked_emptied (r : Room) (place count : Nat) : (r.emptied place count).Stocked :=
  ⟨le_rfl, le_rfl, le_rfl⟩

theorem furnish_ensures (a : Template) {r : Room} (h : r.Stocked) :
    (r.furnish a).Ensures fun s => s.bare = r.bare ∧ s.Stocked := by
  unfold furnish
  split
  · refine (Draw.between_ensures (by omega)).bind fun monsters hmonsters => .pure ⟨rfl, ?_⟩
    exact ⟨(by decide : (0 : Int) ≤ 2).trans hmonsters.1, zero_le_one, h.traps⟩
  · split
    · exact .pure ⟨rfl, h⟩
    · refine (jitteredCount_ensures _ _).bind fun monsters hmonsters => ?_
      refine (jitteredCount_ensures _ _).bind fun treasures htreasures => ?_
      refine (jitteredCount_ensures _ _).bind fun traps htraps => .pure ⟨rfl, ?_⟩
      exact ⟨hmonsters, htreasures, htraps⟩

end Room

theorem bare_emptied (rooms : List Room) (count : Nat) :
    (rooms.zipIdx.map fun (r, place) => r.emptied place count).map Room.bare
      = rooms.map Room.bare := by
  calc (rooms.zipIdx.map fun (r, place) => r.emptied place count).map Room.bare
      = (rooms.zipIdx.map Prod.fst).map Room.bare := by rw [List.map_map, List.map_map]; rfl
    _ = rooms.map Room.bare := by rw [List.zipIdx_map_fst]

theorem furnished_list {rooms furnished : List Room}
    (h : List.Forall₂ (fun r s => s.bare = r.bare ∧ s.Stocked) rooms furnished) :
    furnished.map Room.bare = rooms.map Room.bare ∧ ∀ r ∈ furnished, r.Stocked := by
  induction h with
  | nil => exact ⟨rfl, fun r hr => by cases hr⟩
  | @cons r s rest rest' hone _ ih =>
    refine ⟨?_, ?_⟩
    · rw [List.map_cons, List.map_cons, hone.1, ih.1]
    · exact List.forall_mem_cons.mpr ⟨hone.2, ih.2⟩

/-- Populating gives rooms other roles and contents, and nothing else. -/
theorem Map.populate_ensures (m : Map) (a : Template) :
    (m.populate a).Ensures fun populated => ∃ rooms, populated = { m with rooms } ∧
      rooms.map Room.bare = m.rooms.map Room.bare ∧ ∀ r ∈ rooms, r.Stocked := by
  have hfurnish : ∀ r ∈ m.rooms.zipIdx.map fun (r, place) => r.emptied place m.rooms.length,
      (r.furnish a).Ensures fun s => s.bare = r.bare ∧ s.Stocked := by
    intro r hr
    obtain ⟨⟨r, place⟩, _, rfl⟩ := List.mem_map.mp hr
    exact Room.furnish_ensures a (Room.stocked_emptied r place _)
  refine (Draw.Ensures.mapM hfurnish).bind fun rooms hrooms => .pure ?_
  obtain ⟨hbare, hstocked⟩ := furnished_list hrooms
  rw [bare_emptied] at hbare
  exact ⟨rooms, rfl, hbare, hstocked⟩

end Dungeon
