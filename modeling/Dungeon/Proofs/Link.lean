import Dungeon.Room
import Dungeon.Proofs.Draw

/-!
# Rooms linked by corridors

Corridors are the edges of a graph on room numbers. Layouts make them so that each new one joins two
groups of rooms that were apart, and in the end one group is left.

Results:
1. `Linked.restrict`: corridors among other rooms are of no use between rooms of a group.
2. `Spans.join`: two groups with a spanning tree each and a corridor between them have a spanning
   tree together.
-/

namespace Dungeon

theorem Corridor.draw_ensures (a b : Room) :
    (Corridor.draw a b).Ensures fun c => ∃ bend, c = Corridor.between bend a b :=
  (Draw.Ensures.trivial _).bind fun _ _ => .pure ⟨_, rfl⟩

/-- Corridors lead from one room number to the other. -/
def Linked (corridors : List Corridor) : Int → Int → Prop :=
  Relation.EqvGen fun i j => ∃ c ∈ corridors, c.roomA = i ∧ c.roomB = j

theorem Linked.mono {cs ds : List Corridor} {i j : Int} (hsub : ∀ c ∈ cs, c ∈ ds)
    (h : Linked cs i j) : Linked ds i j := by
  induction h with
  | rel a b hab =>
    obtain ⟨c, hc, hends⟩ := hab
    exact .rel _ _ ⟨c, hsub c hc, hends⟩
  | refl a => exact .refl a
  | symm a b _ ih => exact .symm _ _ ih
  | trans a b c _ _ ih ih' => exact .trans _ _ _ ih ih'

/-- Corridors that avoid a group of rooms are of no use between rooms of the group. -/
theorem Linked.restrict {cs ds : List Corridor} {i j : Int} (group : Int → Prop)
    (hcs : ∀ c ∈ cs, ¬ group c.roomA ∧ ¬ group c.roomB)
    (hds : ∀ c ∈ ds, group c.roomA ∧ group c.roomB) (h : Linked (cs ++ ds) i j) :
    (group i ↔ group j) ∧ (group i → Linked ds i j) := by
  induction h with
  | rel a b hab =>
    obtain ⟨c, hc, rfl, rfl⟩ := hab
    cases List.mem_append.mp hc with
    | inl hc => exact ⟨iff_of_false (hcs c hc).1 (hcs c hc).2, fun hg => absurd hg (hcs c hc).1⟩
    | inr hc => exact ⟨iff_of_true (hds c hc).1 (hds c hc).2, fun _ => .rel _ _ ⟨c, hc, rfl, rfl⟩⟩
  | refl a => exact ⟨Iff.rfl, fun _ => .refl a⟩
  | symm a b _ ih => exact ⟨ih.1.symm, fun hg => .symm _ _ (ih.2 (ih.1.mpr hg))⟩
  | trans a b c _ _ ih ih' =>
    exact ⟨ih.1.trans ih'.1, fun hg => .trans _ _ _ (ih.2 hg) (ih'.2 (ih.1.mp hg))⟩

/-- The corridors are a spanning tree of the rooms from `lo` up to but not including `hi`: each of
them joins two groups that those before it leave apart, and all rooms end up in one group. -/
structure Spans (lo hi : Int) (corridors : List Corridor) : Prop where
  count : (corridors.length : Int) + 1 = hi - lo
  ends : ∀ c ∈ corridors, (lo ≤ c.roomA ∧ c.roomA < hi) ∧ lo ≤ c.roomB ∧ c.roomB < hi
  acyclic : ∀ n c, corridors[n]? = some c → ¬ Linked (corridors.take n) c.roomA c.roomB
  linked : ∀ i j, lo ≤ i → i < hi → lo ≤ j → j < hi → Linked corridors i j

theorem Spans.single (id : Int) : Spans id (id + 1) [] := by
  refine ⟨by simp, by simp, by simp, fun i j hi hi' hj hj' => ?_⟩
  have hij : i = j := by omega
  subst hij
  exact .refl i

/-- A corridor of two lists stands in the first, or in the second with all of the first before it. -/
theorem getElem?_append_cases {α : Type} {cs ds : List α} {n : Nat} {c : α}
    (h : (cs ++ ds)[n]? = some c) :
    (cs[n]? = some c ∧ (cs ++ ds).take n = cs.take n) ∨
      ∃ k, ds[k]? = some c ∧ (cs ++ ds).take n = cs ++ ds.take k := by
  cases Nat.lt_or_ge n cs.length with
  | inl hn =>
    rw [List.getElem?_append_left hn] at h
    exact .inl ⟨h, List.take_append_of_le_length hn.le⟩
  | inr hn =>
    rw [List.getElem?_append_right hn] at h
    exact .inr ⟨n - cs.length, h, by rw [List.take_append, List.take_of_length_le hn]⟩

section Join

variable {lo mid hi : Int} {cs ds : List Corridor} {c : Corridor}

theorem Spans.join (h : Spans lo mid cs) (h' : Spans mid hi ds)
    (hA : lo ≤ c.roomA ∧ c.roomA < mid) (hB : mid ≤ c.roomB ∧ c.roomB < hi) :
    Spans lo hi (cs ++ ds ++ [c]) := by
  have hends : ∀ d ∈ cs ++ ds ++ [c], (lo ≤ d.roomA ∧ d.roomA < hi) ∧ lo ≤ d.roomB ∧ d.roomB < hi := by
    intro d hd
    simp only [List.mem_append, List.mem_singleton] at hd
    rcases hd with (hd | hd) | rfl
    · have := h.ends d hd
      omega
    · have := h'.ends d hd
      omega
    · omega
  have hlow : ∀ d ∈ cs, ¬ mid ≤ d.roomA ∧ ¬ mid ≤ d.roomB := fun d hd => by
    have := h.ends d hd
    omega
  have hhigh : ∀ d ∈ ds, mid ≤ d.roomA ∧ mid ≤ d.roomB := fun d hd => by
    have := h'.ends d hd
    omega
  refine ⟨?_, hends, fun n d hd => ?_, fun i j hi₁ hi₂ hj₁ hj₂ => ?_⟩
  · have hcount := h.count
    have hcount' := h'.count
    simp only [List.length_append, List.length_singleton]
    omega
  · rcases getElem?_append_cases hd with ⟨hd, htake⟩ | ⟨k, hd, htake⟩
    · rw [htake]
      rcases getElem?_append_cases hd with ⟨hd, htake⟩ | ⟨k, hd, htake⟩
      · rw [htake]
        exact h.acyclic n d hd
      · -- The corridors of the lower part do not help to join rooms of the upper one.
        rw [htake]
        intro hlinked
        have hsome : ∀ e ∈ ds.take k, mid ≤ e.roomA ∧ mid ≤ e.roomB :=
          fun e he => hhigh e (List.mem_of_mem_take he)
        have hmid := (hhigh d (List.mem_of_getElem? hd)).1
        exact h'.acyclic k d hd ((hlinked.restrict (mid ≤ ·) hlow hsome).2 hmid)
    · -- The new corridor is the only one with an end on each side.
      have hk : k = 0 := by
        have hlt := (List.getElem?_eq_some_iff.mp hd).1
        rw [List.length_singleton] at hlt
        omega
      subst hk
      rw [List.getElem?_cons_zero, Option.some.injEq] at hd
      subst hd
      rw [htake, List.take_zero, List.append_nil]
      intro hlinked
      have hiff := (hlinked.restrict (mid ≤ ·) hlow hhigh).1
      omega
  · have hfirst : ∀ a b, lo ≤ a → a < mid → lo ≤ b → b < mid → Linked (cs ++ ds ++ [c]) a b :=
      fun a b ha ha' hb hb' => (h.linked a b ha ha' hb hb').mono fun e he => by simp [he]
    have hsecond : ∀ a b, mid ≤ a → a < hi → mid ≤ b → b < hi → Linked (cs ++ ds ++ [c]) a b :=
      fun a b ha ha' hb hb' => (h'.linked a b ha ha' hb hb').mono fun e he => by simp [he]
    have hbridge : Linked (cs ++ ds ++ [c]) c.roomA c.roomB := .rel _ _ ⟨c, by simp, rfl, rfl⟩
    -- All rooms lead to the lower end of the new corridor, those of the upper part through it.
    have hreach : ∀ a, lo ≤ a → a < hi → Linked (cs ++ ds ++ [c]) a c.roomA := by
      intro a ha ha'
      cases lt_or_ge a mid with
      | inl hlt => exact hfirst a _ ha hlt hA.1 hA.2
      | inr hge => exact .trans _ _ _ (hsecond a _ hge ha' hB.1 hB.2) (.symm _ _ hbridge)
    exact .trans _ _ _ (hreach i hi₁ hi₂) (.symm _ _ (hreach j hj₁ hj₂))

end Join

end Dungeon
