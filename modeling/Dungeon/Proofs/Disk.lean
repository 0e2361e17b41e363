import Dungeon.Disk
import Mathlib

/-!
# Writing to disks

Writing at a path changes at most the file at the place that the path leads to: everything else on
the disk stays as it is.

Results:
1. `Disk.find?_put_self`, `Disk.find?_put_of_ne`: what is found after a file was put at a place.
2. `Disk.wrote_of_write?`: what becomes of a disk when a file can be written.
3. `Disk.Attempted.sameBut`: an attempt to write changes at most one file.
-/

namespace Dungeon.Disk

variable {d e : Disk} {place : Place}

/-- The disks differ at most in the file at a place. -/
structure SameBut (place : Place) (d e : Disk) : Prop where
  home : e.home = d.home
  directories : e.directories = d.directories
  sinks : e.sinks = d.sinks
  find? : ∀ other, other ≠ place → e.find? other = d.find? other

theorem SameBut.refl (place : Place) (d : Disk) : SameBut place d d :=
  ⟨rfl, rfl, rfl, fun _ _ => rfl⟩

theorem find?_put_self (d : Disk) (place : Place) (content : Text) :
    (d.put place content).find? place = some content := by
  have hnone : (d.files.filter fun file => file.1 ≠ place).find? (fun file => file.1 = place) =
      none := by simp
  rw [find?, put, List.find?_append, hnone, Option.none_or, List.find?_singleton,
    if_pos (decide_eq_true rfl), Option.map_some]

theorem find?_put_of_ne {other : Place} (hne : other ≠ place) (d : Disk) (content : Text) :
    (d.put place content).find? other = d.find? other := by
  have hkept : (d.files.filter fun file => file.1 ≠ place).find? (fun file => file.1 = other) =
      d.files.find? fun file => file.1 = other := by
    rw [List.find?_filter]
    congr 1
    funext file
    by_cases hfile : file.1 = other
    · simp [hfile, hne]
    · simp [hfile]
  have hnew : ¬ decide (place = other) = true := by simpa using hne.symm
  rw [find?, find?, put, List.find?_append, hkept, List.find?_singleton, if_neg hnew,
    Option.or_none]

theorem sameBut_put (d : Disk) (place : Place) (content : Text) :
    SameBut place d (d.put place content) :=
  ⟨rfl, rfl, rfl, fun _ hne => find?_put_of_ne hne d content⟩

/-- The content is written at the place that the path leads to, or is gone because a sink lies
there. -/
def Wrote (d : Disk) (path content : Text) (e : Disk) : Prop :=
  ∃ place, d.resolve? path = some place ∧ SameBut place d e ∧
    (e.find? place = some content ∨ place ∈ d.sinks ∧ e = d)

theorem wrote_of_write? {path content : Text} (h : d.write? path content = some e) :
    d.Wrote path content e := by
  obtain ⟨place, hplace, hwrite⟩ := Option.bind_eq_some_iff.mp h
  refine ⟨place, hplace, ?_⟩
  split at hwrite
  · cases hwrite
  · split at hwrite
    · next hsink =>
      cases hwrite
      exact ⟨.refl place d, .inr ⟨by simpa using hsink, rfl⟩⟩
    · cases hwrite
      exact ⟨sameBut_put d place content, .inl (find?_put_self d place content)⟩

/-- What an attempt to write the content leads to: it is written, or else the path cannot be opened
and everything stays. -/
def Attempted (d : Disk) (path content : Text) (written : Bool) (e : Disk) : Prop :=
  if written then d.write? path content = some e ∧ d.Wrote path content e
  else d.write? path content = none ∧ e = d

theorem Attempted.kept {path content : Text} {written : Bool}
    (h : d.Attempted path content written e) (hclosed : d.write? path content = none) :
    written = false ∧ e = d := by
  cases written with
  | true => cases hclosed.symm.trans h.1
  | false => exact ⟨rfl, h.2⟩

theorem Attempted.sameBut {path content : Text} {written : Bool}
    (h : d.Attempted path content written e) : ∃ place, SameBut place d e := by
  cases written with
  | true =>
    obtain ⟨_, place, _, hsame, _⟩ := h
    exact ⟨place, hsame⟩
  | false =>
    obtain ⟨_, rfl⟩ := h
    exact ⟨[], .refl [] e⟩

end Dungeon.Disk
