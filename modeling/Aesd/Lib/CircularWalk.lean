/-
Walking a circular array.

`walk slot capacity start count` reads `count` slots of a circular array from
`start` on. The lemmas say what an insertion behind the walked part and an
overwriting of its oldest slot do to the walk.
-/

import Mathlib.Data.List.Nodup
import Mathlib.Data.List.Perm.Subperm
import Mathlib.Data.List.Range
import Mathlib.Logic.Function.Basic
import Mathlib.Data.Nat.ModEq

namespace Aesd.CircularWalk

variable {β : Type}

def walk (slot : Nat → β) (capacity start count : Nat) : List β :=
  (List.range count).map (fun step => slot ((start + step) % capacity))

@[simp] theorem walk_length (slot : Nat → β) (capacity start count : Nat) :
    (walk slot capacity start count).length = count := by
  simp only [walk, List.length_map, List.length_range]

theorem walk_zero (slot : Nat → β) (capacity start : Nat) : walk slot capacity start 0 = [] := rfl

theorem walk_snoc (slot : Nat → β) (capacity start count : Nat) :
    walk slot capacity start (count + 1) =
      walk slot capacity start count ++ [slot ((start + count) % capacity)] := by
  simp only [walk, List.range_succ, List.map_append, List.map_cons, List.map_nil]

theorem walk_cons (slot : Nat → β) (capacity start count : Nat) :
    walk slot capacity start (count + 1) =
      slot (start % capacity) :: walk slot capacity ((start + 1) % capacity) count := by
  simp only [walk, List.range_succ_eq_map, List.map_cons, List.map_map, Nat.add_zero]
  congr 1
  apply List.map_congr_left
  intro step _member
  change slot ((start + (step + 1)) % capacity) = slot (((start + 1) % capacity + step) % capacity)
  rw [Nat.mod_add_mod]
  congr 2
  omega

theorem mem_walk {slot : Nat → β} {capacity start count : Nat} {item : β} :
    item ∈ walk slot capacity start count ↔
      ∃ step < count, slot ((start + step) % capacity) = item := by
  simp only [walk, List.mem_map, List.mem_range]

theorem offset_injective {capacity start left right : Nat} (leftBound : left < capacity)
    (rightBound : right < capacity)
    (same : (start + left) % capacity = (start + right) % capacity) : left = right := by
  have positive : 0 < capacity := Nat.lt_of_le_of_lt (Nat.zero_le left) leftBound
  have congruent : left ≡ right [MOD capacity] := Nat.ModEq.add_left_cancel' start same
  rw [Nat.ModEq, Nat.mod_eq_of_lt leftBound, Nat.mod_eq_of_lt rightBound] at congruent
  exact congruent

theorem walk_update_of_outside {slot : Nat → β} {capacity start count target : Nat} (item : β)
    (outside : ∀ step < count, (start + step) % capacity ≠ target) :
    walk (Function.update slot target item) capacity start count =
      walk slot capacity start count := by
  apply List.map_congr_left
  intro step member
  exact Function.update_of_ne (outside step (List.mem_range.mp member)) item slot

/-- Storing right behind a walk that leaves room appends to it. -/
theorem walk_push {slot : Nat → β} {capacity start count : Nat} (room : count < capacity)
    (item : β) :
    walk (Function.update slot ((start + count) % capacity) item) capacity start (count + 1) =
      walk slot capacity start count ++ [item] := by
  rw [walk_snoc, Function.update_self, walk_update_of_outside]
  intro step bound same
  have equal := offset_injective (Nat.lt_trans bound room) room same
  omega

/-- Overwriting the first slot of a whole turn and starting one further drops
the oldest element and appends the new one. -/
theorem walk_rotate {slot : Nat → β} {capacity start : Nat} (bound : start < capacity)
    (item : β) :
    walk (Function.update slot start item) capacity ((start + 1) % capacity) capacity =
      (walk slot capacity start capacity).tail ++ [item] := by
  obtain ⟨count, rfl⟩ : ∃ count, capacity = count + 1 := ⟨capacity - 1, by omega⟩
  have last : ((start + 1) % (count + 1) + count) % (count + 1) = start := by
    rw [Nat.mod_add_mod, Nat.add_assoc, Nat.add_comm 1 count, Nat.add_mod_right,
      Nat.mod_eq_of_lt bound]
  rw [walk_cons slot, List.tail_cons, walk_snoc, last, Function.update_self,
    walk_update_of_outside]
  intro step stepBound same
  have shifted : (start + (step + 1)) % (count + 1) = (start + 0) % (count + 1) := by
    rw [Nat.add_zero start, Nat.mod_eq_of_lt bound, Nat.add_comm step 1, ← Nat.add_assoc,
      ← Nat.mod_add_mod]
    exact same
  have impossible := offset_injective (by omega) (by omega) shifted
  omega

theorem walk_nodup {capacity start count : Nat} (bound : count ≤ capacity) :
    (walk id capacity start count).Nodup := by
  apply List.Nodup.map_on _ List.nodup_range
  intro left leftMember right rightMember same
  have leftBound := List.mem_range.mp leftMember
  have rightBound := List.mem_range.mp rightMember
  exact offset_injective (by omega) (by omega) same

/-- A full turn meets every slot once, wherever it starts. -/
theorem walk_full_perm (slot : Nat → β) {capacity : Nat} (positive : 0 < capacity) (start : Nat) :
    (walk slot capacity start capacity).Perm ((List.range capacity).map slot) := by
  have distinct : ((List.range capacity).map fun step => (start + step) % capacity).Nodup :=
    walk_nodup (Nat.le_refl capacity)
  have inside : ((List.range capacity).map fun step => (start + step) % capacity) ⊆
      List.range capacity := by
    intro index member
    obtain ⟨step, _, rfl⟩ := List.mem_map.mp member
    exact List.mem_range.mpr (Nat.mod_lt _ positive)
  have turn : ((List.range capacity).map fun step => (start + step) % capacity).Perm
      (List.range capacity) :=
    (List.subperm_of_subset distinct inside).perm_of_length_le (by simp)
  have image := turn.map slot
  rw [List.map_map] at image
  exact image

end Aesd.CircularWalk
