/-
Tables that are filled at the lowest free slot.

A table is a list of slots, and behind its end every slot is free. A new entry goes
to the lowest free slot and disturbs no other.
-/

import Mathlib.Data.List.Basic

namespace Aesd

variable {α : Type*}

def Slots.look : List (Option α) → Nat → Option α
  | [], _ => none
  | slot :: _, 0 => slot
  | _ :: later, index + 1 => Slots.look later index

def Slots.lowest : List (Option α) → Nat
  | [] => 0
  | none :: _ => 0
  | some _ :: later => Slots.lowest later + 1

def Slots.put : List (Option α) → α → List (Option α)
  | [], entry => [some entry]
  | none :: later, entry => some entry :: later
  | some other :: later, entry => some other :: Slots.put later entry

def Slots.vacate : List (Option α) → Nat → List (Option α)
  | [], _ => []
  | _ :: later, 0 => none :: later
  | slot :: later, index + 1 => slot :: Slots.vacate later index

namespace Slots

@[simp]
theorem look_nil (index : Nat) : look ([] : List (Option α)) index = none := by
  cases index with
  | zero => rfl
  | succ index => rfl

theorem look_lowest (table : List (Option α)) : look table (lowest table) = none := by
  induction table with
  | nil => rfl
  | cons slot later ih =>
      cases slot with
      | none => rfl
      | some other => exact ih

theorem look_put_lowest (table : List (Option α)) (entry : α) :
    look (put table entry) (lowest table) = some entry := by
  induction table with
  | nil => rfl
  | cons slot later ih =>
      cases slot with
      | none => rfl
      | some other => exact ih

theorem look_put_other (table : List (Option α)) (entry : α) {index : Nat}
    (other : index ≠ lowest table) : look (put table entry) index = look table index := by
  induction table generalizing index with
  | nil =>
      cases index with
      | zero => exact absurd rfl other
      | succ index => simp [put, look]
  | cons slot later ih =>
      cases slot with
      | none =>
          cases index with
          | zero => exact absurd rfl other
          | succ index => rfl
      | some entry =>
          cases index with
          | zero => rfl
          | succ index =>
              apply ih
              intro same
              exact other (congrArg Nat.succ same)

theorem look_of_lt_lowest (table : List (Option α)) {index : Nat}
    (below : index < lowest table) : look table index ≠ none := by
  induction table generalizing index with
  | nil => exact absurd below (Nat.not_lt_zero index)
  | cons slot later ih =>
      cases slot with
      | none => exact absurd below (Nat.not_lt_zero index)
      | some entry =>
          cases index with
          | zero => exact Option.some_ne_none entry
          | succ index => exact ih (Nat.lt_of_succ_lt_succ below)

theorem lowest_lt_lowest_put (table : List (Option α)) (entry : α) :
    lowest table < lowest (put table entry) := by
  by_contra beyond
  have free := look_lowest (put table entry)
  by_cases same : lowest (put table entry) = lowest table
  · rw [same, look_put_lowest] at free
    cases free
  · rw [look_put_other table entry same] at free
    exact look_of_lt_lowest table (by omega) free

theorem look_vacate_same (table : List (Option α)) (index : Nat) :
    look (vacate table index) index = none := by
  induction table generalizing index with
  | nil => simp [vacate]
  | cons slot later ih =>
      cases index with
      | zero => rfl
      | succ index => exact ih index

theorem look_vacate_other (table : List (Option α)) {index other : Nat} (differ : other ≠ index) :
    look (vacate table index) other = look table other := by
  induction table generalizing index other with
  | nil => rfl
  | cons slot later ih =>
      cases index with
      | zero =>
          cases other with
          | zero => exact absurd rfl differ
          | succ other => rfl
      | succ index =>
          cases other with
          | zero => rfl
          | succ other =>
              apply ih
              intro same
              exact differ (congrArg Nat.succ same)

/-! ### Free slots -/

/-- How many slots below the bound are free. -/
def free : List (Option α) → Nat → Nat
  | [], bound => bound
  | _ :: _, 0 => 0
  | slot :: later, bound + 1 => (if slot.isNone then 1 else 0) + free later bound

theorem le_lowest_iff (table : List (Option α)) (bound : Nat) :
    bound ≤ lowest table ↔ free table bound = 0 := by
  induction table generalizing bound with
  | nil => exact Nat.le_zero
  | cons slot later ih =>
      cases bound with
      | zero => exact iff_of_true (Nat.zero_le _) rfl
      | succ bound =>
          cases slot with
          | none => simp [lowest, free]
          | some other => simpa [lowest, free] using ih bound

theorem free_put (table : List (Option α)) (entry : α) (bound : Nat) :
    free (put table entry) bound = free table bound - 1 := by
  induction table generalizing bound with
  | nil =>
      cases bound with
      | zero => rfl
      | succ bound => simp [put, free]
  | cons slot later ih =>
      cases bound with
      | zero => cases slot <;> rfl
      | succ bound =>
          cases slot with
          | none => simp [put, free]
          | some other => simpa [put, free] using ih bound

/-! ### Entries -/

theorem mem_of_look {table : List (Option α)} {index : Nat} {entry : α}
    (found : look table index = some entry) : some entry ∈ table := by
  induction table generalizing index with
  | nil =>
      rw [look_nil] at found
      cases found
  | cons slot later ih =>
      cases index with
      | zero =>
          have same : slot = some entry := found
          rw [same]
          exact List.mem_cons_self
      | succ index => exact List.mem_cons_of_mem slot (ih found)

theorem mem_put {table : List (Option α)} {entry other : α}
    (member : some other ∈ put table entry) : other = entry ∨ some other ∈ table := by
  induction table with
  | nil =>
      rw [put, List.mem_singleton] at member
      exact Or.inl (Option.some.inj member)
  | cons slot later ih =>
      cases slot with
      | none =>
          rcases List.mem_cons.mp member with here | behind
          · exact Or.inl (Option.some.inj here)
          · exact Or.inr (List.mem_cons_of_mem none behind)
      | some taken =>
          rcases List.mem_cons.mp member with here | behind
          · rw [here]
            exact Or.inr List.mem_cons_self
          · exact (ih behind).imp_right (List.mem_cons_of_mem (some taken))

theorem mem_vacate {table : List (Option α)} {index : Nat} {entry : α}
    (member : some entry ∈ vacate table index) : some entry ∈ table := by
  induction table generalizing index with
  | nil => exact member
  | cons slot later ih =>
      cases index with
      | zero =>
          rcases List.mem_cons.mp member with here | behind
          · cases here
          · exact List.mem_cons_of_mem slot behind
      | succ index =>
          rcases List.mem_cons.mp member with here | behind
          · rw [here]
            exact List.mem_cons_self
          · exact List.mem_cons_of_mem slot (ih behind)

end Slots

end Aesd
