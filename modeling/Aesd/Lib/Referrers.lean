/-
Who refers to an allocation.

Every identifier is referred to by one holder at most. Those of trusted holders
are live; another holder may keep an identifier after it has been freed. What
nobody trusted refers to can be freed.
-/

import Aesd.Lib.Ledger

namespace Aesd

variable {Holder : Type*}

structure Sheltered (next : Nat) (live freed : List Nat) (Trusted : Holder → Prop)
    (Refers : Nat → Holder → Prop) : Prop where
  balanced : Balanced next live freed live
  handed : ∀ id holder, Refers id holder → id < next
  live : ∀ id holder, Refers id holder → Trusted holder → id ∈ live
  apart : ∀ id first second, Refers id first → Refers id second → first = second

namespace Sheltered

variable {next : Nat} {live freed : List Nat} {Trusted : Holder → Prop}
  {Refers Others : Nat → Holder → Prop} {id : Nat}

theorem of_imp (sheltered : Sheltered next live freed Trusted Refers)
    (fewer : ∀ id holder, Others id holder → Refers id holder) :
    Sheltered next live freed Trusted Others :=
  { balanced := sheltered.balanced
    handed := fun id holder refers => sheltered.handed id holder (fewer id holder refers)
    live := fun id holder refers => sheltered.live id holder (fewer id holder refers)
    apart := fun id first second left right =>
      sheltered.apart id first second (fewer id first left) (fewer id second right) }

theorem alloc (sheltered : Sheltered next live freed Trusted Refers) (owner : Holder)
    (given : ∀ id holder, Others id holder → Refers id holder ∨ id = next ∧ holder = owner) :
    Sheltered (next + 1) (next :: live) freed Trusted Others := by
  have fresh (holder : Holder) : ¬Refers next holder := by
    intro refers
    exact absurd (sheltered.handed next holder refers) (Nat.lt_irrefl next)
  constructor
  · exact sheltered.balanced.alloc
  · intro id holder refers
    rcases given id holder refers with old | ⟨new, _owner⟩
    · exact Nat.lt_succ_of_lt (sheltered.handed id holder old)
    · rw [new]
      exact Nat.lt_succ_self next
  · intro id holder refers trusted
    rcases given id holder refers with old | ⟨new, _owner⟩
    · exact List.mem_cons_of_mem next (sheltered.live id holder old trusted)
    · rw [new]
      exact List.mem_cons_self
  · intro id first second left right
    rcases given id first left with old | ⟨new, owned⟩
    · rcases given id second right with older | ⟨new, _owned⟩
      · exact sheltered.apart id first second old older
      · rw [new] at old
        exact absurd old (fresh first)
    · rcases given id second right with old | ⟨_new, alsoOwned⟩
      · rw [new] at old
        exact absurd old (fresh second)
      · rw [owned, alsoOwned]

theorem free (sheltered : Sheltered next live freed Trusted Refers) (alive : id ∈ live)
    (unused : ∀ holder, Others id holder → ¬Trusted holder)
    (fewer : ∀ id holder, Others id holder → Refers id holder) :
    Sheltered next (live.erase id) (freed ++ [id]) Trusted Others := by
  have kept := sheltered.of_imp fewer
  constructor
  · have moved := sheltered.balanced.of_perm (List.perm_cons_erase alive)
    exact moved.free
  · exact kept.handed
  · intro other holder refers trusted
    have different : other ≠ id := by
      intro same
      rw [same] at refers
      exact unused holder refers trusted
    exact (List.mem_erase_of_ne different).mpr (kept.live other holder refers trusted)
  · exact kept.apart

end Sheltered

end Aesd
