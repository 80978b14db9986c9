/-
Allocation ledgers.

Identifiers are handed out in increasing order. A ledger is balanced when the
live identifiers are those held by somebody and every identifier handed out is
either live or has been freed, once.
-/

import Mathlib.Data.List.Nodup
import Mathlib.Data.List.Perm.Subperm
import Mathlib.Data.List.Range

namespace Aesd

structure Balanced (next : Nat) (live freed held : List Nat) : Prop where
  held : live.Perm held
  every : (live ++ freed).Perm (List.range next)

namespace Balanced

variable {next id : Nat} {live freed held : List Nat}

theorem init : Balanced 0 [] [] [] :=
  { held := List.Perm.refl []
    every := List.Perm.refl [] }

theorem of_perm (balanced : Balanced next live freed held) {others : List Nat}
    (same : held.Perm others) : Balanced next live freed others :=
  { held := balanced.held.trans same
    every := balanced.every }

theorem alloc (balanced : Balanced next live freed held) :
    Balanced (next + 1) (next :: live) freed (next :: held) := by
  constructor
  · exact balanced.held.cons next
  · rw [List.range_succ, List.cons_append]
    exact (balanced.every.cons next).trans (List.perm_append_singleton next _).symm

theorem mem_live (balanced : Balanced next live freed held) : id ∈ live ↔ id ∈ held :=
  balanced.held.mem_iff

theorem free (balanced : Balanced next live freed (id :: held)) :
    Balanced next (live.erase id) (freed ++ [id]) held := by
  have member : id ∈ live := balanced.mem_live.mpr List.mem_cons_self
  constructor
  · have erased := balanced.held.erase id
    rwa [List.erase_cons_head] at erased
  · have moved : (live.erase id ++ (freed ++ [id])).Perm (live ++ freed) := by
      rw [← List.append_assoc]
      refine (List.perm_append_singleton id _).trans ?_
      exact (List.perm_cons_erase member).symm.append_right freed
    exact moved.trans balanced.every

theorem nodup_all (balanced : Balanced next live freed held) : (live ++ freed).Nodup :=
  balanced.every.nodup_iff.mpr List.nodup_range

theorem nodup_held (balanced : Balanced next live freed held) : held.Nodup :=
  balanced.held.nodup_iff.mp balanced.nodup_all.of_append_left

theorem lt_of_held (balanced : Balanced next live freed held) (member : id ∈ held) :
    id < next := by
  have inAll : id ∈ live ++ freed :=
    List.mem_append.mpr (Or.inl (balanced.mem_live.mpr member))
  exact List.mem_range.mp (balanced.every.mem_iff.mp inAll)

theorem not_freed_of_held (balanced : Balanced next live freed held) (member : id ∈ held) :
    id ∉ freed :=
  List.disjoint_of_nodup_append balanced.nodup_all (balanced.mem_live.mpr member)

theorem count_freed (balanced : Balanced next live freed held) (given : id < next)
    (released : id ∉ held) : freed.count id = 1 := by
  have inAll : id ∈ live ++ freed := balanced.every.mem_iff.mpr (List.mem_range.mpr given)
  have once := balanced.nodup_all.of_append_right
  rcases List.mem_append.mp inAll with inLive | inFreed
  · exact absurd (balanced.mem_live.mp inLive) released
  · exact List.count_eq_one_of_mem once inFreed

end Balanced

end Aesd
