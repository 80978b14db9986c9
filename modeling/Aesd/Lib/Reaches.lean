/-
Runs of a deterministic step function.

`Reaches` composes runs, a state that a step leaves as it is ends a run, and a
simulation of single steps extends to runs, in which the simulating side may
take any number of steps or break off for good.
-/

import Mathlib.Logic.Function.Iterate

namespace Aesd

variable {State Ideal : Type*}

def Reaches (step : State → State) (start finish : State) : Prop :=
  ∃ count, step^[count] start = finish

theorem Reaches.refl (step : State → State) (start : State) : Reaches step start start :=
  ⟨0, rfl⟩

theorem Reaches.head {step : State → State} {start next finish : State}
    (moves : step start = next) (later : Reaches step next finish) :
    Reaches step start finish := by
  obtain ⟨count, reached⟩ := later
  refine ⟨count + 1, ?_⟩
  rw [Function.iterate_succ_apply, moves, reached]

theorem Reaches.one {step : State → State} {start finish : State}
    (moves : step start = finish) : Reaches step start finish :=
  Reaches.head moves (Reaches.refl step finish)

theorem Reaches.trans {step : State → State} {start middle finish : State}
    (first : Reaches step start middle) (second : Reaches step middle finish) :
    Reaches step start finish := by
  obtain ⟨count, reached⟩ := first
  obtain ⟨more, finished⟩ := second
  refine ⟨more + count, ?_⟩
  rw [Function.iterate_add_apply, reached, finished]

theorem Reaches.invariant {step : State → State} {Holds : State → Prop}
    (preserved : ∀ state, Holds state → Holds (step state)) {start finish : State}
    (initial : Holds start) (run : Reaches step start finish) : Holds finish := by
  obtain ⟨count, reached⟩ := run
  subst reached
  induction count with
  | zero => exact initial
  | succ count ih =>
      rw [Function.iterate_succ_apply']
      exact preserved _ ih

/-! ### Ends of runs -/

theorem iterate_settled {step : State → State} {state : State} (settled : step state = state)
    (count : Nat) : step^[count] state = state :=
  Function.iterate_fixed settled count

theorem Reaches.end_unique {step : State → State} {start first second : State}
    (toFirst : Reaches step start first) (toSecond : Reaches step start second)
    (firstSettled : step first = first) (secondSettled : step second = second) :
    first = second := by
  obtain ⟨count, reached⟩ := toFirst
  obtain ⟨more, finished⟩ := toSecond
  calc first = step^[more] first := (iterate_settled firstSettled more).symm
    _ = step^[more + count] start := by rw [Function.iterate_add_apply, reached]
    _ = step^[count + more] start := by rw [Nat.add_comm]
    _ = step^[count] second := by rw [Function.iterate_add_apply, finished]
    _ = second := iterate_settled secondSettled count

/-! ### Simulation -/

/-- Every ideal step is matched by a run, after which the two sides are related
or the simulating side has broken off; what is broken stays broken. -/
theorem Reaches.simulate {idealStep : Ideal → Ideal} {step : State → State}
    {Related Broken : Ideal → State → Prop}
    (matched : ∀ ideal state, Related ideal state → ∃ next, Reaches step state next ∧
      (Related (idealStep ideal) next ∨ Broken (idealStep ideal) next))
    (stays : ∀ ideal state, Broken ideal state → Broken (idealStep ideal) state)
    {ideal final : Ideal} {state : State} (related : Related ideal state)
    (run : Reaches idealStep ideal final) :
    ∃ next, Reaches step state next ∧ (Related final next ∨ Broken final next) := by
  obtain ⟨count, reached⟩ := run
  subst reached
  induction count with
  | zero => exact ⟨state, Reaches.refl step state, Or.inl related⟩
  | succ count ih =>
      rw [Function.iterate_succ_apply']
      obtain ⟨middle, toMiddle, relatedMiddle | brokenMiddle⟩ := ih
      · obtain ⟨next, toNext, outcome⟩ := matched _ middle relatedMiddle
        exact ⟨next, toMiddle.trans toNext, outcome⟩
      · exact ⟨middle, toMiddle, Or.inr (stays _ middle brokenMiddle)⟩

end Aesd
