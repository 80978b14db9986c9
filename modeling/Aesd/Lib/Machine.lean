/-
Machines that answer.

A machine takes an input, goes to its next state and answers. When the steps of
two machines keep a relation between their states and answer alike, so do their
runs; two states that are related to the same state of the other machine cannot
be told apart from outside.
-/

import Mathlib.Data.List.Basic

namespace Aesd

variable {State Abstract Input Output : Type*}

structure Machine (State Input Output : Type*) where
  step : State → Input → State × Output

namespace Machine

def run (machine : Machine State Input Output) (state : State) (inputs : List Input) : State :=
  inputs.foldl (fun state input => (machine.step state input).1) state

def answers (machine : Machine State Input Output) : State → List Input → List Output
  | _, [] => []
  | state, input :: later =>
      (machine.step state input).2 :: machine.answers (machine.step state input).1 later

/-- Steps on allowed inputs keep the relation, and answer alike. -/
structure Simulates (machine : Machine State Input Output)
    (model : Machine Abstract Input Output) (Allowed : Input → Prop)
    (Related : State → Abstract → Prop) : Prop where
  answer : ∀ state abstract input, Related state abstract → Allowed input →
    (machine.step state input).2 = (model.step abstract input).2
  related : ∀ state abstract input, Related state abstract → Allowed input →
    Related (machine.step state input).1 (model.step abstract input).1

section Simulates

variable {machine : Machine State Input Output} {model : Machine Abstract Input Output}
  {Allowed : Input → Prop} {Related : State → Abstract → Prop}

theorem Simulates.run_related (simulates : machine.Simulates model Allowed Related)
    {state : State} {abstract : Abstract} (related : Related state abstract)
    (inputs : List Input) (allowed : ∀ input ∈ inputs, Allowed input) :
    Related (machine.run state inputs) (model.run abstract inputs) := by
  induction inputs generalizing state abstract with
  | nil => exact related
  | cons input later ih =>
      have here := allowed input List.mem_cons_self
      apply ih (simulates.related state abstract input related here)
      intro other member
      exact allowed other (List.mem_cons_of_mem input member)

theorem Simulates.answers_eq (simulates : machine.Simulates model Allowed Related)
    {state : State} {abstract : Abstract} (related : Related state abstract)
    (inputs : List Input) (allowed : ∀ input ∈ inputs, Allowed input) :
    machine.answers state inputs = model.answers abstract inputs := by
  induction inputs generalizing state abstract with
  | nil => rfl
  | cons input later ih =>
      have here := allowed input List.mem_cons_self
      have rest := ih (simulates.related state abstract input related here) (by
        intro other member
        exact allowed other (List.mem_cons_of_mem input member))
      rw [answers, answers, simulates.answer state abstract input related here, rest]

/-- States with a common relative cannot be told apart. -/
theorem Simulates.indistinguishable (simulates : machine.Simulates model Allowed Related)
    {first second : State} {abstract : Abstract} (left : Related first abstract)
    (right : Related second abstract) (inputs : List Input)
    (allowed : ∀ input ∈ inputs, Allowed input) :
    machine.answers first inputs = machine.answers second inputs := by
  rw [simulates.answers_eq left inputs allowed, simulates.answers_eq right inputs allowed]

end Simulates

end Machine

end Aesd
