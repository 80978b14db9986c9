/-
`write_buffer` as a whole (aesdsocket.c).

The automaton of a connection runs the loop of `write_buffer` one `write` at a
time (`writeBufferStep`). Here the loop is run to its end against an arbitrary
schedule of results of `write`, with a record of the calls it makes.
-/

import Aesd.Lib.Splits
import Aesd.Server.Connection

namespace Aesd.Server

open Driver

/-! ### Schedules -/

/-- What `write` returns, by the number of the call and the length asked for. A
call with a positive length fails or takes at least one byte. -/
structure WriteSchedule where
  ret : (call length : Nat) → Int
  valid : ∀ call length, 0 < length →
    ret call length < 0 ∨ (1 ≤ ret call length ∧ ret call length ≤ length)

structure WriteCall where
  offset : Nat
  length : Nat
  ret : Int
  deriving DecidableEq, Repr

def WriteCall.accepted (buffer : Bytes) (call : WriteCall) : Bytes :=
  (buffer.drop call.offset).take call.ret.toNat

structure WriteBufferRun where
  returned : Int
  calls : List WriteCall
  deriving DecidableEq, Repr

def WriteBufferRun.accepted (buffer : Bytes) (run : WriteBufferRun) : Bytes :=
  run.calls.flatMap (WriteCall.accepted buffer)

/-- The loop of `write_buffer` from a given `bytes_written` on; `none` stands for
a loop that has not ended after `fuel` evaluations of its guard. -/
def writeBufferLoop (schedule : WriteSchedule) (buffer : Bytes) :
    (fuel call bytesWritten : Nat) → Option WriteBufferRun
  | 0, _, _ => none
  | fuel + 1, call, bytesWritten =>
      if bytesWritten < buffer.length then
        let length := buffer.length - bytesWritten
        let ret := schedule.ret call length
        let made : WriteCall := { offset := bytesWritten, length := length, ret := ret }
        if ret < 0 then some { returned := 0, calls := [made] }
        else
          (writeBufferLoop schedule buffer fuel (call + 1) (bytesWritten + ret.toNat)).map
            (fun run => { run with calls := made :: run.calls })
      else some { returned := 1, calls := [] }

/-- One evaluation of the guard for each byte and one to leave the loop. -/
def writeBuffer (schedule : WriteSchedule) (buffer : Bytes) : Option WriteBufferRun :=
  writeBufferLoop schedule buffer (buffer.length + 1) 0 0

/-- The loop goes on after a `write` as the automaton of the connection does. -/
theorem writeBufferLoop_step (schedule : WriteSchedule) (buffer : Bytes)
    (fuel call bytesWritten : Nat) (inside : bytesWritten < buffer.length) :
    (writeBufferLoop schedule buffer (fuel + 2) call bytesWritten).map WriteBufferRun.returned =
      match writeBufferStep buffer.length bytesWritten
          (schedule.ret call (buffer.length - bytesWritten)) with
      | .failed => some 0
      | .written => some 1
      | .more bytesWritten =>
          (writeBufferLoop schedule buffer (fuel + 1) (call + 1) bytesWritten).map
            WriteBufferRun.returned := by
  rw [writeBufferLoop, if_pos inside, writeBufferStep]
  by_cases error : schedule.ret call (buffer.length - bytesWritten) < 0
  · rw [if_pos error, if_pos error]
    rfl
  · rw [if_neg error, if_neg error, Option.map_map]
    by_cases again : bytesWritten +
        (schedule.ret call (buffer.length - bytesWritten)).toNat < buffer.length
    · rw [if_pos again]
      rfl
    · rw [if_neg again, writeBufferLoop, if_neg again]
      rfl

/-! ### The loop invariant -/

/-- How a call stands in the run: it starts where the accepted bytes end, asks
for all that is left, and only an error free past leads to it. -/
structure CallPlaced (schedule : WriteSchedule) (buffer : Bytes) (first written : Nat)
    (before : List WriteCall) (call : WriteCall) : Prop where
  offset_eq : call.offset =
    written + (before.flatMap (WriteCall.accepted buffer)).length
  length_eq : call.offset + call.length = buffer.length
  length_pos : 0 < call.length
  scheduled : call.ret = schedule.ret (first + before.length) call.length
  no_overrun : call.ret ≤ call.length
  no_error_before : ∀ earlier ∈ before, 0 < earlier.ret

def ProperPrefix (short long : Bytes) : Prop :=
  ∃ missing, missing ≠ [] ∧ short ++ missing = long

/-- A run of the loop that starts with `written` bytes accepted in `first` calls. -/
structure LoopLaw (schedule : WriteSchedule) (buffer : Bytes) (first written : Nat)
    (run : WriteBufferRun) : Prop where
  ending : (run.returned = 1 ∧ (∀ call ∈ run.calls, 0 ≤ call.ret) ∧
      run.accepted buffer = buffer.drop written) ∨
    (run.returned = 0 ∧ (∃ call ∈ run.calls, call.ret < 0) ∧
      ProperPrefix (run.accepted buffer) (buffer.drop written))
  placed : AtEachStep (CallPlaced schedule buffer first written) run.calls

theorem accepted_length {buffer : Bytes} {call : WriteCall}
    (whole : call.offset + call.length = buffer.length) (fits : call.ret ≤ call.length) :
    (call.accepted buffer).length = call.ret.toNat := by
  rw [WriteCall.accepted, List.length_take, List.length_drop]
  omega

theorem accepted_append_drop (buffer : Bytes) (call : WriteCall) :
    call.accepted buffer ++ buffer.drop (call.offset + call.ret.toNat) =
      buffer.drop call.offset := by
  rw [WriteCall.accepted, ← List.drop_drop, List.take_append_drop]

theorem LoopLaw.failed {schedule : WriteSchedule} {buffer : Bytes} {first : Nat}
    (call : WriteCall) (whole : call.offset + call.length = buffer.length)
    (positive : 0 < call.length) (scheduled : call.ret = schedule.ret first call.length)
    (error : call.ret < 0) :
    LoopLaw schedule buffer first call.offset { returned := 0, calls := [call] } := by
  have nothing : call.ret.toNat = 0 := by omega
  constructor
  · right
    refine ⟨rfl, ⟨call, List.mem_singleton_self call, error⟩, buffer.drop call.offset, ?_, ?_⟩
    · intro empty
      have noBytes := congrArg List.length empty
      rw [List.length_drop, List.length_nil] at noBytes
      omega
    · rw [WriteBufferRun.accepted, List.flatMap_singleton, WriteCall.accepted, nothing,
        List.take_zero, List.nil_append]
  · rw [atEachStep_cons]
    constructor
    · refine ⟨rfl, whole, positive, scheduled, ?_, ?_⟩
      · exact Int.le_trans (Int.le_of_lt error) (Int.natCast_nonneg _)
      · intro earlier absent
        cases absent
    · exact AtEachStep.nil _

theorem LoopLaw.cons {schedule : WriteSchedule} {buffer : Bytes} {first : Nat}
    {run : WriteBufferRun} (call : WriteCall) (whole : call.offset + call.length = buffer.length)
    (positive : 0 < call.length) (scheduled : call.ret = schedule.ret first call.length)
    (taken : 1 ≤ call.ret) (fits : call.ret ≤ call.length)
    (law : LoopLaw schedule buffer (first + 1) (call.offset + call.ret.toNat) run) :
    LoopLaw schedule buffer first call.offset { run with calls := call :: run.calls } := by
  have piece := accepted_length whole fits
  constructor
  · have joined : WriteBufferRun.accepted buffer { run with calls := call :: run.calls } =
        call.accepted buffer ++ run.accepted buffer := rfl
    rw [joined, ← accepted_append_drop buffer call]
    rcases law.ending with ⟨one, fine, all⟩ | ⟨zero, error, missing, some, part⟩
    · left
      refine ⟨one, ?_, ?_⟩
      · intro other member
        rcases List.mem_cons.mp member with rfl | later
        · omega
        · exact fine other later
      · rw [all]
    · right
      refine ⟨zero, ?_, missing, some, ?_⟩
      · obtain ⟨failed, member, negative⟩ := error
        exact ⟨failed, List.mem_cons_of_mem call member, negative⟩
      · rw [List.append_assoc, part]
  · rw [atEachStep_cons]
    constructor
    · refine ⟨rfl, whole, positive, scheduled, fits, ?_⟩
      intro earlier absent
      cases absent
    · intro before later after split
      have placed := law.placed before later after split
      constructor
      · rw [placed.offset_eq, List.flatMap_cons, List.length_append, piece]
        omega
      · exact placed.length_eq
      · exact placed.length_pos
      · rw [placed.scheduled, List.length_cons]
        congr 1
        omega
      · exact placed.no_overrun
      · intro earlier member
        rcases List.mem_cons.mp member with rfl | earlierMember
        · omega
        · exact placed.no_error_before earlier earlierMember

theorem writeBufferLoop_law (schedule : WriteSchedule) (buffer : Bytes)
    (fuel call bytesWritten : Nat) (bound : bytesWritten ≤ buffer.length)
    (enough : buffer.length - bytesWritten < fuel) :
    ∃ run, writeBufferLoop schedule buffer fuel call bytesWritten = some run ∧
      LoopLaw schedule buffer call bytesWritten run := by
  induction fuel generalizing call bytesWritten with
  | zero => omega
  | succ fuel ih =>
      by_cases inside : bytesWritten < buffer.length
      · have positive : 0 < buffer.length - bytesWritten := by omega
        rw [writeBufferLoop, if_pos inside]
        rcases schedule.valid call _ positive with error | ⟨taken, fits⟩
        · refine ⟨_, if_pos error, ?_⟩
          exact LoopLaw.failed
            { offset := bytesWritten
              length := buffer.length - bytesWritten
              ret := schedule.ret call (buffer.length - bytesWritten) }
            (Nat.add_sub_of_le bound) positive rfl error
        · obtain ⟨run, ended, law⟩ := ih (call + 1)
            (bytesWritten + (schedule.ret call (buffer.length - bytesWritten)).toNat)
            (by omega) (by omega)
          rw [if_neg (by omega), ended]
          refine ⟨_, rfl, ?_⟩
          exact LoopLaw.cons
            { offset := bytesWritten
              length := buffer.length - bytesWritten
              ret := schedule.ret call (buffer.length - bytesWritten) }
            (Nat.add_sub_of_le bound) positive rfl taken fits law
      · have finished : bytesWritten = buffer.length := by omega
        rw [writeBufferLoop, if_neg inside]
        refine ⟨_, rfl, ?_, AtEachStep.nil _⟩
        left
        refine ⟨rfl, ?_, ?_⟩
        · intro call absent
          cases absent
        · rw [finished, List.drop_length]
          rfl

/-! ### Delivery -/

/-- What a call of `write_buffer` owes. -/
structure DeliveryLaw (schedule : WriteSchedule) (buffer : Bytes) (run : WriteBufferRun) :
    Prop where
  returned_cases : run.returned = 1 ∨ run.returned = 0
  one_iff : run.returned = 1 ↔ ∀ call ∈ run.calls, 0 ≤ call.ret
  zero_iff : run.returned = 0 ↔ ∃ call ∈ run.calls, call.ret < 0
  all_accepted : run.returned = 1 → run.accepted buffer = buffer
  part_accepted : run.returned = 0 → ProperPrefix (run.accepted buffer) buffer
  placed : AtEachStep (CallPlaced schedule buffer 0 0) run.calls

/-- Under every schedule the loop ends, and what the descriptor has accepted is
the buffer, or a proper prefix of it after an error. -/
theorem writeBuffer_delivers (schedule : WriteSchedule) (buffer : Bytes) :
    ∃ run, writeBuffer schedule buffer = some run ∧ DeliveryLaw schedule buffer run := by
  obtain ⟨run, ended, law⟩ := writeBufferLoop_law schedule buffer (buffer.length + 1) 0 0
    (Nat.zero_le _) (by omega)
  refine ⟨run, ended, ?_⟩
  have ending := law.ending
  rw [List.drop_zero] at ending
  rcases ending with ⟨one, fine, all⟩ | ⟨zero, ⟨failed, member, negative⟩, part⟩
  · have notZero : run.returned ≠ 0 := by omega
    constructor
    · left
      exact one
    · exact ⟨fun _ => fine, fun _ => one⟩
    · constructor
      · intro zero
        exact absurd zero notZero
      · intro error
        obtain ⟨call, member, negative⟩ := error
        have nonnegative := fine call member
        omega
    · intro _one
      exact all
    · intro zero
      exact absurd zero notZero
    · exact law.placed
  · have notOne : run.returned ≠ 1 := by omega
    constructor
    · right
      exact zero
    · constructor
      · intro one
        exact absurd one notOne
      · intro fine
        have nonnegative := fine failed member
        omega
    · exact ⟨fun _ => ⟨failed, member, negative⟩, fun _ => zero⟩
    · intro one
      exact absurd one notOne
    · intro _zero
      exact part
    · exact law.placed

/-- Two bytes are taken one by one; then `write` fails. -/
def shortWrites : WriteSchedule :=
  { ret := fun call _length => if call < 2 then 1 else -1
    valid := by
      intro call length positive
      by_cases early : call < 2
      · right
        rw [if_pos early]
        omega
      · left
        rw [if_neg early]
        decide }

theorem writeBuffer_delivers_shortWrites :
    ∃ run, writeBuffer shortWrites [97, 98, 10] = some run ∧ run.returned = 0 ∧
      run.accepted [97, 98, 10] = [97, 98] ∧
      ProperPrefix (run.accepted [97, 98, 10]) [97, 98, 10] := by
  obtain ⟨run, ended, law⟩ := writeBuffer_delivers shortWrites [97, 98, 10]
  have known : writeBuffer shortWrites [97, 98, 10] =
      some
        { returned := 0
          calls :=
            [ { offset := 0, length := 3, ret := 1 }, { offset := 1, length := 2, ret := 1 },
              { offset := 2, length := 1, ret := -1 } ] } := by
    decide
  rw [known] at ended
  rw [← Option.some.inj ended] at law
  exact ⟨_, known, rfl, by decide, law.part_accepted rfl⟩

end Aesd.Server
