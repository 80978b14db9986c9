/-
Concurrent writers.

`aesd_write` runs in two atomic steps: the code before the lock, which takes
the partial line away, and the section under the lock, which stores a new one.
Interleavings of these steps are serialisable, in the order in which the lock
is obtained, as long as no section starts while a partial line is stored or in
the hands of another call.
-/

import Aesd.Driver.StreamLaw
import Aesd.Lib.Splits

namespace Aesd.Driver

open CircularBuffer LineStream AesdCircularBuffer

inductive Writer where
  | idle
  | staged (staging : Kbuf)
  | done (outcome : Outcome)
  deriving DecidableEq, Repr

/-- A device and the calls made on it. Every call has a file of its own, whose
position plays no part. -/
structure Writers where
  kernel : Kernel
  writer : Nat → Writer

def Writers.start (kernel : Kernel) : Writers := { kernel := kernel, writer := fun _ => .idle }

def Writers.put (state : Writers) (call : Nat) (kernel : Kernel) (writer : Writer) : Writers :=
  { kernel := kernel, writer := Function.update state.writer call writer }

@[simp] theorem Writers.put_kernel (state : Writers) (call : Nat) (kernel : Kernel)
    (writer : Writer) : (state.put call kernel writer).kernel = kernel := rfl

@[simp] theorem Writers.put_self (state : Writers) (call : Nat) (kernel : Kernel)
    (writer : Writer) : (state.put call kernel writer).writer call = writer := by
  simp only [Writers.put, Function.update_self]

theorem Writers.put_of_ne (state : Writers) {call other : Nat} (kernel : Kernel)
    (writer : Writer) (different : other ≠ call) :
    (state.put call kernel writer).writer other = state.writer other := by
  simp only [Writers.put, Function.update_of_ne different]

/-- The next atomic step of one call; nothing the kernel is asked for fails. -/
def Writers.step (user : Nat → Bytes) (state : Writers) (call : Nat) : Writers :=
  match state.writer call with
  | .idle =>
      match writeStage WriteFaults.none (user call) state.kernel with
      | (kernel, none) => state.put call kernel (.done (.returned (-enomem)))
      | (kernel, some staging) => state.put call kernel (.staged staging)
  | .staged staging =>
      match mutexLockInterruptible false state.kernel.dev with
      | .interrupted => state
      | .blocked => state
      | .acquired dev =>
          let result := writeLocked WriteFaults.none (user call).length staging
            { state.kernel with dev := dev } 0
          state.put call result.kernel (.done result.outcome)
  | .done _ => state

def Writers.run (user : Nat → Bytes) (state : Writers) (schedule : List Nat) : Writers :=
  schedule.foldl (Writers.step user) state

def sequentialWrites (user : Nat → Bytes) (kernel : Kernel) (order : List Nat) : Kernel :=
  order.foldl (fun kernel call => (aesdWrite WriteFaults.none (user call) kernel 0).kernel) kernel

/-- Once no call is between its steps, the device is as some sequential order
of the calls leaves it. -/
def Serialisable (user : Nat → Bytes) (kernel : Kernel) (schedule : List Nat) : Prop :=
  let final := (Writers.start kernel).run user schedule
  (∀ call staging, final.writer call ≠ .staged staging) →
    ∃ order : List Nat, order.Nodup ∧
      (∀ call, call ∈ order ↔ ∃ outcome, final.writer call = .done outcome) ∧
      final.kernel.dev.lines = (sequentialWrites user kernel order).dev.lines ∧
      final.kernel.dev.pending = (sequentialWrites user kernel order).dev.pending

/-- The call may enter its section: it has nothing staged, or the partial entry
is clear and no other staging buffer carries more than its user's bytes. -/
def SectionUndisturbed (user : Nat → Bytes) (state : Writers) (call : Nat) : Prop :=
  ∀ staging, state.writer call = .staged staging →
    staging.bytes = [] ∨
      state.kernel.dev.partialEntry = AesdBufferEntry.zero ∧
        ∀ other carried, other ≠ call → state.writer other = .staged carried →
          carried.bytes.length = (user other).length

def ScheduleUndisturbed (user : Nat → Bytes) (kernel : Kernel) (schedule : List Nat) : Prop :=
  ∀ earlier call later, schedule = earlier ++ call :: later →
    SectionUndisturbed user ((Writers.start kernel).run user earlier) call

/-! ### Sequential runs -/

theorem sequentialWrites_journal (user : Nat → Bytes) {kernel : Kernel} (inv : DevInv kernel.dev)
    (order : List Nat) :
    ∃ after : DevInv (sequentialWrites user kernel order).dev,
      after.journal = inv.journal.feed (order.map user).flatten := by
  induction order generalizing kernel with
  | nil => exact ⟨inv, (Journal.feed_nil inv.journal).symm⟩
  | cons call later ih =>
      obtain ⟨middle, journal, _outcome, _position⟩ := aesdWrite_none (user call) 0 inv
      obtain ⟨after, final⟩ := ih middle
      refine ⟨after, ?_⟩
      rw [journal, Journal.feed_feed] at final
      exact final

/-! ### The invariant of interleaved runs -/

/-- Where the unfinished line of the sequential run is: stored, or in the
staging buffer of exactly one call. -/
def Carried (user : Nat → Bytes) (state : Writers) (unfinished : Bytes) : Prop :=
  (state.kernel.dev.pending = unfinished ∧
      ∀ call staging, state.writer call = .staged staging → staging.bytes = user call) ∨
    (state.kernel.dev.pending = [] ∧ unfinished ≠ [] ∧
      ∃ holder staging, state.writer holder = .staged staging ∧
        staging.bytes = unfinished ++ user holder ∧
        ∀ call other, call ≠ holder → state.writer call = .staged other →
          other.bytes = user call)

/-- `order` lists the calls in the order in which they obtained the lock. -/
structure SerialInv (user : Nat → Bytes) (start : DeviceJournal) (state : Writers)
    (order : List Nat) : Prop where
  inv : DevInv state.kernel.dev
  nodup : order.Nodup
  finished : ∀ call, call ∈ order ↔ ∃ outcome, state.writer call = .done outcome
  counted : ∀ call outcome, state.writer call = .done outcome →
    outcome = .returned (user call).length
  records : state.kernel.dev.lines = (start.feed (order.map user).flatten).records
  carried : Carried user state (start.feed (order.map user).flatten).unfinished

theorem SerialInv.initial (user : Nat → Bytes) {kernel : Kernel} (inv : DevInv kernel.dev) :
    SerialInv user inv.journal (Writers.start kernel) [] := by
  have unfed : inv.journal.feed (([] : List Nat).map user).flatten = inv.journal :=
    Journal.feed_nil inv.journal
  refine ⟨inv, List.nodup_nil, ?_, ?_, ?_, ?_⟩
  · intro call
    constructor
    · intro absent
      cases absent
    · rintro ⟨outcome, impossible⟩
      cases impossible
  · intro call outcome impossible
    cases impossible
  · rw [unfed]
    rfl
  · left
    rw [unfed]
    refine ⟨rfl, ?_⟩
    intro call staging impossible
    cases impossible

/-! ### What a step does -/

theorem step_stage (user : Nat → Bytes) {state : Writers} {call : Nat}
    (inv : DevInv state.kernel.dev) (idle : state.writer call = .idle) :
    ∃ kernel staging, state.step user call = state.put call kernel (.staged staging) ∧
      kernel.dev = { state.kernel.dev with partialEntry := AesdBufferEntry.zero } ∧
      staging.bytes = state.kernel.dev.pending ++ user call := by
  obtain ⟨taken, staging, present, bytes⟩ :=
    writeStage_staged WriteFaults.none (user call) inv.partialStored rfl rfl
  refine ⟨_, staging, ?_, taken, bytes⟩
  unfold Writers.step
  rw [idle]
  cases stage : writeStage WriteFaults.none (user call) state.kernel with
  | mk kernel result =>
      rw [stage] at present
      subst present
      rfl

theorem step_commit (user : Nat → Bytes) {state : Writers} {call : Nat} {staging : Kbuf}
    (inv : DevInv state.kernel.dev) (staged : state.writer call = .staged staging) :
    ∃ kernel, state.step user call =
        state.put call kernel (.done (.returned (user call).length)) ∧
      DevInv kernel.dev ∧
      kernel.dev.lines =
        retain maxWriteOperationsSupported state.kernel.dev.lines (lines newline staging.bytes) ∧
      kernel.dev.pending =
        if rest newline staging.bytes = [] then state.kernel.dev.pending
        else rest newline staging.bytes := by
  have shape : DevShape { state.kernel.dev with lock := true } := ⟨inv.ring, inv.partialStored⟩
  obtain ⟨after, journal, outcome, _position⟩ := writeLocked_refines WriteFaults.none
    (fun _index => rfl) (user call).length staging
    { state.kernel with dev := { state.kernel.dev with lock := true } } 0 shape
    (fun impossible => by cases impossible)
  obtain ⟨retval, records, unfinished⟩ :=
    journalLocked_none (user call).length staging.bytes shape.journal
  rw [retval] at outcome
  refine ⟨_, ?_, after, ?_, ?_⟩
  · unfold Writers.step
    rw [staged]
    simp only [mutexLockInterruptible, inv.unlocked, Bool.false_eq_true, if_false, outcome]
  · rw [← after.journal_records, journal, records]
    rfl
  · rw [← after.journal_unfinished, journal, unfinished]
    rfl

theorem step_done {user : Nat → Bytes} {state : Writers} {call : Nat} {outcome : Outcome}
    (done : state.writer call = .done outcome) : state.step user call = state := by
  unfold Writers.step
  rw [done]

/-! ### Steps keep the invariant -/

private theorem SerialInv.counted_put {user : Nat → Bytes} {start : DeviceJournal}
    {state : Writers} {order : List Nat} {call : Nat} {kernel : Kernel} {writer : Writer}
    (serial : SerialInv user start state order)
    (own : ∀ outcome, writer = .done outcome → outcome = .returned (user call).length) :
    ∀ other outcome, (state.put call kernel writer).writer other = .done outcome →
      outcome = .returned (user other).length := by
  intro other outcome done
  by_cases same : other = call
  · subst same
    rw [Writers.put_self] at done
    exact own outcome done
  · rw [Writers.put_of_ne _ _ _ same] at done
    exact serial.counted other outcome done

private theorem Carried.stage {user : Nat → Bytes} {state : Writers} {unfinished : Bytes}
    {call : Nat} {kernel : Kernel} {staging : Kbuf} (carried : Carried user state unfinished)
    (idle : state.writer call = .idle) (cleared : kernel.dev.pending = [])
    (bytes : staging.bytes = state.kernel.dev.pending ++ user call) :
    Carried user (state.put call kernel (.staged staging)) unfinished := by
  rcases carried with
    ⟨stored, plain⟩ | ⟨none, unfinished, holder, held, holds, heldBytes, plain⟩
  · by_cases empty : state.kernel.dev.pending = []
    · left
      refine ⟨?_, ?_⟩
      · rw [Writers.put_kernel, cleared, ← stored, empty]
      · intro other staged updated
        by_cases same : other = call
        · subst same
          rw [Writers.put_self, Writer.staged.injEq] at updated
          rw [← updated, bytes, empty, List.nil_append]
        · rw [Writers.put_of_ne _ _ _ same] at updated
          exact plain other staged updated
    · right
      refine ⟨cleared, ?_, call, staging, Writers.put_self _ _ _ _, ?_, ?_⟩
      · rw [← stored]
        exact empty
      · rw [bytes, stored]
      · intro other staged different updated
        rw [Writers.put_of_ne _ _ _ different] at updated
        exact plain other staged updated
  · right
    have distinct : holder ≠ call := by
      intro same
      rw [same, idle] at holds
      cases holds
    refine ⟨cleared, unfinished, holder, held, ?_, heldBytes, ?_⟩
    · rw [Writers.put_of_ne _ _ _ distinct]
      exact holds
    · intro other staged different updated
      by_cases same : other = call
      · subst same
        rw [Writers.put_self, Writer.staged.injEq] at updated
        rw [← updated, bytes, none, List.nil_append]
      · rw [Writers.put_of_ne _ _ _ same] at updated
        exact plain other staged different updated

theorem SerialInv.stage {user : Nat → Bytes} {start : DeviceJournal} {state : Writers}
    {order : List Nat} {call : Nat} (serial : SerialInv user start state order)
    (idle : state.writer call = .idle) : SerialInv user start (state.step user call) order := by
  obtain ⟨kernel, staging, stepped, taken, bytes⟩ := step_stage user serial.inv idle
  rw [stepped]
  have cleared : kernel.dev.pending = [] := by
    apply pending_of_zero
    rw [taken]
  constructor
  · rw [Writers.put_kernel, taken]
    exact { ring := serial.inv.ring, partialStored := Or.inl rfl, unlocked := serial.inv.unlocked }
  · exact serial.nodup
  · intro other
    rw [serial.finished other]
    by_cases same : other = call
    · subst same
      simp only [Writers.put_self, idle, reduceCtorEq, exists_false]
    · rw [Writers.put_of_ne _ _ _ same]
  · apply serial.counted_put
    intro outcome impossible
    cases impossible
  · rw [Writers.put_kernel, taken]
    exact serial.records
  · exact serial.carried.stage idle cleared bytes

/-- What the section of a call finds: its staging buffer is the unfinished line
of the sequential run followed by the user's bytes, and no other call carries
anything. -/
private theorem staged_in_turn {user : Nat → Bytes} {start : DeviceJournal} {state : Writers}
    {order : List Nat} {call : Nat} {staging : Kbuf} (serial : SerialInv user start state order)
    (staged : state.writer call = .staged staging)
    (clear : state.kernel.dev.partialEntry = AesdBufferEntry.zero)
    (alone : ∀ other carried, other ≠ call → state.writer other = .staged carried →
      carried.bytes.length = (user other).length) :
    staging.bytes = (start.feed (order.map user).flatten).unfinished ++ user call ∧
      ∀ other carried, other ≠ call → state.writer other = .staged carried →
        carried.bytes = user other := by
  rcases serial.carried with ⟨stored, plain⟩ | ⟨_none, unfinished, holder, held, holds, heldBytes, plain⟩
  · rw [pending_of_zero clear] at stored
    refine ⟨?_, fun other carried _different present => plain other carried present⟩
    rw [← stored, List.nil_append]
    exact plain call staging staged
  · by_cases same : holder = call
    · subst same
      rw [holds, Writer.staged.injEq] at staged
      subst staged
      exact ⟨heldBytes, plain⟩
    · have length := alone holder held same holds
      rw [heldBytes, List.length_append] at length
      have empty : (start.feed (order.map user).flatten).unfinished = [] :=
        List.eq_nil_of_length_eq_zero (by omega)
      exact absurd empty unfinished

private theorem staged_empty {user : Nat → Bytes} {start : DeviceJournal} {state : Writers}
    {order : List Nat} {call : Nat} {staging : Kbuf} (serial : SerialInv user start state order)
    (staged : state.writer call = .staged staging) (empty : staging.bytes = []) :
    user call = [] := by
  rcases serial.carried with ⟨_stored, plain⟩ | ⟨_none, _unfinished, holder, held, holds, bytes, plain⟩
  · rw [← plain call staging staged, empty]
  · by_cases same : call = holder
    · subst same
      rw [holds, Writer.staged.injEq] at staged
      subst staged
      rw [bytes] at empty
      exact (List.append_eq_nil_iff.mp empty).2
    · rw [← plain call staging same staged, empty]

private theorem Carried.put_done {user : Nat → Bytes} {state : Writers} {unfinished : Bytes}
    {call : Nat} {staging : Kbuf} {kernel : Kernel} {outcome : Outcome}
    (carried : Carried user state unfinished) (staged : state.writer call = .staged staging)
    (empty : staging.bytes = []) (pending : kernel.dev.pending = state.kernel.dev.pending) :
    Carried user (state.put call kernel (.done outcome)) unfinished := by
  have others (other : Nat) (held : Kbuf)
      (updated : (state.put call kernel (.done outcome)).writer other = .staged held) :
      state.writer other = .staged held := by
    by_cases same : other = call
    · subst same
      rw [Writers.put_self] at updated
      cases updated
    · rw [Writers.put_of_ne _ _ _ same] at updated
      exact updated
  rcases carried with ⟨stored, plain⟩ | ⟨none, nonempty, holder, held, holds, bytes, plain⟩
  · left
    refine ⟨?_, fun other held updated => plain other held (others other held updated)⟩
    rw [Writers.put_kernel, pending, stored]
  · right
    have distinct : holder ≠ call := by
      intro same
      subst same
      rw [holds, Writer.staged.injEq] at staged
      subst staged
      rw [bytes] at empty
      exact nonempty (List.append_eq_nil_iff.mp empty).1
    refine ⟨?_, nonempty, holder, held, ?_, bytes, ?_⟩
    · rw [Writers.put_kernel, pending, none]
    · rw [Writers.put_of_ne _ _ _ distinct]
      exact holds
    · intro other staged' different updated
      exact plain other staged' different (others other staged' updated)

theorem SerialInv.commit {user : Nat → Bytes} {start : DeviceJournal} {state : Writers}
    {order : List Nat} {call : Nat} {staging : Kbuf} (serial : SerialInv user start state order)
    (staged : state.writer call = .staged staging)
    (undisturbed : SectionUndisturbed user state call) :
    SerialInv user start (state.step user call) (order ++ [call]) := by
  obtain ⟨kernel, stepped, inv, content, pending⟩ :=
    step_commit user serial.inv staged
  have fed : start.feed ((order ++ [call]).map user).flatten =
      (start.feed (order.map user).flatten).feed (user call) := by
    rw [Journal.feed_feed, List.map_append, List.flatten_append, List.map_singleton,
      List.flatten_singleton]
  have notYet : call ∉ order := by
    intro member
    obtain ⟨outcome, done⟩ := (serial.finished call).mp member
    rw [staged] at done
    cases done
  have finished : ∀ other, other ∈ order ++ [call] ↔
      ∃ outcome, (state.put call kernel (.done (.returned (user call).length))).writer other =
        .done outcome := by
    intro other
    rw [List.mem_append, List.mem_singleton, serial.finished other]
    by_cases same : other = call
    · subst same
      simp only [Writers.put_self, Writer.done.injEq, exists_eq', or_true]
    · rw [Writers.put_of_ne _ _ _ same]
      simp only [same, or_false]
  have counted : ∀ outcome, Writer.done (.returned (user call).length) = .done outcome →
      outcome = .returned (user call).length := by
    intro outcome done
    rw [Writer.done.injEq] at done
    exact done.symm
  have nodup : (order ++ [call]).Nodup :=
    List.nodup_append_comm.mp (List.nodup_cons.mpr ⟨notYet, serial.nodup⟩)
  rw [stepped]
  rcases undisturbed staging staged with empty | ⟨clear, alone⟩
  · have nothing := staged_empty serial staged empty
    rw [nothing, Journal.feed_nil] at fed
    rw [empty] at content pending
    refine ⟨inv, nodup, finished, serial.counted_put counted, ?_, ?_⟩
    · rw [fed, ← serial.records]
      exact content.trans (retain_nil (ringLines_length_le _))
    · rw [fed]
      exact serial.carried.put_done staged empty pending
  · obtain ⟨bytes, plain⟩ := staged_in_turn serial staged clear alone
    rw [bytes] at content pending
    refine ⟨inv, nodup, finished, serial.counted_put counted, ?_, ?_⟩
    · rw [fed, Journal.feed_records, ← serial.records]
      exact content
    · left
      refine ⟨?_, ?_⟩
      · rw [fed, Journal.feed_unfinished, Writers.put_kernel, pending, pending_of_zero clear]
        split
        · rename_i ended
          exact ended.symm
        · rfl
      · intro other carried updated
        by_cases same : other = call
        · subst same
          rw [Writers.put_self] at updated
          cases updated
        · rw [Writers.put_of_ne _ _ _ same] at updated
          exact plain other carried same updated

/-! ### Whole schedules -/

theorem run_serial {user : Nat → Bytes} {kernel : Kernel} (inv : DevInv kernel.dev)
    (schedule : List Nat) (undisturbed : ScheduleUndisturbed user kernel schedule) :
    ∃ order, SerialInv user inv.journal ((Writers.start kernel).run user schedule) order := by
  induction schedule using List.reverseRecOn with
  | nil => exact ⟨[], SerialInv.initial user inv⟩
  | append_singleton earlier call ih =>
      have before : ScheduleUndisturbed user kernel earlier := AtEachStep.of_append undisturbed
      obtain ⟨order, serial⟩ := ih before
      have last := undisturbed earlier call [] rfl
      rw [Writers.run, List.foldl_append]
      change ∃ order, SerialInv user inv.journal
        (((Writers.start kernel).run user earlier).step user call) order
      cases current : ((Writers.start kernel).run user earlier).writer call with
      | idle => exact ⟨order, serial.stage current⟩
      | staged staging => exact ⟨order ++ [call], serial.commit current last⟩
      | done outcome =>
          rw [step_done current]
          exact ⟨order, serial⟩

/-- Undisturbed schedules are serialisable: the device is as a sequential order
of the calls leaves it, every call returned its count, and the bytes written
are all there, less the lines evicted. -/
theorem undisturbed_serialisable (kernel : Kernel) (reachable : Reachable kernel)
    (user : Nat → Bytes) (schedule : List Nat)
    (undisturbed : ScheduleUndisturbed user kernel schedule) :
    Serialisable user kernel schedule ∧
      (∀ call outcome,
        ((Writers.start kernel).run user schedule).writer call = .done outcome →
          outcome = .returned (user call).length) ∧
      ((∀ call staging, ((Writers.start kernel).run user schedule).writer call ≠
          .staged staging) →
        ∃ order : List Nat, order.Nodup ∧
          (∀ call, call ∈ order ↔ ∃ outcome,
            ((Writers.start kernel).run user schedule).writer call = .done outcome) ∧
          ((Writers.start kernel).run user schedule).kernel.dev.lines =
            retain maxWriteOperationsSupported kernel.dev.lines
              (lines newline (kernel.dev.pending ++ (order.map user).flatten)) ∧
          ((Writers.start kernel).run user schedule).kernel.dev.pending =
            rest newline (kernel.dev.pending ++ (order.map user).flatten)) := by
  have inv := reachable.inv
  obtain ⟨order, serial⟩ := run_serial inv schedule undisturbed
  have stored (quiet : ∀ call staging,
      ((Writers.start kernel).run user schedule).writer call ≠ .staged staging) :
      ((Writers.start kernel).run user schedule).kernel.dev.pending =
        (inv.journal.feed (order.map user).flatten).unfinished := by
    rcases serial.carried with ⟨stored, _plain⟩ | ⟨_none, _unfinished, holder, held, holds, _rest⟩
    · exact stored
    · exact absurd holds (quiet holder held)
  refine ⟨?_, serial.counted, ?_⟩
  · intro quiet
    obtain ⟨after, journal⟩ := sequentialWrites_journal user inv order
    refine ⟨order, serial.nodup, serial.finished, ?_, ?_⟩
    · rw [serial.records, ← journal]
      rfl
    · rw [stored quiet, ← journal]
      rfl
  · intro quiet
    exact ⟨order, serial.nodup, serial.finished, serial.records, stored quiet⟩

def lineAndPiece : Nat → Bytes
  | 0 => [97, 10]
  | _ => [98]

theorem undisturbed_serialisable_overlapping :
    Reachable OpenDevice.init.kernel ∧
      ScheduleUndisturbed lineAndPiece OpenDevice.init.kernel [0, 1, 0, 1] ∧
      Serialisable lineAndPiece OpenDevice.init.kernel [0, 1, 0, 1] := by
  have reachable : Reachable OpenDevice.init.kernel :=
    ⟨[], fun _op member => absurd member List.not_mem_nil, rfl⟩
  have undisturbed : ScheduleUndisturbed lineAndPiece OpenDevice.init.kernel [0, 1, 0, 1] := by
    intro earlier call later split staging staged
    match earlier with
    | [] =>
        simp only [List.nil_append, List.cons.injEq] at split
        obtain ⟨rfl, _⟩ := split
        cases staged
    | [_] =>
        simp only [List.cons_append, List.nil_append, List.cons.injEq] at split
        obtain ⟨rfl, rfl, _⟩ := split
        cases staged
    | [_, _] =>
        simp only [List.cons_append, List.nil_append, List.cons.injEq] at split
        obtain ⟨rfl, rfl, rfl, _⟩ := split
        refine Or.inr ⟨rfl, ?_⟩
        intro other carried different present
        match other with
        | 0 => exact absurd rfl different
        | 1 => cases present; rfl
        | _ + 2 => cases present
    | [_, _, _] =>
        simp only [List.cons_append, List.nil_append, List.cons.injEq] at split
        obtain ⟨rfl, rfl, rfl, rfl, _⟩ := split
        refine Or.inr ⟨by decide, ?_⟩
        intro other carried different present
        match other with
        | 0 => cases present
        | 1 => exact absurd rfl different
        | _ + 2 => cases present
    | _ :: _ :: _ :: _ :: _ => simp at split
  exact ⟨reachable, undisturbed,
    (undisturbed_serialisable _ reachable lineAndPiece [0, 1, 0, 1] undisturbed).1⟩

def twoPieces : Nat → Bytes
  | 0 => [97]
  | _ => [98]

/-- When both calls stage before either stores its piece, the first piece is lost. -/
theorem overlapping_pieces_not_serialisable :
    Reachable OpenDevice.init.kernel ∧
      ¬Serialisable twoPieces OpenDevice.init.kernel [0, 1, 0, 1] := by
  refine ⟨⟨[], fun _op member => absurd member List.not_mem_nil, rfl⟩, ?_⟩
  intro serialisable
  have finalWriter (call : Nat) :
      ((Writers.start OpenDevice.init.kernel).run twoPieces [0, 1, 0, 1]).writer call =
        if call = 0 ∨ call = 1 then .done (.returned 1) else .idle := by
    match call with
    | 0 => rfl
    | 1 => rfl
    | _ + 2 => rfl
  obtain ⟨order, nodup, finished, _content, pending⟩ := serialisable (by
    intro call staging staged
    rw [finalWriter] at staged
    split at staged
    · cases staged
    · cases staged)
  have permutation : order.Perm [0, 1] := by
    apply (List.perm_ext_iff_of_nodup nodup (by decide)).mpr
    intro call
    rw [finished call, finalWriter]
    by_cases started : call = 0 ∨ call = 1
    · simp [started]
    · simp [started]
  have inOrder : order = [0, 1] ∨ order = [1, 0] := by
    match order, permutation.length_eq with
    | [first, second], _length =>
        have firstCall : first ∈ [0, 1] := permutation.subset (by simp)
        have secondCall : second ∈ [0, 1] := permutation.subset (by simp)
        simp only [List.mem_cons, List.not_mem_nil, or_false] at firstCall secondCall
        simp only [List.nodup_cons, List.mem_singleton] at nodup
        rcases firstCall with rfl | rfl
        · rcases secondCall with rfl | rfl
          · exact absurd rfl nodup.1
          · exact Or.inl rfl
        · rcases secondCall with rfl | rfl
          · exact Or.inr rfl
          · exact absurd rfl nodup.1
  rcases inOrder with rfl | rfl
  · exact absurd pending (by decide)
  · exact absurd pending (by decide)

end Aesd.Driver
