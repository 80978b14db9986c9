/-
The calls of the driver, statement by statement.

`aesd_write` reads and clears the partial entry before it takes the lock, and the
section under the lock stores a new one in two assignments. Between any two of
these statements another call can run. Accesses that the C code must not make,
to freed memory or past the end of an allocation, end the run. Loads and stores
are sequentially consistent, and every call is made on an open file of its own.
-/

import Aesd.Driver.LineDevice

namespace Aesd.Driver

open CircularBuffer LineStream AesdCircularBuffer

/-- The next statement of a call. All but the first and the last are places in
`aesd_write`, with the staging buffer and what the call keeps in its variables. -/
inductive CallPoint where
  | entered
  | sized (buffer : Kbuf)
  | carried (buffer : Kbuf)
  | filled (buffer : Kbuf)
  | freed (buffer : Kbuf)
  | nulled (buffer : Kbuf)
  | staged (buffer : Kbuf)
  | looping (buffer : Kbuf) (index : Nat) (working : Bytes)
  | keeping (buffer : Kbuf) (working : Bytes)
  | releasing (buffer : Kbuf) (fPos retval : Int)
  | leaving (buffer : Kbuf) (fPos retval : Int)
  | oopsed (buffer : Kbuf)
  | done (fPos : Int) (reply : Reply)
  deriving DecidableEq, Repr

/-- What a step of a call leaves, and the line it has added to the ring. -/
structure Move where
  kernel : Kernel
  point : CallPoint
  line : Option Bytes := none
  deriving DecidableEq, Repr

def Kernel.setPartial (kernel : Kernel) (entry : AesdBufferEntry Kbuf) : Kernel :=
  { kernel with dev := { kernel.dev with partialEntry := entry } }

def Kernel.setSlab (kernel : Kernel) (slab : Slab) : Kernel := { kernel with slab := slab }

def Kernel.setLock (kernel : Kernel) (lock : Bool) : Kernel :=
  { kernel with dev := { kernel.dev with lock := lock } }

def overwrite (memory : Bytes) (offset : Nat) (bytes : Bytes) : Bytes :=
  memory.take offset ++ bytes ++ memory.drop (offset + bytes.length)

/-! ### aesd_write -/

section Write

/- `stale` is what an allocation contains before anything is written to it. -/
variable (stale : Nat → Nat → UInt8) (faults : WriteFaults) (user : Bytes) (fPos : Int)

def sizeStaging (kernel : Kernel) : Move :=
  match kernel.slab.kmalloc faults.stagingKmalloc with
  | (_, none) => { kernel, point := .done fPos { outcome := .returned (-enomem), data := [] } }
  | (slab, some id) =>
      { kernel := kernel.setSlab slab
        point := .sized
          { id := id
            bytes := (List.range (kernel.dev.partialEntry.size + user.length)).map (stale id) } }

def carryPartial (buffer : Kbuf) (kernel : Kernel) : Option Move :=
  let entry := kernel.dev.partialEntry
  match entry.buffptr with
  | none => some { kernel, point := .carried buffer }
  | some stored =>
      if stored.id ∈ kernel.slab.live ∧ entry.size ≤ stored.bytes.length ∧
          entry.size ≤ buffer.bytes.length then
        some
          { kernel
            point := .carried
              { buffer with bytes := overwrite buffer.bytes 0 (stored.bytes.take entry.size) } }
      else none

def fillStaging (buffer : Kbuf) (kernel : Kernel) : Option Move :=
  let offset := kernel.dev.partialEntry.size
  if offset + user.length ≤ buffer.bytes.length then
    if faults.copyFromUser then some { kernel, point := .leaving buffer fPos (-enomem) }
    else
      some
        { kernel
          point := .filled { buffer with bytes := overwrite buffer.bytes offset user } }
  else none

def freePartial (buffer : Kbuf) (kernel : Kernel) : Option Move :=
  match kernel.dev.partialEntry.buffptr with
  | none => some { kernel, point := .staged buffer }
  | some stored =>
      if stored.id ∈ kernel.slab.live then
        some { kernel := kernel.setSlab (kernel.slab.kfreeConst stored.id), point := .freed buffer }
      else none

def lockSection (buffer : Kbuf) (kernel : Kernel) : Move :=
  match mutexLockInterruptible faults.lockInterrupted kernel.dev with
  | .interrupted => { kernel, point := .leaving buffer fPos (-erestartsys) }
  | .blocked => { kernel, point := .staged buffer }
  | .acquired dev => { kernel := { kernel with dev := dev }, point := .looping buffer 0 buffer.bytes }

/-- A round of the line loop, or what follows the loop up to the first store. -/
def loopRound (buffer : Kbuf) (index : Nat) (working : Bytes) (kernel : Kernel) : Move :=
  match memchr working newline with
  | some newLine =>
      match writeLines faults 1 index working kernel with
      | (kernel, .finished rest) =>
          { kernel
            point := .looping buffer (index + 1) rest
            line := some (working.take (newLine + 1)) }
      | (kernel, .release retval) => { kernel, point := .releasing buffer fPos retval }
      | (kernel, .oops) => { kernel, point := .oopsed buffer }
  | none =>
      if 0 < working.length then
        match kernel.slab.kmemdup faults.partialKmemdup working with
        | (slab, none) =>
            { kernel := (kernel.setSlab slab).setPartial
                { kernel.dev.partialEntry with buffptr := none }
              point := .releasing buffer fPos (-enomem) }
        | (slab, some copy) =>
            { kernel := (kernel.setSlab slab).setPartial
                { kernel.dev.partialEntry with buffptr := some copy }
              point := .keeping buffer working }
      else { kernel, point := .releasing buffer (fPos + user.length) user.length }

def writeMove (kernel : Kernel) : CallPoint → Option Move
  | .entered => some (sizeStaging stale faults user fPos kernel)
  | .sized buffer => carryPartial buffer kernel
  | .carried buffer => fillStaging faults user fPos buffer kernel
  | .filled buffer => freePartial buffer kernel
  | .freed buffer =>
      some
        { kernel := kernel.setPartial { kernel.dev.partialEntry with buffptr := none }
          point := .nulled buffer }
  | .nulled buffer =>
      some
        { kernel := kernel.setPartial { kernel.dev.partialEntry with size := 0 }
          point := .staged buffer }
  | .staged buffer => some (lockSection faults fPos buffer kernel)
  | .looping buffer index working => some (loopRound faults user fPos buffer index working kernel)
  | .keeping buffer working =>
      some
        { kernel := kernel.setPartial { kernel.dev.partialEntry with size := working.length }
          point := .releasing buffer (fPos + user.length) user.length }
  | .releasing buffer fPos retval =>
      some { kernel := kernel.unlock, point := .leaving buffer fPos retval }
  | .leaving buffer fPos retval =>
      some
        { kernel := kernel.setSlab (kernel.slab.kfreeConst buffer.id)
          point := .done fPos { outcome := .returned retval, data := [] } }
  | .oopsed buffer => some { kernel, point := .oopsed buffer }
  | .done fPos reply => some { kernel, point := .done fPos reply }

end Write

/-! ### Any number of calls -/

/-- The lines that one call of `aesd_write` has added under the lock, and the
contents of its staging buffer. -/
structure Section where
  call : Nat
  staging : Bytes
  added : List Bytes
  deriving DecidableEq, Repr

/-- The device, the calls on it, the sections that are over in the order of the
lock and the lines that the call under the lock has added so far. -/
structure Calls where
  kernel : Kernel
  point : Nat → CallPoint
  finished : List Section
  current : List Bytes

def Calls.start (kernel : Kernel) : Calls :=
  { kernel := kernel, point := fun _ => .entered, finished := [], current := [] }

def Calls.finishedAfter (state : Calls) (call : Nat) : List Section :=
  match state.point call with
  | .releasing buffer _ _ =>
      state.finished ++ [{ call := call, staging := buffer.bytes, added := state.current }]
  | _ => state.finished

def Calls.currentAfter (state : Calls) (call : Nat) (line : Option Bytes) : List Bytes :=
  match state.point call with
  | .releasing _ _ _ => []
  | _ => state.current ++ line.toList

def Calls.apply (state : Calls) (call : Nat) (move : Move) : Calls :=
  { kernel := move.kernel
    point := Function.update state.point call move.point
    finished := state.finishedAfter call
    current := state.currentAfter call move.line }

/-- What a call that is under the lock for all it does leaves, or nothing when it
has to wait for the lock. -/
def sectionMove (op : Op) (fPos : Int) (kernel : Kernel) : CallPoint → Move
  | .entered =>
      let result := OpenDevice.call { kernel := kernel, fPos := fun _ => fPos } op
      if result.outcome = .stuck then { kernel, point := .entered }
      else { kernel := result.kernel, point := .done result.fPos result.reply }
  | point => { kernel, point }

section System

variable (stale : Nat → Nat → UInt8) (request : Nat → Op) (fPos : Nat → Int)

/-- The next step of a call; `none` when it makes an access it must not make. -/
def Calls.step (state : Calls) (call : Nat) : Option Calls :=
  match request call with
  | .write _ user faults =>
      (writeMove stale faults user (fPos call) state.kernel (state.point call)).map
        (state.apply call)
  | op => some (state.apply call (sectionMove op (fPos call) state.kernel (state.point call)))

def Calls.run (state : Calls) : List Nat → Option Calls
  | [] => some state
  | call :: later => (state.step stale request fPos call).bind fun next => next.run later

end System

/-! ### Steps -/

def Op.IsWrite : Op → Prop
  | .write _ _ _ => True
  | _ => False

theorem Op.IsWrite.request {op : Op} (write : op.IsWrite) :
    ∃ file user faults, op = .write file user faults := by
  cases op with
  | write file user faults => exact ⟨file, user, faults, rfl⟩
  | read file count faults => cases write
  | llseek file offset whence lockInterrupted => cases write
  | ioctl file cmd seekto faults => cases write

@[simp] theorem Calls.apply_kernel (state : Calls) (call : Nat) (move : Move) :
    (state.apply call move).kernel = move.kernel := rfl

@[simp] theorem Calls.apply_point_self (state : Calls) (call : Nat) (move : Move) :
    (state.apply call move).point call = move.point := by
  simp only [Calls.apply, Function.update_self]

theorem Calls.apply_point_of_ne (state : Calls) {call other : Nat} (move : Move)
    (different : other ≠ call) : (state.apply call move).point other = state.point other := by
  simp only [Calls.apply, Function.update_of_ne different]

theorem Calls.finished_prefix_after (state : Calls) (call : Nat) :
    state.finished <+: state.finishedAfter call := by
  unfold Calls.finishedAfter
  split
  · exact List.prefix_append _ _
  · exact List.prefix_refl _

theorem Calls.apply_points {P : Nat → CallPoint → Prop} {state : Calls} {call : Nat} {move : Move}
    (self : P call move.point) (others : ∀ other, other ≠ call → P other (state.point other)) :
    ∀ other, P other ((state.apply call move).point other) := by
  intro other
  by_cases same : other = call
  · rw [same, Calls.apply_point_self]
    exact self
  · rw [Calls.apply_point_of_ne _ _ same]
    exact others other same

section Steps

variable {stale : Nat → Nat → UInt8} {request : Nat → Op} {fPos : Nat → Int} {state next : Calls}
  {call : Nat}

theorem Calls.step_other (other : ¬(request call).IsWrite) :
    state.step stale request fPos call =
      some (state.apply call
        (sectionMove (request call) (fPos call) state.kernel (state.point call))) := by
  unfold Calls.step
  cases asked : request call with
  | write file user faults =>
      rw [asked] at other
      exact absurd trivial other
  | read file count faults => rfl
  | llseek file offset whence lockInterrupted => rfl
  | ioctl file cmd seekto faults => rfl

theorem Calls.step_applies (steps : state.step stale request fPos call = some next) :
    ∃ move, next = state.apply call move := by
  unfold Calls.step at steps
  split at steps
  · obtain ⟨move, _moves, rfl⟩ := Option.map_eq_some_iff.mp steps
    exact ⟨move, rfl⟩
  · rw [Option.some.injEq] at steps
    exact ⟨_, steps.symm⟩

theorem Calls.step_write (write : (request call).IsWrite)
    (steps : state.step stale request fPos call = some next) :
    ∃ file user faults move, request call = .write file user faults ∧
      writeMove stale faults user (fPos call) state.kernel (state.point call) = some move ∧
      next = state.apply call move := by
  obtain ⟨file, user, faults, asked⟩ := write.request
  rw [Calls.step, asked] at steps
  obtain ⟨move, moves, rfl⟩ := Option.map_eq_some_iff.mp steps
  exact ⟨file, user, faults, move, asked, moves, rfl⟩

end Steps

/-! ### What a move does -/

section Moves

variable {faults : WriteFaults} {user : Bytes} {fPos : Int} {kernel : Kernel} {buffer : Kbuf}
  {move : Move}

theorem sizeStaging_cases (stale : Nat → Nat → UInt8) (faults : WriteFaults) (user : Bytes)
    (fPos : Int) (kernel : Kernel) :
    sizeStaging stale faults user fPos kernel =
        { kernel, point := .done fPos { outcome := .returned (-enomem), data := [] } } ∨
      sizeStaging stale faults user fPos kernel =
        { kernel := kernel.setSlab (kernel.slab.kmalloc false).1
          point := .sized
            { id := kernel.slab.next
              bytes := (List.range (kernel.dev.partialEntry.size + user.length)).map
                (stale kernel.slab.next) } } := by
  unfold sizeStaging
  cases failed : faults.stagingKmalloc with
  | true => exact Or.inl rfl
  | false => exact Or.inr rfl

theorem carryPartial_cases (moves : carryPartial buffer kernel = some move) :
    kernel.dev.partialEntry.buffptr = none ∧ move = { kernel, point := .carried buffer } ∨
      ∃ stored, kernel.dev.partialEntry.buffptr = some stored ∧
        stored.id ∈ kernel.slab.live ∧
        kernel.dev.partialEntry.size ≤ stored.bytes.length ∧
        kernel.dev.partialEntry.size ≤ buffer.bytes.length ∧
        move =
          { kernel
            point := .carried
              { buffer with
                bytes := overwrite buffer.bytes 0
                  (stored.bytes.take kernel.dev.partialEntry.size) } } := by
  unfold carryPartial at moves
  dsimp only at moves
  split at moves
  · rename_i absent
    cases moves
    exact Or.inl ⟨absent, rfl⟩
  · rename_i stored present
    split at moves
    · rename_i allowed
      cases moves
      exact Or.inr ⟨stored, present, allowed.1, allowed.2.1, allowed.2.2, rfl⟩
    · cases moves

theorem fillStaging_cases (moves : fillStaging faults user fPos buffer kernel = some move) :
    move = { kernel, point := .leaving buffer fPos (-enomem) } ∨
      kernel.dev.partialEntry.size + user.length ≤ buffer.bytes.length ∧
        move =
          { kernel
            point := .filled
              { buffer with
                bytes := overwrite buffer.bytes kernel.dev.partialEntry.size user } } := by
  unfold fillStaging at moves
  dsimp only at moves
  split at moves
  · rename_i fits
    split at moves
    · cases moves
      exact Or.inl rfl
    · cases moves
      exact Or.inr ⟨fits, rfl⟩
  · cases moves

theorem freePartial_cases (moves : freePartial buffer kernel = some move) :
    kernel.dev.partialEntry.buffptr = none ∧ move = { kernel, point := .staged buffer } ∨
      ∃ stored, kernel.dev.partialEntry.buffptr = some stored ∧ stored.id ∈ kernel.slab.live ∧
        move =
          { kernel := kernel.setSlab (kernel.slab.kfreeConst stored.id)
            point := .freed buffer } := by
  unfold freePartial at moves
  split at moves
  · rename_i absent
    cases moves
    exact Or.inl ⟨absent, rfl⟩
  · rename_i stored present
    split at moves
    · rename_i live
      cases moves
      exact Or.inr ⟨stored, present, live, rfl⟩
    · cases moves

theorem lockSection_cases (faults : WriteFaults) (fPos : Int) (buffer : Kbuf) (kernel : Kernel) :
    lockSection faults fPos buffer kernel =
        { kernel, point := .leaving buffer fPos (-erestartsys) } ∨
      lockSection faults fPos buffer kernel = { kernel, point := .staged buffer } ∨
      kernel.dev.lock = false ∧
        lockSection faults fPos buffer kernel =
          { kernel := kernel.setLock true, point := .looping buffer 0 buffer.bytes } := by
  unfold lockSection mutexLockInterruptible
  cases interrupted : faults.lockInterrupted with
  | true => exact Or.inl rfl
  | false =>
      cases locked : kernel.dev.lock with
      | true => exact Or.inr (Or.inl rfl)
      | false => exact Or.inr (Or.inr ⟨rfl, rfl⟩)

def Kernel.addLine (kernel : Kernel) (line : Bytes) (size : Nat) : Kernel :=
  let copy : Kbuf := { id := kernel.slab.next + 1, bytes := line }
  let (ring, garbage) := kernel.dev.circularBuffer.addEntry
    { buffptr := some copy, size := size }
  let slab := ((kernel.slab.kmalloc false).1.kmalloc false).1
  { dev := { kernel.dev with circularBuffer := ring }
    slab :=
      match garbage with
      | some buffptr => slab.kfreeConst buffptr.id
      | none => slab }

theorem writeLines_addLine {index newLine : Nat} {working : Bytes} (fuel : Nat) (kernel : Kernel)
    (found : memchr working newline = some newLine)
    (descriptor : faults.descriptorKmalloc index = false)
    (copied : faults.lineKmemdup index = false) :
    writeLines faults (fuel + 1) index working kernel =
      writeLines faults fuel (index + 1) (working.drop (newLine + 1))
        (kernel.addLine (working.take (newLine + 1)) (newLine + 1)) := by
  simp only [writeLines, found, descriptor, copied, Slab.kmalloc, Slab.kmemdup,
    Bool.false_eq_true, if_false]
  rfl

theorem Slab.kmemdup_slab (slab : Slab) (fails : Bool) (bytes : Bytes) :
    (slab.kmemdup fails bytes).1 = (slab.kmalloc fails).1 := by
  cases fails with
  | false => rfl
  | true => rfl

theorem Slab.live_kmalloc (slab : Slab) (fails : Bool) {id : Nat} (alive : id ∈ slab.live) :
    id ∈ (slab.kmalloc fails).1.live := by
  cases fails with
  | false => exact List.mem_cons_of_mem slab.next alive
  | true => exact alive

theorem writeLines_oops {index newLine : Nat} {working : Bytes} (fuel : Nat) (kernel : Kernel)
    (found : memchr working newline = some newLine)
    (descriptor : faults.descriptorKmalloc index = true) :
    writeLines faults (fuel + 1) index working kernel =
      (kernel.setSlab (kernel.slab.kmalloc (faults.lineKmemdup index)).1, .oops) := by
  have failed : kernel.slab.kmalloc true = (kernel.slab, none) := rfl
  simp only [writeLines, found, descriptor, failed, Slab.kmemdup_slab]
  rfl

inductive LoopMove (faults : WriteFaults) (user : Bytes) (fPos : Int) (buffer : Kbuf)
    (index : Nat) (working : Bytes) (kernel : Kernel) : Move → Prop where
  | added (newLine : Nat) (found : memchr working newline = some newLine)
      (copied : faults.lineKmemdup index = false) :
      LoopMove faults user fPos buffer index working kernel
        { kernel := kernel.addLine (working.take (newLine + 1)) (newLine + 1)
          point := .looping buffer (index + 1) (working.drop (newLine + 1))
          line := some (working.take (newLine + 1)) }
  | oopsed (newLine : Nat) (found : memchr working newline = some newLine)
      (descriptor : faults.descriptorKmalloc index = true) :
      LoopMove faults user fPos buffer index working kernel
        { kernel := kernel.setSlab (kernel.slab.kmalloc (faults.lineKmemdup index)).1
          point := .oopsed buffer }
  | failed (newLine : Nat) (found : memchr working newline = some newLine)
      (copy : faults.lineKmemdup index = true) :
      LoopMove faults user fPos buffer index working kernel
        { kernel := kernel.setSlab (kernel.slab.kmalloc false).1
          point := .releasing buffer fPos (-einval) }
  | lost (absent : newline ∉ working) :
      LoopMove faults user fPos buffer index working kernel
        { kernel := kernel.setPartial { kernel.dev.partialEntry with buffptr := none }
          point := .releasing buffer fPos (-enomem) }
  | kept (absent : newline ∉ working) :
      LoopMove faults user fPos buffer index working kernel
        { kernel := (kernel.setSlab (kernel.slab.kmalloc false).1).setPartial
            { kernel.dev.partialEntry with
              buffptr := some { id := kernel.slab.next, bytes := working } }
          point := .keeping buffer working }
  | ended (empty : working = []) :
      LoopMove faults user fPos buffer index working kernel
        { kernel, point := .releasing buffer (fPos + user.length) user.length }

theorem loopRound_cases (faults : WriteFaults) (user : Bytes) (fPos : Int) (buffer : Kbuf)
    (index : Nat) (working : Bytes) (kernel : Kernel) :
    LoopMove faults user fPos buffer index working kernel
      (loopRound faults user fPos buffer index working kernel) := by
  unfold loopRound
  cases found : memchr working newline with
  | none =>
      have absent : newline ∉ working := List.idxOf?_eq_none_iff.mp found
      dsimp only
      split
      · unfold Slab.kmemdup
        cases failed : faults.partialKmemdup with
        | true => exact .lost absent
        | false => exact .kept absent
      · rename_i empty
        exact .ended (List.length_eq_zero_iff.mp (Nat.eq_zero_of_not_pos empty))
  | some newLine =>
      cases descriptor : faults.descriptorKmalloc index with
      | true =>
          rw [writeLines_oops 0 kernel found descriptor]
          exact .oopsed newLine found descriptor
      | false =>
          cases copied : faults.lineKmemdup index with
          | true =>
              simp only [writeLines, found, descriptor, copied, Slab.kmalloc, Slab.kmemdup,
                Bool.false_eq_true, if_false, if_true]
              exact .failed newLine found copied
          | false =>
              rw [writeLines_addLine 0 kernel found descriptor copied]
              exact .added newLine found copied

end Moves

end Aesd.Driver
