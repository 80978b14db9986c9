/-
One connection with its peer and the open file.

The file serves every call; the peer is a list of results for the reads of the
socket and a sequence of results for the writes to it. A session then runs
deterministically.
-/

import Aesd.Lib.Reaches
import Aesd.Server.FileLock

namespace Aesd.Server

open Driver

/-! ### The file -/

/-- What `file_fd` refers to, as long as no call on it fails: a write takes at
least one byte, a read returns the bytes it counts, no more than asked for, and
reading on comes to an end. An `ioctl` may refuse. -/
structure FileModel where
  State : Type
  serve : State → FileCall → State × Ret
  writeAccepts : ∀ file bytes, bytes ≠ [] → 0 < (serve file (.write bytes)).2.value
  readCounts : ∀ file, (serve file (.read outBufferSize)).2.value =
    (serve file (.read outBufferSize)).2.data.length
  readFits : ∀ file, (serve file (.read outBufferSize)).2.data.length ≤ outBufferSize
  readEnds : ∀ file, ∃ rounds, (serve ((fun file =>
    (serve file (.read outBufferSize)).1)^[rounds] file) (.read outBufferSize)).2.value = 0

/-! ### The peer -/

/-- What a read of the socket returns when bytes have arrived. -/
structure Chunk where
  bytes : Bytes
  nonempty : bytes ≠ []
  fits : bytes.length ≤ inBufferSize - 1
  deriving DecidableEq

inductive SockRead where
  | chunk (received : Chunk)
  | notReady
  | closed
  deriving DecidableEq

def SockRead.ret : SockRead → Ret
  | .chunk received => { value := received.bytes.length, data := received.bytes, errno := 0 }
  | .notReady => { value := -1, data := [], errno := eagain }
  | .closed => Ret.zero

/-- `accepts extra` takes `extra + 1` bytes, or all there are. -/
inductive SockWrite where
  | accepts (extra : Nat)
  | notReady
  deriving DecidableEq

def SockWrite.ret (bytes : Bytes) : SockWrite → Ret
  | .accepts extra => { value := (min (extra + 1) bytes.length : Nat), data := [], errno := 0 }
  | .notReady => { value := -1, data := [], errno := eagain }

/-- A connection, the results its socket will give, and whether a write has
found the socket not ready. -/
structure Client where
  conn : Connection
  reads : List SockRead
  writes : Nat → SockWrite
  writeNotReady : Bool

/-- The last field records the calls on the file. -/
structure Session (device : FileModel) extends Client where
  tid : Nat
  fileLock : Option Nat
  file : device.State
  operations : List FileCall

namespace Session

variable {device : FileModel}

def returns (session : Session device) (ret : Ret) : Session device :=
  { session with
    fileLock := (advance session.tid session.fileLock session.conn ret).1
    conn := (advance session.tid session.fileLock session.conn ret).2 }

/-- The next call of the connection. Nothing happens when the peer's list is
used up. -/
def step (session : Session device) : Session device :=
  match session.conn.call with
  | none => session
  | some (.sockRead _) =>
      match session.reads with
      | [] => session
      | result :: later => { session with reads := later }.returns result.ret
  | some (.file request) =>
      { session with
        file := (device.serve session.file request).1
        operations := session.operations ++ [request] }.returns
          (device.serve session.file request).2
  | some (.sockWrite bytes) =>
      { session with
        writes := fun index => session.writes (index + 1)
        writeNotReady := session.writeNotReady || decide (session.writes 0 = SockWrite.notReady) }.returns
          ((session.writes 0).ret bytes)
  | some _ => session.returns Ret.zero

/-- The function has returned, or waits for a peer that sends nothing more. -/
def Finished (session : Session device) : Prop :=
  session.conn.pc = .returned ∨ session.conn.pc = .receive ∧ session.reads = []

instance (session : Session device) : Decidable session.Finished :=
  inferInstanceAs (Decidable (_ ∨ _))

def accepted (tid : Nat) (file : device.State) (reads : List SockRead)
    (writes : Nat → SockWrite) : Session device :=
  { conn := Connection.accepted
    reads := reads
    writes := writes
    tid := tid
    fileLock := none
    file := file
    operations := []
    writeNotReady := false }

/-! ### Steps -/

theorem step_file {session : Session device} {request : FileCall}
    (calls : session.conn.call = some (.file request)) :
    session.step =
      { session with
        file := (device.serve session.file request).1
        operations := session.operations ++ [request]
        conn := session.conn.resume (device.serve session.file request).2 } := by
  unfold step
  rw [calls]
  simp only [returns]
  rw [advance_other _ (by simp [calls]) (by simp [calls])]

theorem step_receive {session : Session device} (place : session.conn.pc = .receive)
    {result : SockRead} {later : List SockRead} (arrives : session.reads = result :: later) :
    session.step =
      { session with reads := later, conn := session.conn.received result.ret } := by
  have calls : session.conn.call = some (.sockRead (inBufferSize - 1)) := by
    rw [Connection.call, place]
  unfold step
  rw [calls, arrives]
  simp only [returns]
  rw [advance_other _ (by simp [calls]) (by simp [calls]), Connection.resume, place]

theorem step_respond {session : Session device} {written : Nat}
    (place : session.conn.pc = .respond written) :
    session.step =
      { session with
        writes := fun index => session.writes (index + 1)
        writeNotReady := session.writeNotReady || decide (session.writes 0 = SockWrite.notReady)
        conn := session.conn.resume
          ((session.writes 0).ret (session.conn.outBuffer.drop written)) } := by
  have calls : session.conn.call = some (.sockWrite (session.conn.outBuffer.drop written)) := by
    rw [Connection.call, place]
  unfold step
  rw [calls]
  simp only [returns]
  rw [advance_other _ (by simp [calls]) (by simp [calls])]

theorem step_lock {session : Session device} {inBytesRead : Int}
    (place : session.conn.pc = .lock inBytesRead) (free : session.fileLock = none) :
    session.step =
      { session with
        fileLock := some session.tid
        conn := session.conn.locked inBytesRead } := by
  simp [step, returns, advance, Connection.call, Connection.resume, place, free]

theorem step_unlock {session : Session device} (place : session.conn.pc = .unlock) :
    session.step =
      { session with fileLock := none, conn := { session.conn with pc := .receive } } := by
  simp [step, returns, advance, Connection.call, Connection.resume, place]

theorem step_unlockRefused {session : Session device}
    (place : session.conn.pc = .unlockRefused) :
    session.step = { session with fileLock := none, conn := session.conn.leave } := by
  simp [step, returns, advance, Connection.call, Connection.resume, place]

theorem step_finished {session : Session device} (finished : session.Finished) :
    session.step = session := by
  rcases finished with place | ⟨place, nothing⟩
  · simp [step, Connection.call, place]
  · simp [step, Connection.call, place, nothing]

theorem returns_conn (session : Session device) (ret : Ret) :
    (session.returns ret).conn = session.conn ∨
      ∃ other, (session.returns ret).conn = session.conn.resume other := by
  unfold returns advance
  split
  · split
    · exact Or.inr ⟨ret, rfl⟩
    · exact Or.inl rfl
  · exact Or.inr ⟨ret, rfl⟩
  · exact Or.inr ⟨ret, rfl⟩

theorem step_conn (session : Session device) :
    session.step.conn = session.conn ∨ ∃ ret, session.step.conn = session.conn.resume ret := by
  unfold step
  split
  · exact Or.inl rfl
  · split
    · exact Or.inl rfl
    · exact returns_conn _ _
  · exact returns_conn _ _
  · exact returns_conn _ _
  · exact returns_conn _ _

theorem step_reads {session : Session device} (receiving : session.conn.pc ≠ .receive) :
    session.step.reads = session.reads := by
  unfold step
  split
  · rfl
  · next calls => exact absurd (receive_of_sockRead calls) receiving
  · rfl
  · rfl
  · rfl

/-! ### Calls on the file -/

inductive Stores (device : FileModel) : device.State → Bytes → device.State → Prop
  | last {file next : device.State} {bytes : Bytes} {ret : Ret}
      (served : device.serve file (.write bytes) = (next, ret))
      (all : bytes.length ≤ ret.value.toNat) : Stores device file bytes next
  | more {file next final : device.State} {bytes : Bytes} {ret : Ret}
      (served : device.serve file (.write bytes) = (next, ret))
      (some : ret.value.toNat < bytes.length)
      (later : Stores device next (bytes.drop ret.value.toNat) final) :
      Stores device file bytes final

inductive Drains (device : FileModel) : device.State → Bytes → device.State → Prop
  | done {file next : device.State} {ret : Ret}
      (served : device.serve file (.read outBufferSize) = (next, ret))
      (none : ret.value = 0) : Drains device file [] next
  | more {file next final : device.State} {bytes : Bytes} {ret : Ret}
      (served : device.serve file (.read outBufferSize) = (next, ret))
      (some : 0 < ret.value) (later : Drains device next bytes final) :
      Drains device file (ret.data ++ bytes) final

theorem exists_stores (device : FileModel) (file : device.State) (bytes : Bytes) (nonempty : bytes ≠ []) :
    ∃ final, Stores device file bytes final := by
  induction size : bytes.length using Nat.strong_induction_on generalizing file bytes with
  | _ length ih =>
      by_cases all : bytes.length ≤ (device.serve file (.write bytes)).2.value.toNat
      · exact ⟨_, Stores.last rfl all⟩
      · have progress := device.writeAccepts file bytes nonempty
        have remains : (bytes.drop (device.serve file (.write bytes)).2.value.toNat).length
            < length := by
          rw [List.length_drop]
          omega
        have left : bytes.drop (device.serve file (.write bytes)).2.value.toNat ≠ [] := by
          rw [Ne, List.drop_eq_nil_iff]
          exact all
        obtain ⟨final, later⟩ := ih _ remains _ _ left rfl
        exact ⟨final, Stores.more rfl (Nat.lt_of_not_le all) later⟩

theorem exists_drains (device : FileModel) (file : device.State) :
    ∃ bytes final, Drains device file bytes final := by
  obtain ⟨rounds, ends⟩ := device.readEnds file
  induction rounds generalizing file with
  | zero => exact ⟨_, _, Drains.done rfl ends⟩
  | succ rounds ih =>
      by_cases none : (device.serve file (.read outBufferSize)).2.value = 0
      · exact ⟨_, _, Drains.done rfl none⟩
      · have counts := device.readCounts file
        rw [Function.iterate_succ_apply] at ends
        obtain ⟨bytes, final, later⟩ := ih _ ends
        have positive : 0 < (device.serve file (.read outBufferSize)).2.value := by omega
        exact ⟨_, final, Drains.more rfl positive later⟩

end Session

end Aesd.Server
