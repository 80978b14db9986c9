/-
The server with all its clients and the file.

A schedule picks which connection thread takes the next step; the threads share
the open file and `file_lock`. The world keeps the answers of all threads in
the order in which they were completed.
-/

import Aesd.Server.Session

namespace Aesd.Server

open Driver

structure World (device : FileModel) where
  file : device.State
  fileLock : Option Nat
  operations : List FileCall
  client : Nat → Client
  answered : List (Nat × Answer)

namespace World

variable {device : FileModel}

/-- Clients that have just connected: what they will send, and how many bytes
more than one they take at a time. -/
def start (file : device.State) (reads : Nat → List SockRead) (taken : Nat → Nat → Nat) :
    World device :=
  { file := file
    fileLock := none
    operations := []
    client := fun tid =>
      { conn := Connection.accepted
        reads := reads tid
        writes := fun index => .accepts (taken tid index)
        writeNotReady := false }
    answered := [] }

def session (world : World device) (tid : Nat) : Session device :=
  { toClient := world.client tid
    tid := tid
    fileLock := world.fileLock
    file := world.file
    operations := world.operations }

def newAnswers (before after : Connection) : List Answer :=
  after.answers.drop before.answers.length

def put (world : World device) (session : Session device) : World device :=
  { file := session.file
    fileLock := session.fileLock
    operations := session.operations
    client := Function.update world.client session.tid session.toClient
    answered := world.answered ++
      (newAnswers (world.client session.tid).conn session.conn).map fun answer =>
        (session.tid, answer) }

def step (world : World device) (tid : Nat) : World device := world.put (world.session tid).step

def run (world : World device) (schedule : List Nat) : World device := schedule.foldl step world

/-! ### One thread at a time -/

theorem step_tid (session : Session device) :
    session.step.tid = session.tid := by
  unfold Session.step
  split
  · rfl
  · split <;> rfl
  · rfl
  · rfl
  · rfl

@[simp] theorem step_fileLock (world : World device) (tid : Nat) :
    (world.step tid).fileLock = (world.session tid).step.fileLock := rfl

@[simp] theorem step_client_self (world : World device) (tid : Nat) :
    (world.step tid).client tid = (world.session tid).step.toClient := by
  have same : (world.session tid).step.tid = tid := step_tid _
  change Function.update world.client (world.session tid).step.tid _ tid = _
  rw [same, Function.update_self]

theorem step_client_other (world : World device) {tid other : Nat} (different : other ≠ tid) :
    (world.step tid).client other = world.client other := by
  have same : (world.session tid).step.tid = tid := step_tid _
  change Function.update world.client (world.session tid).step.tid _ other = _
  rw [same, Function.update_of_ne different]

theorem step_answered (world : World device) (tid : Nat) :
    (world.step tid).answered = world.answered ++
      (newAnswers (world.client tid).conn (world.session tid).step.conn).map fun answer =>
        (tid, answer) := by
  have same : (world.session tid).step.tid = tid := step_tid _
  unfold step put
  rw [same]

theorem session_put (world : World device) (session : Session device) :
    (world.put session).session session.tid = session := by
  have same : (world.put session).client session.tid = session.toClient := by
    change Function.update world.client session.tid session.toClient session.tid = _
    rw [Function.update_self]
  unfold World.session
  rw [same]
  rfl

theorem step_session (world : World device) (tid : Nat) :
    (world.step tid).session tid = (world.session tid).step := by
  have put := session_put world (world.session tid).step
  rw [step_tid] at put
  exact put

/-- While one thread runs alone the world is its session. -/
theorem run_replicate (world : World device) (tid rounds : Nat) :
    (world.run (List.replicate rounds tid)).session tid =
      Session.step^[rounds] (world.session tid) := by
  induction rounds generalizing world with
  | zero => rfl
  | succ rounds ih =>
      rw [List.replicate_succ, Function.iterate_succ_apply, ← step_session]
      exact ih (world.step tid)

end World

end Aesd.Server
