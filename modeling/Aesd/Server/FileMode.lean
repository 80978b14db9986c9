/-
The server without the character device: any number of clients and the timer.

Clients may send anything and may fail to take their answers. A thread whose
answer fails returns with `file_lock`, so nobody writes behind it; every other
section leaves the position at the end of the file.
-/

import Aesd.Server.ClientLines
import Aesd.Server.RegularFile
import Aesd.Server.Timer

namespace Aesd.Server

open Driver LineStream

/-- `log` records the lines handed to `write`, in that order. In `fileLock` the
timer is thread 0 and client `tid` is thread `tid + 1`. -/
structure FileWorld where
  file : RegularFile
  fileLock : Option Nat
  client : Nat → Client
  timer : Timer
  log : List Written

/-- A thread goes on; the timer is told the local time. -/
inductive FileEvent where
  | client (tid : Nat)
  | timer (now : Tm)

namespace FileWorld

def timerThread : Nat := 0

def start (reads : Nat → List SockRead) (writes : Nat → Nat → SockWrite) : FileWorld :=
  { file := RegularFile.empty
    fileLock := none
    client := fun tid =>
      { conn := Connection.accepted
        reads := reads tid
        writes := writes tid
        writeNotReady := false }
    timer := Timer.start
    log := [] }

def session (world : FileWorld) (tid : Nat) : Session regularFile :=
  { toClient := world.client tid
    tid := tid + 1
    fileLock := world.fileLock
    file := world.file
    operations := [] }

def stepClient (world : FileWorld) (tid : Nat) : FileWorld :=
  let next := (world.session tid).step
  { world with
    file := next.file
    fileLock := next.fileLock
    client := Function.update world.client tid next.toClient
    log := world.log ++ entriesOf tid next.operations }

def stepTimer (world : FileWorld) (now : Tm) : FileWorld :=
  match world.timer.pc with
  | .tick => { world with timer := world.timer.format now }
  | .lock =>
      if world.fileLock = none then
        { world with
          fileLock := some timerThread
          timer := { world.timer with pc := .write } }
      else world
  | .write =>
      { world with
        file := (world.file.serve (.write world.timer.outBuffer)).1
        timer := { world.timer with pc := .unlock }
        log := world.log ++ [{ writer := .timer, line := world.timer.outBuffer }] }
  | .unlock =>
      { world with
        fileLock := none
        timer := { world.timer with pc := .tick } }

def step (world : FileWorld) : FileEvent → FileWorld
  | .client tid => world.stepClient tid
  | .timer now => world.stepTimer now

def run (world : FileWorld) (schedule : List FileEvent) : FileWorld := schedule.foldl step world

end FileWorld

/-! ### The invariant -/

/-- Between its formatting and its write the timer holds a timestamp, and from
the lock to the unlock the position is at the end. -/
structure TimerInv (world : FileWorld) : Prop where
  formatted : world.timer.pc = .lock ∨ world.timer.pc = .write →
    ∃ now, world.timer.outBuffer = timestampLine now
  holds : world.timer.pc = .write ∨ world.timer.pc = .unlock →
    world.fileLock = some FileWorld.timerThread ∧ world.file.Settled

/-- Every entry is a whole line, those of the timer are timestamps. -/
def ValidEntry (entry : Written) : Prop :=
  IsLine newline entry.line ∧ (entry.writer = .timer → ∃ now, entry.line = timestampLine now)

structure FileInv (world : FileWorld) : Prop where
  thread : ∀ tid, FileThread world.log tid (world.session tid)
  timer : TimerInv world
  valid : ∀ entry ∈ world.log, ValidEntry entry

theorem start_fileInv (reads : Nat → List SockRead) (writes : Nat → Nat → SockWrite) :
    FileInv (FileWorld.start reads writes) := by
  constructor
  · intro tid
    constructor
    · exact ⟨rfl, rfl, rfl, rfl⟩
    · intro inside
      cases inside
    · exact fun _free => rfl
  · constructor
    · rintro (impossible | impossible) <;> cases impossible
    · rintro (impossible | impossible) <;> cases impossible
  · intro entry member
    cases member

/-! ### Steps seen from other threads -/

theorem FilePlace.outside {file other : RegularFile} {conn : Connection}
    (stands : FilePlace file conn) (outside : conn.pc.inSection = false) :
    FilePlace other conn := by
  unfold FilePlace at stands ⊢
  cases place : conn.pc with
  | receive =>
      rw [place] at stands
      exact stands
  | lock inBytesRead =>
      rw [place] at stands
      exact stands
  | returned => exact trivial
  | _ =>
      rw [place] at outside
      cases outside

theorem Due.outside {due : List Answer} {content other : Bytes} {conn : Connection}
    (owed : Due due content conn) (outside : conn.pc.inSection = false) : Due due other conn := by
  unfold Due at owed ⊢
  rw [storedLine_outside outside] at owed ⊢
  exact owed

theorem dueAnswers_other {writer : Writer} {log added : List Written}
    (others : ∀ entry ∈ added, entry.writer ≠ writer) :
    dueAnswers writer [] (log ++ added) = dueAnswers writer [] log := by
  induction added using List.reverseRecOn with
  | nil => rw [List.append_nil]
  | append_singleton added entry ih =>
      have different : entry.writer ≠ writer :=
        others entry (List.mem_append_right _ List.mem_cons_self)
      rw [← List.append_assoc, dueAnswers_append, if_neg different, List.append_nil]
      exact ih fun other member => others other (List.mem_append_left _ member)

theorem linesBy_other {writer : Writer} {log added : List Written}
    (others : ∀ entry ∈ added, entry.writer ≠ writer) :
    linesBy writer (log ++ added) = linesBy writer log := by
  rw [linesBy_eq_due writer [], linesBy_eq_due writer [], dueAnswers_other others]

/-- A thread outside the section keeps its part of the invariant while others
append to the file. -/
theorem FileThread.unconcerned {log : List Written} {tid : Nat} {session : Session regularFile}
    (inv : FileThread log tid session) (outside : session.conn.pc.inSection = false)
    (other : Session regularFile) (same : other.conn = session.conn) (added : List Written)
    (others : ∀ entry ∈ added, entry.writer ≠ .client tid)
    (content : other.file.content = contentOf (log ++ added))
    (settled : other.fileLock = none → other.file.Settled) :
    FileThread (log ++ added) tid other := by
  constructor
  · constructor
    · exact content
    · rw [same, dueAnswers_other others]
      exact inv.due.outside outside
    · rw [same, linesBy_other others]
      exact inv.passed
    · rw [same]
      exact inv.place.outside outside
  · rw [same, outside]
    intro inside
    cases inside
  · exact settled

theorem entriesOf_writer {tid : Nat} {operations : List FileCall} :
    ∀ entry ∈ entriesOf tid operations, entry.writer = .client tid := by
  intro entry member
  obtain ⟨line, _written, rfl⟩ := List.mem_map.mp member
  rfl

/-! ### Steps of a client -/

section Client

variable {world : FileWorld}

theorem FileInv.outside (inv : FileInv world) {tid : Nat}
    (free : world.fileLock ≠ some (tid + 1)) : (world.client tid).conn.pc.inSection = false := by
  apply Bool.eq_false_iff.mpr
  intro inside
  exact free ((inv.thread tid).holds inside)

theorem FileInv.client_self (inv : FileInv world) (tid : Nat) :
    FileThread (world.stepClient tid).log tid ((world.stepClient tid).session tid) := by
  have after := (inv.thread tid).step rfl
  have same : (world.stepClient tid).client tid = (world.session tid).step.toClient :=
    Function.update_self _ _ _
  have owner : (world.session tid).step.tid = tid + 1 := World.step_tid _
  have lock := after.holds
  rw [owner] at lock
  constructor
  · constructor
    · exact after.content
    · change Due _ _ ((world.stepClient tid).client tid).conn
      rw [same]
      exact after.due
    · change _ ++ ((world.stepClient tid).client tid).conn.unwritten =
        ((world.stepClient tid).client tid).conn.passed
      rw [same]
      exact after.passed
    · change FilePlace _ ((world.stepClient tid).client tid).conn
      rw [same]
      exact after.place
  · change ((world.stepClient tid).client tid).conn.pc.inSection = true → _
    rw [same]
    exact lock
  · exact after.settled

theorem FileInv.client_frame (inv : FileInv world) {tid owner : Nat}
    (taken : world.fileLock = some owner) (different : owner ≠ tid + 1) :
    (world.stepClient tid).file = world.file ∧
      (world.stepClient tid).fileLock = world.fileLock ∧
      (world.stepClient tid).log = world.log := by
  have outside : (world.session tid).conn.pc.inSection = false := by
    apply inv.outside
    rw [taken]
    exact fun same => different (Option.some.inj same)
  have busy : (world.session tid).fileLock ≠ none := by
    intro free
    change world.fileLock = none at free
    rw [taken] at free
    cases free
  obtain ⟨file, lock, operations⟩ := step_outside outside rfl busy
  refine ⟨file, lock, ?_⟩
  change world.log ++ entriesOf tid (world.session tid).step.operations = world.log
  rw [operations]
  exact List.append_nil _

theorem FileInv.client_other (inv : FileInv world) {tid other : Nat} (different : other ≠ tid) :
    FileThread (world.stepClient tid).log other ((world.stepClient tid).session other) := by
  have same : (world.stepClient tid).client other = world.client other :=
    Function.update_of_ne different _ _
  cases place : (world.client other).conn.pc.inSection with
  | false =>
      apply (inv.thread other).unconcerned place _ (congrArg Client.conn same)
      · intro entry member
        rw [entriesOf_writer entry member]
        intro writers
        exact different (Writer.client.inj writers).symm
      · exact (inv.client_self tid).content
      · exact (inv.client_self tid).settled
  | true =>
      have held : world.fileLock = some (other + 1) := (inv.thread other).holds place
      obtain ⟨file, lock, log⟩ := inv.client_frame held
        (fun equal => different (Nat.succ.inj equal))
      have unmoved : (world.stepClient tid).session other = world.session other := by
        unfold FileWorld.session
        rw [same, file, lock]
      rw [unmoved, log]
      exact inv.thread other

theorem FileInv.client_timer (inv : FileInv world) (tid : Nat) :
    TimerInv (world.stepClient tid) := by
  constructor
  · exact inv.timer.formatted
  · intro inside
    obtain ⟨held, settled⟩ := inv.timer.holds inside
    obtain ⟨file, lock, _log⟩ := inv.client_frame held (Nat.succ_ne_zero tid).symm
    rw [lock, file]
    exact ⟨held, settled⟩

theorem FileInv.client (inv : FileInv world) (tid : Nat) : FileInv (world.stepClient tid) := by
  constructor
  · intro other
    by_cases same : other = tid
    · rw [same]
      exact inv.client_self tid
    · exact inv.client_other same
  · exact inv.client_timer tid
  · intro entry member
    rcases List.mem_append.mp member with earlier | new
    · exact inv.valid entry earlier
    · constructor
      · exact (inv.thread tid).entries_isLine rfl entry new
      · intro byTimer
        rw [entriesOf_writer entry new] at byTimer
        cases byTimer

end Client

/-! ### Steps of the timer -/

section Timer

variable {world : FileWorld}

theorem FileInv.timer_lock (inv : FileInv world) (place : world.timer.pc = .lock)
    (free : world.fileLock = none) :
    FileInv
      { world with
        fileLock := some FileWorld.timerThread
        timer := { world.timer with pc := .write } } := by
  constructor
  · intro tid
    have outside : (world.client tid).conn.pc.inSection = false := by
      apply inv.outside
      rw [free]
      exact fun impossible => (by cases impossible)
    have after := (inv.thread tid).unconcerned outside
      { world.session tid with fileLock := some FileWorld.timerThread } rfl []
      (fun entry member => absurd member List.not_mem_nil)
      ((inv.thread tid).content.trans (congrArg contentOf (List.append_nil _).symm))
      (fun impossible => (by cases impossible))
    rw [List.append_nil] at after
    exact after
  · constructor
    · intro _writing
      exact inv.timer.formatted (Or.inl place)
    · intro _inside
      exact ⟨rfl, (inv.thread 0).settled free⟩
  · exact inv.valid

theorem FileInv.timer_outside (inv : FileInv world)
    (inside : world.timer.pc = .write ∨ world.timer.pc = .unlock) (tid : Nat) :
    (world.client tid).conn.pc.inSection = false := by
  apply inv.outside
  rw [(inv.timer.holds inside).1]
  intro same
  exact absurd (Option.some.inj same) (Nat.succ_ne_zero tid).symm

theorem FileInv.timer_write (inv : FileInv world) (place : world.timer.pc = .write) :
    FileInv
      { world with
        file := (world.file.serve (.write world.timer.outBuffer)).1
        timer := { world.timer with pc := .unlock }
        log := world.log ++ [{ writer := .timer, line := world.timer.outBuffer }] } := by
  obtain ⟨held, settled⟩ := inv.timer.holds (Or.inl place)
  have appended : (world.file.serve (.write world.timer.outBuffer)).1.content =
      contentOf (world.log ++ [{ writer := .timer, line := world.timer.outBuffer }]) := by
    rw [RegularFile.serve_write_settled settled, contentOf_append]
    exact congrArg (· ++ world.timer.outBuffer) (inv.thread 0).content
  have settledAfter := RegularFile.settled_write settled world.timer.outBuffer
  constructor
  · intro tid
    refine (inv.thread tid).unconcerned (inv.timer_outside (Or.inl place) tid)
      { world.session tid with
        file := (world.file.serve (.write world.timer.outBuffer)).1 } rfl
      [{ writer := .timer, line := world.timer.outBuffer }] ?_ appended
      (fun _free => settledAfter)
    intro entry member
    rw [List.mem_singleton.mp member]
    exact fun impossible => (by cases impossible)
  · constructor
    · rintro (impossible | impossible) <;> cases impossible
    · exact fun _inside => ⟨held, settledAfter⟩
  · intro entry member
    rcases List.mem_append.mp member with earlier | new
    · exact inv.valid entry earlier
    · obtain ⟨now, stamped⟩ := inv.timer.formatted (Or.inr place)
      rw [List.mem_singleton.mp new]
      constructor
      · change IsLine newline world.timer.outBuffer
        rw [stamped]
        exact timestampLine_isLine now
      · exact fun _byTimer => ⟨now, stamped⟩

theorem FileInv.timer_unlock (inv : FileInv world) (place : world.timer.pc = .unlock) :
    FileInv { world with fileLock := none, timer := { world.timer with pc := .tick } } := by
  obtain ⟨_held, settled⟩ := inv.timer.holds (Or.inr place)
  constructor
  · intro tid
    have after := (inv.thread tid).unconcerned (inv.timer_outside (Or.inr place) tid)
      { world.session tid with fileLock := none } rfl []
      (fun entry member => absurd member List.not_mem_nil)
      ((inv.thread tid).content.trans (congrArg contentOf (List.append_nil _).symm))
      (fun _free => settled)
    rw [List.append_nil] at after
    exact after
  · constructor
    · rintro (impossible | impossible) <;> cases impossible
    · rintro (impossible | impossible) <;> cases impossible
  · exact inv.valid

theorem FileInv.timerStep (inv : FileInv world) (now : Tm) : FileInv (world.stepTimer now) := by
  unfold FileWorld.stepTimer
  cases place : world.timer.pc with
  | tick =>
      constructor
      · exact inv.thread
      · constructor
        · exact fun _ => ⟨now, outBuffer_format world.timer now⟩
        · rintro (impossible | impossible) <;> cases impossible
      · exact inv.valid
  | lock =>
      by_cases free : world.fileLock = none
      · simp only [if_pos free]
        exact inv.timer_lock place free
      · simp only [if_neg free]
        exact inv
  | write => exact inv.timer_write place
  | unlock => exact inv.timer_unlock place

end Timer

/-! ### Received lines -/

section Received

def FileWorld.received (reads : Nat → List SockRead) (world : FileWorld) (tid : Nat) :
    List SockRead :=
  (reads tid).take ((reads tid).length - (world.client tid).reads.length)

structure ReceivedInv (reads : Nat → List SockRead) (world : FileWorld) (tid : Nat) : Prop where
  order : reads tid = world.received reads tid ++ (world.client tid).reads
  handed : Handed ((world.received reads tid).flatMap SockRead.lines) (world.client tid).conn

variable {reads : Nat → List SockRead} {world next : FileWorld} {tid : Nat}

theorem FileWorld.received_eq {earlier : List SockRead}
    (order : reads tid = earlier ++ (world.client tid).reads) :
    world.received reads tid = earlier := by
  unfold FileWorld.received
  rw [order, List.length_append, Nat.add_sub_cancel, List.take_left]

theorem receivedInv_of {earlier : List SockRead}
    (order : reads tid = earlier ++ (world.client tid).reads)
    (handed : Handed (earlier.flatMap SockRead.lines) (world.client tid).conn) :
    ReceivedInv reads world tid := by
  have same := FileWorld.received_eq order
  constructor
  · rw [same]
    exact order
  · rw [same]
    exact handed

theorem ReceivedInv.same (inv : ReceivedInv reads world tid)
    (same : next.client tid = world.client tid) : ReceivedInv reads next tid := by
  apply receivedInv_of
  · rw [same]
    exact inv.order
  · rw [same]
    exact inv.handed

theorem ReceivedInv.self (inv : ReceivedInv reads world tid) :
    ReceivedInv reads (world.stepClient tid) tid := by
  have moved : (world.stepClient tid).client tid = (world.session tid).step.toClient :=
    Function.update_self _ _ _
  by_cases place : (world.session tid).conn.pc = .receive
  · cases arrives : (world.session tid).reads with
    | nil =>
        have stays : (world.session tid).step = world.session tid :=
          Session.step_finished (Or.inr ⟨place, arrives⟩)
        apply inv.same
        rw [moved, stays]
        rfl
    | cons result later =>
        have order : (world.client tid).reads = result :: later := arrives
        apply @receivedInv_of reads _ tid (world.received reads tid ++ [result])
        · rw [moved, Session.step_receive place arrives, List.append_assoc]
          change reads tid = world.received reads tid ++ result :: later
          rw [← order]
          exact inv.order
        · have more := Session.handed_receive inv.handed place arrives
          rw [moved, List.flatMap_append, List.flatMap_singleton]
          exact more
  · apply receivedInv_of
    · rw [moved, Session.step_reads place]
      exact inv.order
    · rw [moved]
      exact Session.handed_step inv.handed place

theorem stepTimer_client (world : FileWorld) (now : Tm) :
    (world.stepTimer now).client = world.client := by
  unfold FileWorld.stepTimer
  split
  · rfl
  · split
    · rfl
    · rfl
  · rfl
  · rfl

theorem ReceivedInv.step (inv : ReceivedInv reads world tid) (event : FileEvent) :
    ReceivedInv reads (world.step event) tid := by
  cases event with
  | timer now => exact inv.same (congrFun (stepTimer_client world now) tid)
  | client mover =>
      by_cases same : tid = mover
      · subst same
        exact inv.self
      · exact inv.same (Function.update_of_ne same _ _)

theorem run_received (reads : Nat → List SockRead) (writes : Nat → Nat → SockWrite)
    (schedule : List FileEvent) (tid : Nat) :
    ReceivedInv reads ((FileWorld.start reads writes).run schedule) tid := by
  induction schedule using List.reverseRecOn with
  | nil => exact @receivedInv_of reads _ tid [] rfl rfl
  | append_singleton schedule event ih =>
      rw [FileWorld.run, List.foldl_append]
      exact ih.step event

end Received

/-! ### Every run -/

theorem FileInv.step {world : FileWorld} (inv : FileInv world) (event : FileEvent) :
    FileInv (world.step event) := by
  cases event with
  | client tid => exact inv.client tid
  | timer now => exact inv.timerStep now

theorem run_fileInv (reads : Nat → List SockRead) (writes : Nat → Nat → SockWrite)
    (schedule : List FileEvent) : FileInv ((FileWorld.start reads writes).run schedule) := by
  induction schedule using List.reverseRecOn with
  | nil => exact start_fileInv reads writes
  | append_singleton schedule event ih =>
      rw [FileWorld.run, List.foldl_append]
      exact ih.step event

/-- The file is the concatenation of the lines written so far, each of them
whole: those that the clients have dispatched, and timestamps. Those of a client are
data lines it has sent, in order, and all of them when its thread is at its read. While
the lock is free the position is the size, and a client has been answered each of its
data lines with the whole file as of that line. -/
structure AppendOnly (reads : Nat → List SockRead) (world : FileWorld) : Prop where
  content : world.file.content = (world.log.map Written.line).flatten
  whole : ∀ entry ∈ world.log, IsLine newline entry.line
  stamped : ∀ entry ∈ world.log, entry.writer = .timer → ∃ now, entry.line = timestampLine now
  dispatched : ∀ tid, linesBy (.client tid) world.log ++ (world.client tid).conn.unwritten =
    (world.client tid).conn.passed
  sent : ∀ tid, linesBy (.client tid) world.log <+:
    (world.received reads tid).flatMap SockRead.seenData
  complete : ∀ tid, (world.client tid).conn.pc = .receive →
    linesBy (.client tid) world.log = (world.received reads tid).flatMap SockRead.seenData
  settled : world.fileLock = none → world.file.position = world.file.content.length
  answered : ∀ tid, (world.client tid).conn.dataAnswers <+: dueAnswers (.client tid) [] world.log

/-- In every state of every schedule, whatever the clients send and whichever of
their answers fail, the data file is append-only. -/
theorem data_file_append_only (reads : Nat → List SockRead) (writes : Nat → Nat → SockWrite)
    (schedule : List FileEvent) : AppendOnly reads ((FileWorld.start reads writes).run schedule) := by
  have inv := run_fileInv reads writes schedule
  have received := run_received reads writes schedule
  generalize (FileWorld.start reads writes).run schedule = world at inv received ⊢
  have dispatched : ∀ tid, linesBy (.client tid) world.log ++ (world.client tid).conn.unwritten =
      (world.client tid).conn.passed := fun tid => (inv.thread tid).passed
  constructor
  · exact (inv.thread 0).content
  · exact fun entry member => (inv.valid entry member).1
  · exact fun entry member => (inv.valid entry member).2
  · exact dispatched
  · intro tid
    have handed := (received tid).handed.within
    rw [← dispatched tid, dataOf_flatMap] at handed
    exact (List.prefix_append _ _).trans handed
  · intro tid waits
    have handed := (received tid).handed
    simp only [Handed, waits] at handed
    have nothing : (world.client tid).conn.unwritten = [] := by
      unfold Connection.unwritten
      rw [waits]
    have written := dispatched tid
    rw [nothing, List.append_nil, handed, dataOf_flatMap] at written
    exact written
  · exact (inv.thread 0).settled
  · exact fun tid => (inv.thread tid).due.answered

end Aesd.Server
