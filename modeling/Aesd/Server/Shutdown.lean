/-
`connections_lock` and the signal handlers (aesdsocket.c).

A process is the accept loop of `main`, the connection threads and, without the
character device, the timer. SIGINT and SIGTERM may start a handler on any of
them between two of its library calls; the handler runs `cleanUpAndExit` on top of what
it interrupted and does not come back. `malloc` and the operations on a lock do
not fail, and `pthread_cancel` returns where there is a timer, also on the timer
itself. The walk over the list reads the link of a node that it has just freed; the
memory still holds it here.
-/

import Aesd.Server.FileLock
import Aesd.Server.Timer

namespace Aesd.Server

open Driver

/-! ### Threads -/

inductive Signal where
  | sigint
  | sigterm
  deriving DecidableEq, Repr

/-- The places of `collect_complete_threads`; `rest` is what `SLIST_FOREACH` has
still to visit. -/
inductive Collect where
  | lock
  | visit (rest : List Nat)
  | join (conn : Nat) (rest : List Nat)
  | remove (conn : Nat) (rest : List Nat)
  | unlock
  deriving DecidableEq, Repr

/-- The places of `cleanUpAndExit`; `enter` closes the descriptors and sets
`should_exit`, `exit` stands in front of `pthread_cancel`. -/
inductive CleanUp where
  | enter
  | collect (place : Collect)
  | exit
  deriving DecidableEq, Repr

inductive MainPlace where
  | loop
  | accept
  | create
  | insertLock (conn : Nat)
  | insert (conn : Nat)
  | insertUnlock
  | collect (place : Collect)
  | cleanUp (place : CleanUp)
  deriving DecidableEq, Repr

/-- What a thread runs below its handlers. A connection thread is at the head of
its receive loop, where it looks at `should_exit`, or at a call. -/
inductive Program where
  | absent
  | main (place : MainPlace)
  | timer (place : TimerPc)
  | connection (atLoop : Bool) (conn : Connection)
  | terminated (threadComplete : Bool)
  deriving DecidableEq, Repr

structure Handler where
  signal : Signal
  place : CleanUp
  deriving DecidableEq, Repr

/-- The handler on top is the one that runs. -/
structure Thread where
  program : Program
  handlers : List Handler
  deriving DecidableEq, Repr

def Thread.absent : Thread := { program := .absent, handlers := [] }

def Program.threadComplete : Program → Bool
  | .connection _ conn => conn.threadComplete
  | .terminated threadComplete => threadComplete
  | _ => false

def Program.isAbsent : Program → Bool
  | .absent => true
  | _ => false

def Program.terminates : Program → Bool
  | .terminated _ => true
  | _ => false

def Program.alive : Program → Bool
  | .absent => false
  | .terminated _ => false
  | _ => true

def mainThread : Nat := 0

def timerThread : Nat := 1

/-- Connections are numbered in the order in which they are created. -/
def connectionThread (conn : Nat) : Nat := conn + 2

/-! ### The process -/

/-- The process is over when it has `exited`, and it has `crashed` when that was in
`pthread_cancel`, which finds no thread where the timer was never created. -/
structure Process where
  shouldExit : Bool
  exited : Bool
  crashed : Bool
  connectionsLock : Option Nat
  fileLock : Option Nat
  connections : List Nat
  created : Nat
  thread : Nat → Thread

/-- A thread goes on, and `ret` is what its call returns; or a signal arrives. -/
inductive ShutdownEvent where
  | go (tid : Nat) (ret : Ret)
  | signal (tid : Nat) (signal : Signal)
  deriving DecidableEq, Repr

namespace Process

/-- `main` at its accept loop; the timer is there when `USE_AESD_CHAR_DEVICE` is 0. -/
def start (useAesdCharDevice : Bool) : Process :=
  { shouldExit := false
    exited := false
    crashed := false
    connectionsLock := none
    fileLock := none
    connections := []
    created := 0
    thread := fun tid =>
      if tid = mainThread then { program := .main .loop, handlers := [] }
      else if tid = timerThread ∧ useAesdCharDevice = false then
        { program := .timer .tick, handlers := [] }
      else Thread.absent }

def threadComplete (process : Process) (conn : Nat) : Bool :=
  (process.thread (connectionThread conn)).program.threadComplete

def put (process : Process) (tid : Nat) (thread : Thread) : Process :=
  { process with thread := Function.update process.thread tid thread }

def spawn (process : Process) : Process :=
  { process.put (connectionThread process.created)
      { program := .connection true Connection.accepted, handlers := [] } with
    created := process.created + 1 }

/-- The second component is the next place, if the function does not return. -/
def collectCompleteThreads (process : Process) (tid : Nat) : Collect → Process × Option Collect
  | .lock =>
      if process.connectionsLock = none then
        ({ process with connectionsLock := some tid }, some (.visit process.connections))
      else (process, some .lock)
  | .visit [] => (process, some .unlock)
  | .visit (conn :: rest) =>
      (process, some (if process.threadComplete conn then .join conn rest else .visit rest))
  | .join conn rest =>
      -- a thread that joins itself gets EDEADLK, which nobody looks at
      if (process.thread (connectionThread conn)).program.terminates ∨
          connectionThread conn = tid then
        (process, some (.remove conn rest))
      else (process, some (.join conn rest))
  | .remove conn rest =>
      ({ process with connections := process.connections.erase conn }, some (.visit rest))
  | .unlock => ({ process with connectionsLock := none }, none)

def cleanUpAndExit (process : Process) (tid : Nat) : CleanUp → Process × CleanUp
  | .enter => ({ process with shouldExit := true }, .collect .lock)
  | .collect place =>
      let next := process.collectCompleteThreads tid place
      (next.1, next.2.elim .exit CleanUp.collect)
  | .exit =>
      ({ process with
          exited := true
          crashed := (process.thread timerThread).program.isAbsent },
        .exit)

def mainStep (process : Process) (tid : Nat) (ret : Ret) : MainPlace → Process × MainPlace
  | .loop => (process, if process.shouldExit then .cleanUp .enter else .accept)
  | .accept => (process, if ret.value < 0 then .loop else .create)
  | .create =>
      if ret.value ≠ 0 then (process, .loop)
      else (process.spawn, .insertLock process.created)
  | .insertLock conn =>
      if process.connectionsLock = none then
        ({ process with connectionsLock := some tid }, .insert conn)
      else (process, .insertLock conn)
  | .insert conn => ({ process with connections := conn :: process.connections }, .insertUnlock)
  | .insertUnlock => ({ process with connectionsLock := none }, .collect .lock)
  | .collect place =>
      let next := process.collectCompleteThreads tid place
      (next.1, next.2.elim .loop MainPlace.collect)
  | .cleanUp place =>
      let next := process.cleanUpAndExit tid place
      (next.1, .cleanUp next.2)

def timerStep (process : Process) (tid : Nat) : TimerPc → Process × Program
  | .tick => (process, if process.shouldExit then .terminated false else .timer .lock)
  | .lock =>
      if process.fileLock = none then ({ process with fileLock := some tid }, .timer .write)
      else (process, .timer .lock)
  | .write => (process, .timer .unlock)
  | .unlock => ({ process with fileLock := none }, .timer .tick)

def connectionStep (process : Process) (tid : Nat) (ret : Ret) (conn : Connection) :
    Process × Program :=
  if conn.pc = .returned then (process, .terminated conn.threadComplete)
  else
    let next := advance tid process.fileLock conn ret
    ({ process with fileLock := next.1 }, .connection (decide (next.2.pc = .receive)) next.2)

def programStep (process : Process) (tid : Nat) (ret : Ret) : Program → Process × Program
  | .absent => (process, .absent)
  | .main place =>
      let next := process.mainStep tid ret place
      (next.1, .main next.2)
  | .timer place => process.timerStep tid place
  | .connection true conn =>
      (process, .connection false (if process.shouldExit then conn.leave else conn))
  | .connection false conn => process.connectionStep tid ret conn
  | .terminated threadComplete => (process, .terminated threadComplete)

def goOn (process : Process) (tid : Nat) (ret : Ret) : Process :=
  let thread := process.thread tid
  match thread.handlers with
  | [] =>
      let next := process.programStep tid ret thread.program
      next.1.put tid { thread with program := next.2 }
  | handler :: below =>
      let next := process.cleanUpAndExit tid handler.place
      next.1.put tid { thread with handlers := { handler with place := next.2 } :: below }

/-- A signal is blocked while its own handler runs, the other one is not. -/
def Delivers (process : Process) (tid : Nat) (signal : Signal) : Prop :=
  process.exited = false ∧ (process.thread tid).program.alive = true ∧
    ∀ handler ∈ (process.thread tid).handlers, handler.signal ≠ signal

instance (process : Process) (tid : Nat) (signal : Signal) :
    Decidable (process.Delivers tid signal) :=
  inferInstanceAs (Decidable (_ ∧ _ ∧ _))

def interrupt (process : Process) (tid : Nat) (signal : Signal) : Process :=
  process.put tid
    { process.thread tid with
      handlers := { signal := signal, place := .enter } :: (process.thread tid).handlers }

def step (process : Process) : ShutdownEvent → Process
  | .go tid ret => if process.exited then process else process.goOn tid ret
  | .signal tid signal =>
      if process.Delivers tid signal then process.interrupt tid signal else process

def run (process : Process) (events : List ShutdownEvent) : Process := events.foldl step process

end Process

/-! ### Deadlocks on connections_lock -/

/-- What the code at some place has of `connections_lock`. Threads are joined
only under the lock. -/
inductive Grip where
  | free
  | held
  | joining (conn : Nat)
  deriving DecidableEq, Repr

def Collect.grip : Collect → Grip
  | .lock => .free
  | .join conn _ => .joining conn
  | _ => .held

def CleanUp.grip : CleanUp → Grip
  | .collect place => place.grip
  | _ => .free

def MainPlace.grip : MainPlace → Grip
  | .insert _ => .held
  | .insertUnlock => .held
  | .collect place => place.grip
  | .cleanUp place => place.grip
  | _ => .free

def Program.grip : Program → Grip
  | .main place => place.grip
  | _ => .free

def Thread.grip (thread : Thread) : Grip :=
  match thread.handlers with
  | [] => thread.program.grip
  | handler :: _ => handler.place.grip

/-- The thread is in `pthread_join` of a connection, below a handler perhaps. -/
def Thread.Joins (thread : Thread) (conn : Nat) : Prop :=
  thread.program.grip = .joining conn ∨
    ∃ handler ∈ thread.handlers, handler.place.grip = .joining conn

def Thread.HandlerWaits (thread : Thread) : Prop :=
  ∃ handler below, thread.handlers = handler :: below ∧ handler.place = .collect .lock

/-- A handler waits for the lock, which its own thread has, or a thread that
waits for the end of its thread. -/
def Process.Deadlocked (process : Process) : Prop :=
  ∃ tid owner, (process.thread tid).HandlerWaits ∧ process.connectionsLock = some owner ∧
    (owner = tid ∨
      ∃ conn, connectionThread conn = tid ∧ (process.thread owner).Joins conn)

/-- A signal that starts a handler on a thread which has the lock, or which has
set `thread_complete` and not terminated yet. -/
def Process.Disturbs (process : Process) : ShutdownEvent → Prop
  | .go _ _ => False
  | .signal tid signal => process.Delivers tid signal ∧
      (process.connectionsLock = some tid ∨
        (process.thread tid).program.threadComplete = true)

instance (process : Process) (event : ShutdownEvent) : Decidable (process.Disturbs event) :=
  match event with
  | .go _ _ => inferInstanceAs (Decidable False)
  | .signal _ _ => inferInstanceAs (Decidable (_ ∧ _))

def Undisturbed (process : Process) (events : List ShutdownEvent) : Prop :=
  AtEachStep (fun before event => ¬ (process.run before).Disturbs event) events

/-! ### The invariant -/

/-- The owner of the lock is at a place where it has it, a thread is joined only
when its connection is complete, and no handler runs on such a thread. -/
structure LockInv (process : Process) : Prop where
  owner : ∀ tid, process.connectionsLock = some tid → (process.thread tid).grip ≠ .free
  joined : ∀ tid conn, (process.thread tid).Joins conn → process.threadComplete conn = true
  unmarked : ∀ tid, (process.thread tid).handlers ≠ [] →
    (process.thread tid).program.threadComplete = false
  fresh : ∀ conn, process.created ≤ conn → process.thread (connectionThread conn) = Thread.absent

theorem LockInv.not_deadlocked {process : Process} (inv : LockInv process) :
    ¬ process.Deadlocked := by
  rintro ⟨tid, owner, ⟨handler, below, top, waits⟩, held, sameOwner | ⟨conn, rfl, joins⟩⟩
  · apply inv.owner owner held
    rw [sameOwner, Thread.grip, top]
    dsimp only
    rw [waits]
    rfl
  · have complete := inv.joined owner conn joins
    have unmarked := inv.unmarked (connectionThread conn)
      (top ▸ List.cons_ne_nil handler below)
    rw [Process.threadComplete, unmarked] at complete
    cases complete

theorem start_lockInv (useAesdCharDevice : Bool) : LockInv (Process.start useAesdCharDevice) := by
  have idle : ∀ tid, ((Process.start useAesdCharDevice).thread tid).handlers = [] ∧
      ((Process.start useAesdCharDevice).thread tid).program.grip = .free := by
    intro tid
    unfold Process.start
    dsimp only
    split
    · exact ⟨rfl, rfl⟩
    · split <;> exact ⟨rfl, rfl⟩
  constructor
  · intro tid held
    cases held
  · intro tid conn joins
    rcases joins with program | ⟨handler, member, _joins⟩
    · rw [(idle tid).2] at program
      cases program
    · rw [(idle tid).1] at member
      cases member
  · intro tid interrupted
    exact absurd (idle tid).1 interrupted
  · intro conn _uncreated
    have notMain : connectionThread conn ≠ mainThread := Nat.succ_ne_zero _
    have notTimer : connectionThread conn ≠ timerThread :=
      fun same => Nat.succ_ne_zero conn (Nat.succ.inj same)
    simp [Process.start, notMain, notTimer]

/-! ### One thread moves -/

/-- What a step of thread `tid` may do to the process, apart from the thread
itself, which is `after` then. -/
structure Proceeds (process next : Process) (tid : Nat) (after : Thread) : Prop where
  threads : next.thread = process.thread
  created : next.created = process.created
  owner : next.connectionsLock = some tid → after.grip ≠ .free
  others : ∀ other, other ≠ tid → next.connectionsLock = some other →
    process.connectionsLock = some other
  joins : ∀ conn, after.Joins conn →
    (process.thread tid).Joins conn ∨ process.threadComplete conn = true
  complete : (process.thread tid).program.threadComplete = true →
    after.program.threadComplete = true
  unmarked : after.handlers ≠ [] → after.program.threadComplete = false
  absent : process.thread tid = Thread.absent → after = Thread.absent

section Step

variable {process next : Process} {tid : Nat} {after : Thread}

theorem Proceeds.thread_self (next : Process) (tid : Nat) (after : Thread) :
    (next.put tid after).thread tid = after := by
  unfold Process.put
  exact Function.update_self _ _ _

theorem Proceeds.thread_other (step : Proceeds process next tid after) {other : Nat}
    (different : other ≠ tid) : (next.put tid after).thread other = process.thread other := by
  rw [← step.threads]
  exact Function.update_of_ne different after next.thread

theorem Proceeds.threadComplete (step : Proceeds process next tid after) {conn : Nat}
    (complete : process.threadComplete conn = true) :
    (next.put tid after).threadComplete conn = true := by
  unfold Process.threadComplete at complete ⊢
  by_cases same : connectionThread conn = tid
  · rw [same] at complete ⊢
    rw [thread_self]
    exact step.complete complete
  · rw [step.thread_other same]
    exact complete

theorem LockInv.proceeds (inv : LockInv process) (step : Proceeds process next tid after) :
    LockInv (next.put tid after) := by
  constructor
  · intro other held
    by_cases same : other = tid
    · subst same
      rw [Proceeds.thread_self]
      exact step.owner held
    · rw [step.thread_other same]
      exact inv.owner other (step.others other same held)
  · intro other conn joins
    apply step.threadComplete
    by_cases same : other = tid
    · subst same
      rw [Proceeds.thread_self] at joins
      rcases step.joins conn joins with before | complete
      · exact inv.joined other conn before
      · exact complete
    · rw [step.thread_other same] at joins
      exact inv.joined other conn joins
  · intro other interrupted
    by_cases same : other = tid
    · subst same
      rw [Proceeds.thread_self] at interrupted ⊢
      exact step.unmarked interrupted
    · rw [step.thread_other same] at interrupted ⊢
      exact inv.unmarked other interrupted
  · intro conn uncreated
    change next.created ≤ conn at uncreated
    rw [step.created] at uncreated
    have absent := inv.fresh conn uncreated
    by_cases same : connectionThread conn = tid
    · rw [same] at absent ⊢
      rw [Proceeds.thread_self]
      exact step.absent absent
    · rw [step.thread_other same]
      exact absent

/-! ### Code under the lock -/

/-- What a step of code with `before` does to the process, when it leaves the
code with `after`. -/
structure Regrips (process next : Process) (tid : Nat) (before after : Grip) : Prop where
  threads : next.thread = process.thread
  created : next.created = process.created
  owner : (process.connectionsLock = some tid → before ≠ .free) →
    next.connectionsLock = some tid → after ≠ .free
  others : ∀ other, other ≠ tid → next.connectionsLock = some other →
    process.connectionsLock = some other
  joins : ∀ conn, after = .joining conn →
    before = .joining conn ∨ process.threadComplete conn = true

theorem Regrips.same {grip : Grip} (threads : next.thread = process.thread)
    (created : next.created = process.created)
    (lock : next.connectionsLock = process.connectionsLock) :
    Regrips process next tid grip grip := by
  constructor
  · exact threads
  · exact created
  · rw [lock]
    exact fun owned held => owned held
  · rw [lock]
    exact fun _other _different held => held
  · exact fun _conn joins => Or.inl joins

theorem Regrips.takes {before : Grip} :
    Regrips process { process with connectionsLock := some tid } tid before .held := by
  constructor
  · rfl
  · rfl
  · intro _owned _held impossible
    cases impossible
  · intro other different held
    exact absurd (Option.some.inj held).symm different
  · intro conn impossible
    cases impossible

theorem Regrips.releases {before : Grip} :
    Regrips process { process with connectionsLock := none } tid before .free := by
  constructor
  · rfl
  · rfl
  · intro _owned impossible
    cases impossible
  · intro other _different impossible
    cases impossible
  · intro conn impossible
    cases impossible

theorem Regrips.keeps {before after : Grip} (threads : next.thread = process.thread)
    (created : next.created = process.created)
    (lock : next.connectionsLock = process.connectionsLock) (has : after ≠ .free)
    (joins : ∀ conn, after = .joining conn → process.threadComplete conn = true) :
    Regrips process next tid before after := by
  constructor
  · exact threads
  · exact created
  · exact fun _owned _held => has
  · rw [lock]
    exact fun _other _different held => held
  · exact fun conn joining => Or.inr (joins conn joining)

def gripBehind : Option Collect → Grip
  | none => .free
  | some place => place.grip

theorem CleanUp.grip_behind (behind : Option Collect) :
    (behind.elim CleanUp.exit CleanUp.collect).grip = gripBehind behind := by
  cases behind <;> rfl

theorem MainPlace.grip_behind (behind : Option Collect) :
    (behind.elim MainPlace.loop MainPlace.collect).grip = gripBehind behind := by
  cases behind <;> rfl

theorem collectCompleteThreads_regrips (process : Process) (tid : Nat) (place : Collect) :
    Regrips process (process.collectCompleteThreads tid place).1 tid place.grip
      (gripBehind (process.collectCompleteThreads tid place).2) := by
  cases place with
  | lock =>
      by_cases free : process.connectionsLock = none
      · simp only [Process.collectCompleteThreads, if_pos free]
        exact Regrips.takes
      · simp only [Process.collectCompleteThreads, if_neg free]
        exact Regrips.same rfl rfl rfl
  | visit rest =>
      cases rest with
      | nil => exact Regrips.same rfl rfl rfl
      | cons conn rest =>
          by_cases complete : process.threadComplete conn = true
          · simp only [Process.collectCompleteThreads, if_pos complete]
            apply Regrips.keeps rfl rfl rfl
            · exact fun impossible => (by cases impossible)
            · intro other joining
              cases joining
              exact complete
          · simp only [Process.collectCompleteThreads, if_neg complete]
            exact Regrips.same rfl rfl rfl
  | join conn rest =>
      by_cases returns : (process.thread (connectionThread conn)).program.terminates = true ∨
          connectionThread conn = tid
      · simp only [Process.collectCompleteThreads, if_pos returns]
        apply Regrips.keeps rfl rfl rfl
        · exact fun impossible => (by cases impossible)
        · exact fun other impossible => (by cases impossible)
      · simp only [Process.collectCompleteThreads, if_neg returns]
        exact Regrips.same rfl rfl rfl
  | remove conn rest => exact Regrips.same rfl rfl rfl
  | unlock => exact Regrips.releases

theorem cleanUpAndExit_regrips (process : Process) (tid : Nat) (place : CleanUp) :
    Regrips process (process.cleanUpAndExit tid place).1 tid place.grip
      (process.cleanUpAndExit tid place).2.grip := by
  cases place with
  | enter => exact Regrips.same rfl rfl rfl
  | collect place =>
      simp only [Process.cleanUpAndExit, CleanUp.grip_behind]
      exact collectCompleteThreads_regrips process tid place
  | exit => exact Regrips.same rfl rfl rfl

theorem mainStep_regrips (process : Process) (tid : Nat) {ret : Ret} {place : MainPlace}
    (creates : ¬ (place = .create ∧ ret.value = 0)) :
    Regrips process (process.mainStep tid ret place).1 tid place.grip
      (process.mainStep tid ret place).2.grip := by
  cases place with
  | loop =>
      unfold Process.mainStep
      dsimp only
      split <;> exact Regrips.same rfl rfl rfl
  | accept =>
      unfold Process.mainStep
      dsimp only
      split <;> exact Regrips.same rfl rfl rfl
  | create =>
      have failed : ret.value ≠ 0 := fun success => creates ⟨rfl, success⟩
      simp only [Process.mainStep, if_pos failed]
      exact Regrips.same rfl rfl rfl
  | insertLock conn =>
      by_cases free : process.connectionsLock = none
      · simp only [Process.mainStep, if_pos free]
        exact Regrips.takes
      · simp only [Process.mainStep, if_neg free]
        exact Regrips.same rfl rfl rfl
  | insert conn => exact Regrips.same rfl rfl rfl
  | insertUnlock => exact Regrips.releases
  | collect place =>
      simp only [Process.mainStep, MainPlace.grip_behind]
      exact collectCompleteThreads_regrips process tid place
  | cleanUp place => exact cleanUpAndExit_regrips process tid place

/-! ### Threads that end -/

theorem nextLine_threadComplete (conn : Connection) :
    conn.nextLine.threadComplete = conn.threadComplete := by
  unfold Connection.nextLine
  split
  · rfl
  · dsimp only
    split
    · split <;> rfl
    · rfl

theorem resume_threadComplete {conn : Connection} (complete : conn.threadComplete = true)
    (ret : Ret) : (conn.resume ret).threadComplete = true := by
  have resumed := resume_cases conn ret
  generalize conn.resume ret = next at resumed ⊢
  cases resumed with
  | hangsUp | breaks | leaves => rfl
  | enters =>
      rw [Connection.locked, nextLine_threadComplete]
      exact complete
  | finishes =>
      rw [Connection.finishLine, nextLine_threadComplete]
      exact complete
  | _ => exact complete

theorem advance_threadComplete {conn : Connection} (complete : conn.threadComplete = true)
    (tid : Nat) (fileLock : Option Nat) (ret : Ret) :
    (advance tid fileLock conn ret).2.threadComplete = true := by
  unfold advance
  split
  · split
    · exact resume_threadComplete complete ret
    · exact complete
  · exact resume_threadComplete complete ret
  · exact resume_threadComplete complete ret

theorem programStep_threadComplete (process : Process) (tid : Nat) (ret : Ret)
    {program : Program} (complete : program.threadComplete = true) :
    (process.programStep tid ret program).2.threadComplete = true := by
  cases program with
  | absent => cases complete
  | main place => cases complete
  | timer place => cases complete
  | connection atLoop conn =>
      cases atLoop with
      | true =>
          unfold Process.programStep
          dsimp only
          split
          · rfl
          · exact complete
      | false =>
          unfold Process.programStep Process.connectionStep
          dsimp only
          split
          · exact complete
          · exact advance_threadComplete complete tid process.fileLock ret
  | terminated threadComplete => exact complete

/-! ### What each program does -/

theorem programStep_regrips (process : Process) (tid : Nat) {ret : Ret} {program : Program}
    (creates : ¬ (program = .main .create ∧ ret.value = 0)) :
    Regrips process (process.programStep tid ret program).1 tid program.grip
      (process.programStep tid ret program).2.grip := by
  cases program with
  | absent => exact Regrips.same rfl rfl rfl
  | main place =>
      apply mainStep_regrips
      rintro ⟨rfl, success⟩
      exact creates ⟨rfl, success⟩
  | timer place =>
      unfold Process.programStep Process.timerStep
      dsimp only
      split
      · dsimp only
        split <;> exact Regrips.same rfl rfl rfl
      · split <;> exact Regrips.same rfl rfl rfl
      · exact Regrips.same rfl rfl rfl
      · exact Regrips.same rfl rfl rfl
  | connection atLoop conn =>
      cases atLoop with
      | true => exact Regrips.same rfl rfl rfl
      | false =>
          unfold Process.programStep Process.connectionStep
          dsimp only
          split <;> exact Regrips.same rfl rfl rfl
  | terminated threadComplete => exact Regrips.same rfl rfl rfl

theorem Regrips.program (inv : LockInv process) (quiet : (process.thread tid).handlers = [])
    {program : Program}
    (regrips : Regrips process next tid (process.thread tid).program.grip program.grip)
    (complete : (process.thread tid).program.threadComplete = true →
      program.threadComplete = true)
    (absent : (process.thread tid).program = .absent → program = .absent) :
    Proceeds process next tid { process.thread tid with program := program } := by
  have running : (process.thread tid).grip = (process.thread tid).program.grip := by
    rw [Thread.grip, quiet]
  have runs : Thread.grip { process.thread tid with program := program } = program.grip := by
    rw [Thread.grip, quiet]
  constructor
  · exact regrips.threads
  · exact regrips.created
  · rw [runs]
    apply regrips.owner
    rw [← running]
    exact inv.owner tid
  · exact regrips.others
  · intro conn joins
    rcases joins with joining | ⟨handler, member, _joining⟩
    · rcases regrips.joins conn joining with before | marked
      · exact Or.inl (Or.inl before)
      · exact Or.inr marked
    · change handler ∈ (process.thread tid).handlers at member
      rw [quiet] at member
      cases member
  · exact complete
  · intro interrupted
    exact absurd quiet interrupted
  · intro none
    have ended := absent (congrArg Thread.program none)
    rw [none, ended]
    rfl

theorem Regrips.handler (inv : LockInv process) {handler : Handler} {below : List Handler}
    (top : (process.thread tid).handlers = handler :: below) {place : CleanUp}
    (regrips : Regrips process next tid handler.place.grip place.grip) :
    Proceeds process next tid
      { process.thread tid with handlers := { handler with place := place } :: below } := by
  have running : (process.thread tid).grip = handler.place.grip := by
    rw [Thread.grip, top]
  constructor
  · exact regrips.threads
  · exact regrips.created
  · apply regrips.owner
    rw [← running]
    exact inv.owner tid
  · exact regrips.others
  · intro conn joins
    rcases joins with joining | ⟨other, member, joining⟩
    · exact Or.inl (Or.inl joining)
    · rcases List.mem_cons.mp member with same | lower
      · rw [same] at joining
        rcases regrips.joins conn joining with before | marked
        · exact Or.inl (Or.inr ⟨handler, top ▸ List.mem_cons_self, before⟩)
        · exact Or.inr marked
      · exact Or.inl (Or.inr ⟨other, top ▸ List.mem_cons_of_mem handler lower, joining⟩)
  · exact fun marked => marked
  · exact fun _interrupted => inv.unmarked tid (top ▸ List.cons_ne_nil handler below)
  · intro none
    rw [none] at top
    cases top

theorem connectionThread_ne {conn other : Nat} (different : conn ≠ other) :
    connectionThread conn ≠ connectionThread other := by
  unfold connectionThread
  omega

theorem spawn_self (process : Process) :
    process.spawn.thread (connectionThread process.created) =
      { program := .connection true Connection.accepted, handlers := [] } :=
  Proceeds.thread_self process _ _

theorem spawn_other (process : Process) {other : Nat}
    (different : other ≠ connectionThread process.created) :
    process.spawn.thread other = process.thread other := by
  unfold Process.spawn Process.put
  exact Function.update_of_ne different _ _

theorem LockInv.spawn (inv : LockInv process) : LockInv process.spawn := by
  have absent := inv.fresh process.created (Nat.le_refl _)
  constructor
  · intro tid held
    have gripped := inv.owner tid held
    have known : tid ≠ connectionThread process.created := by
      intro same
      rw [same, absent] at gripped
      exact gripped rfl
    rw [spawn_other process known]
    exact gripped
  · intro tid conn joins
    have complete : process.threadComplete conn = true := by
      by_cases same : tid = connectionThread process.created
      · rw [same, spawn_self] at joins
        rcases joins with impossible | ⟨handler, member, _joining⟩
        · cases impossible
        · cases member
      · rw [spawn_other process same] at joins
        exact inv.joined tid conn joins
    have known : connectionThread conn ≠ connectionThread process.created := by
      intro same
      rw [Process.threadComplete, same, absent] at complete
      cases complete
    rw [Process.threadComplete, spawn_other process known]
    exact complete
  · intro tid interrupted
    have known : tid ≠ connectionThread process.created := by
      intro same
      rw [same, spawn_self] at interrupted
      exact interrupted rfl
    rw [spawn_other process known] at interrupted ⊢
    exact inv.unmarked tid interrupted
  · intro conn uncreated
    change process.created + 1 ≤ conn at uncreated
    rw [spawn_other process (connectionThread_ne (Nat.ne_of_gt uncreated))]
    exact inv.fresh conn (Nat.le_of_succ_le uncreated)

/-! ### Every event -/

theorem programStep_absent (process : Process) (tid : Nat) (ret : Ret) {program : Program}
    (none : program = .absent) : (process.programStep tid ret program).2 = .absent := by
  rw [none]
  rfl

theorem LockInv.creates (inv : LockInv process) {ret : Ret}
    (quiet : (process.thread tid).handlers = [])
    (place : (process.thread tid).program = .main .create) (success : ret.value = 0) :
    LockInv (process.goOn tid ret) := by
  have known : tid ≠ connectionThread process.created := by
    intro same
    have absent := inv.fresh process.created (Nat.le_refl _)
    rw [← same] at absent
    rw [absent] at place
    cases place
  have shape : process.goOn tid ret =
      process.spawn.put tid
        { process.spawn.thread tid with program := .main (.insertLock process.created) } := by
    rw [spawn_other process known]
    simp [Process.goOn, quiet, place, Process.programStep, Process.mainStep, success]
  rw [shape]
  have spawned := inv.spawn
  apply spawned.proceeds
  rw [← spawn_other process known] at quiet place
  apply Regrips.program spawned quiet
  · rw [place]
    exact Regrips.same rfl rfl rfl
  · rw [place]
    exact fun impossible => (by cases impossible)
  · rw [place]
    exact fun impossible => (by cases impossible)

theorem LockInv.goOn (inv : LockInv process) (tid : Nat) (ret : Ret) :
    LockInv (process.goOn tid ret) := by
  cases stack : (process.thread tid).handlers with
  | nil =>
      by_cases creates : (process.thread tid).program = .main .create ∧ ret.value = 0
      · exact inv.creates stack creates.1 creates.2
      · have proceeds := Regrips.program inv stack (programStep_regrips process tid creates)
          (programStep_threadComplete process tid ret) (programStep_absent process tid ret)
        unfold Process.goOn
        simp only [stack] at proceeds ⊢
        exact inv.proceeds proceeds
  | cons handler below =>
      have proceeds := Regrips.handler inv stack
        (cleanUpAndExit_regrips process tid handler.place)
      unfold Process.goOn
      simp only [stack]
      exact inv.proceeds proceeds

theorem LockInv.interrupt (inv : LockInv process) {signal : Signal}
    (delivers : process.Delivers tid signal) (free : process.connectionsLock ≠ some tid)
    (serving : (process.thread tid).program.threadComplete ≠ true) :
    LockInv (process.interrupt tid signal) := by
  apply inv.proceeds
  constructor
  · rfl
  · rfl
  · exact fun held => absurd held free
  · exact fun _other _different held => held
  · intro conn joins
    rcases joins with joining | ⟨handler, member, joining⟩
    · exact Or.inl (Or.inl joining)
    · rcases List.mem_cons.mp member with same | lower
      · rw [same] at joining
        cases joining
      · exact Or.inl (Or.inr ⟨handler, lower, joining⟩)
  · exact fun marked => marked
  · exact fun _interrupted => Bool.eq_false_iff.mpr serving
  · intro none
    have alive := delivers.2.1
    rw [none] at alive
    cases alive

theorem LockInv.step (inv : LockInv process) {event : ShutdownEvent}
    (undisturbed : ¬ process.Disturbs event) : LockInv (process.step event) := by
  cases event with
  | go tid ret =>
      unfold Process.step
      dsimp only
      split
      · exact inv
      · exact inv.goOn tid ret
  | signal tid signal =>
      by_cases delivers : process.Delivers tid signal
      · simp only [Process.step, if_pos delivers]
        apply inv.interrupt delivers
        · exact fun held => undisturbed ⟨delivers, Or.inl held⟩
        · exact fun marked => undisturbed ⟨delivers, Or.inr marked⟩
      · simp only [Process.step, if_neg delivers]
        exact inv

end Step

/-! ### Every run -/

theorem run_lockInv (useAesdCharDevice : Bool) (events : List ShutdownEvent)
    (undisturbed : Undisturbed (Process.start useAesdCharDevice) events) :
    LockInv ((Process.start useAesdCharDevice).run events) := by
  induction events using List.reverseRecOn with
  | nil => exact start_lockInv useAesdCharDevice
  | append_singleton events event ih =>
      obtain ⟨earlier, last⟩ := atEachStep_append.mp undisturbed
      rw [Process.run, List.foldl_append]
      exact (ih earlier).step last

/-- No state of a run is a deadlock, as long as no signal starts a handler on a
thread that has `connections_lock` or has set `thread_complete` without having
terminated. -/
theorem shutdown_deadlock_free (useAesdCharDevice : Bool) (events : List ShutdownEvent)
    (undisturbed : Undisturbed (Process.start useAesdCharDevice) events) :
    ∀ before, before <+: events →
      ¬ ((Process.start useAesdCharDevice).run before).Deadlocked := by
  rintro before ⟨after, rfl⟩
  exact (run_lockInv useAesdCharDevice before undisturbed.of_append).not_deadlocked

/-- A connection thread is interrupted while `main` inserts its connection; the
handler gets the lock afterwards. -/
def interruptedServing : List ShutdownEvent :=
  [ .go mainThread Ret.zero, .go mainThread Ret.zero, .go mainThread Ret.zero,
    .go mainThread Ret.zero, .signal (connectionThread 0) .sigterm,
    .go (connectionThread 0) Ret.zero, .go mainThread Ret.zero, .go mainThread Ret.zero,
    .go (connectionThread 0) Ret.zero ]

theorem shutdown_deadlock_free_interruptedServing :
    Undisturbed (Process.start true) interruptedServing ∧
      ((Process.start true).run interruptedServing).connectionsLock =
        some (connectionThread 0) ∧
      ∀ before, before <+: interruptedServing →
        ¬ ((Process.start true).run before).Deadlocked := by
  have undisturbed : Undisturbed (Process.start true) interruptedServing := by
    unfold Undisturbed
    decide
  exact ⟨undisturbed, by decide, shutdown_deadlock_free true interruptedServing undisturbed⟩

/-! ### Signals that deadlock -/

theorem Process.Delivers.run_handler {process : Process} {tid : Nat} {signal : Signal}
    (delivers : process.Delivers tid signal) (ret : Ret) :
    process.run [.signal tid signal, .go tid ret] =
      { process with shouldExit := true }.put tid
        { process.thread tid with
          handlers :=
            { signal := signal, place := .collect .lock } :: (process.thread tid).handlers } := by
  have running : process.exited = false := delivers.1
  simp [Process.run, Process.step, delivers, Process.interrupt, Process.goOn, Process.put,
    running, Process.cleanUpAndExit]

/-- A signal on a thread that has the lock, or is being joined, is a deadlock as
soon as the handler comes to the lock. -/
theorem Process.Delivers.deadlocks {process : Process} {tid owner : Nat} {signal : Signal}
    (delivers : process.Delivers tid signal) (held : process.connectionsLock = some owner)
    (needed : owner = tid ∨
      ∃ conn, connectionThread conn = tid ∧ (process.thread owner).Joins conn) (ret : Ret) :
    (process.run [.signal tid signal, .go tid ret]).Deadlocked := by
  rw [delivers.run_handler ret]
  refine ⟨tid, owner, ?_, held, ?_⟩
  · rw [Proceeds.thread_self]
    exact ⟨_, _, rfl, rfl⟩
  · by_cases same : owner = tid
    · exact Or.inl same
    · right
      obtain ⟨conn, thread, joins⟩ := needed.resolve_left same
      refine ⟨conn, thread, ?_⟩
      unfold Process.put
      dsimp only
      rw [Function.update_of_ne same]
      exact joins

def insertingMain : List ShutdownEvent :=
  [ .go mainThread Ret.zero, .go mainThread Ret.zero, .go mainThread Ret.zero,
    .go mainThread Ret.zero ]

/-- SIGINT on `main` between the lock and the unlock of an insertion. -/
theorem interrupted_insertion_deadlocks :
    ¬ ∀ useAesdCharDevice events,
      ¬ ((Process.start useAesdCharDevice).run events).Deadlocked := by
  intro free
  have delivers : ((Process.start true).run insertingMain).Delivers mainThread .sigint := by
    decide
  apply free true (insertingMain ++ [.signal mainThread .sigint, .go mainThread Ret.zero])
  rw [Process.run, List.foldl_append]
  exact delivers.deadlocks rfl (Or.inl rfl) Ret.zero

end Aesd.Server
