/-
The connection threads and `file_lock`.

Every thread runs `handle_client_connection` and every call returns whatever
the schedule says. `pthread_mutex_lock` and `pthread_mutex_unlock` do not fail.
-/

import Aesd.Lib.Splits
import Aesd.Server.Connection

namespace Aesd.Server

open Driver

/-! ### Threads -/

/-- The return of one call of thread `tid`. A call of `pthread_mutex_lock` does
not return while the lock is taken. -/
def advance (tid : Nat) (fileLock : Option Nat) (conn : Connection) (ret : Ret) :
    Option Nat × Connection :=
  match conn.call with
  | some .lock => if fileLock = none then (some tid, conn.resume ret) else (fileLock, conn)
  | some .unlock => (none, conn.resume ret)
  | _ => (fileLock, conn.resume ret)

structure Threads where
  shouldExit : Bool
  fileLock : Option Nat
  thread : Nat → Connection

/-- `exiting` is the store `should_exit = 1`. -/
inductive Event where
  | exiting
  | returns (tid : Nat) (ret : Ret)
  deriving DecidableEq, Repr

def Threads.start : Threads :=
  { shouldExit := false, fileLock := none, thread := fun _ => Connection.accepted }

def Threads.put (threads : Threads) (tid : Nat) (next : Option Nat × Connection) : Threads :=
  { threads with fileLock := next.1, thread := Function.update threads.thread tid next.2 }

/-- `should_exit` is looked at before every read of the socket. -/
def Threads.step (threads : Threads) : Event → Threads
  | .exiting => { threads with shouldExit := true }
  | .returns tid ret =>
      if threads.shouldExit ∧ (threads.thread tid).pc = .receive then
        threads.put tid (threads.fileLock, (threads.thread tid).leave)
      else threads.put tid (advance tid threads.fileLock (threads.thread tid) ret)

def Threads.run (threads : Threads) (events : List Event) : Threads :=
  events.foldl Threads.step threads

/-! ### The critical section -/

def Pc.inSection : Pc → Bool
  | .receive => false
  | .lock _ => false
  | .returned => false
  | _ => true

def Threads.InSection (threads : Threads) (tid : Nat) : Prop :=
  (threads.thread tid).pc.inSection = true

/-- No thread that has returned owns the lock; whenever no thread is in its
critical section the lock is free, and a thread that asks for it gets it. -/
structure LockDiscipline (threads : Threads) : Prop where
  returned : ∀ tid, (threads.thread tid).pc = .returned → threads.fileLock ≠ some tid
  free : (∀ tid, ¬ threads.InSection tid) → threads.fileLock = none
  proceeds : (∀ tid, ¬ threads.InSection tid) → ∀ tid ret, (threads.thread tid).call = some .lock →
    (threads.step (.returns tid ret)).fileLock = some tid

/-- A `write` on the socket that fails in the middle of a response. -/
def FailedResponse (threads : Threads) : Event → Prop
  | .exiting => False
  | .returns tid ret => (∃ written, (threads.thread tid).pc = .respond written) ∧ ret.value < 0

def ResponsesAccepted (threads : Threads) (events : List Event) : Prop :=
  ∀ before event after, events = before ++ event :: after →
    ¬ FailedResponse (threads.run before) event

def SectionOwned (threads : Threads) : Prop :=
  ∀ tid, threads.fileLock = some tid ↔ threads.InSection tid

/-! ### One return -/

theorem nextLine_inSection (conn : Connection) : conn.nextLine.pc.inSection = true := by
  unfold Connection.nextLine
  split
  · rfl
  · dsimp only
    split
    · split <;> rfl
    · rfl

/-- Outside the section a return leaves the thread outside, except for the
return of `pthread_mutex_lock`. -/
theorem resume_outside {conn : Connection} (outside : conn.pc.inSection = false)
    (waiting : conn.call ≠ some .lock) (ret : Ret) : (conn.resume ret).pc.inSection = false := by
  have resumed := resume_cases conn ret
  generalize conn.resume ret = next at resumed ⊢
  cases resumed with
  | hangsUp | fills => rfl
  | waits place => exact outside
  | stays place => exact outside
  | enters place => exact absurd (by unfold Connection.call; rw [place]) waiting
  | refused place | sought place | stores place | stored place | rewound place | reads place
  | finishes place | responds place | responded place | breaks place | unlocks place
  | leaves place =>
      rw [place] at outside
      cases outside

/-- Inside the section a return leaves the thread inside, except for the
unlocks and a failed response. -/
theorem resume_inside {conn : Connection} (inside : conn.pc.inSection = true)
    (keeps : conn.call ≠ some .unlock) (ret : Ret)
    (accepted : (∃ written, conn.pc = .respond written) → 0 ≤ ret.value) :
    (conn.resume ret).pc.inSection = true := by
  have resumed := resume_cases conn ret
  generalize conn.resume ret = next at resumed ⊢
  cases resumed with
  | hangsUp place | waits place | fills place | enters place | stays place =>
      rw [place] at inside
      cases inside
  | unlocks place | leaves place =>
      exact absurd (by unfold Connection.call; rw [place]) keeps
  | finishes => exact nextLine_inSection _
  | breaks place failed =>
      have nonnegative := accepted ⟨_, place⟩
      unfold writeBufferStep at failed
      rw [if_neg (Int.not_lt.mpr nonnegative)] at failed
      split at failed <;> cases failed
  | _ => rfl

theorem call_lock {conn : Connection} :
    conn.call = some .lock ↔ ∃ inBytesRead, conn.pc = .lock inBytesRead := by
  unfold Connection.call
  cases conn.pc <;> simp

theorem call_unlock {conn : Connection} :
    conn.call = some .unlock ↔ conn.pc = .unlock ∨ conn.pc = .unlockRefused := by
  unfold Connection.call
  cases conn.pc <;> simp

theorem receive_of_sockRead {conn : Connection} {count : Nat}
    (calls : conn.call = some (.sockRead count)) : conn.pc = .receive := by
  unfold Connection.call at calls
  cases place : conn.pc with
  | receive => rfl
  | _ =>
      rw [place] at calls
      cases calls

theorem advance_other {tid : Nat} {fileLock : Option Nat} {conn : Connection} (ret : Ret)
    (notLock : conn.call ≠ some .lock) (notUnlock : conn.call ≠ some .unlock) :
    advance tid fileLock conn ret = (fileLock, conn.resume ret) := by
  unfold advance
  split
  · next asks => exact absurd asks notLock
  · next releases => exact absurd releases notUnlock
  · rfl

theorem advance_owned {tid : Nat} {fileLock : Option Nat} {conn : Connection} (ret : Ret)
    (owned : fileLock = some tid ↔ conn.pc.inSection = true)
    (accepted : (∃ written, conn.pc = .respond written) → 0 ≤ ret.value) :
    ((advance tid fileLock conn ret).1 = some tid ↔
        (advance tid fileLock conn ret).2.pc.inSection = true) ∧
      ∀ other, other ≠ tid →
        ((advance tid fileLock conn ret).1 = some other ↔ fileLock = some other) := by
  unfold advance
  split
  · next asks =>
      obtain ⟨inBytesRead, place⟩ := call_lock.mp asks
      split
      · next free =>
          have entered : (conn.resume ret).pc.inSection = true := by
            unfold Connection.resume
            rw [place]
            exact nextLine_inSection _
          constructor
          · simp [entered]
          · intro other different
            simp [free, Ne.symm different]
      · exact ⟨owned, fun other _ => Iff.rfl⟩
  · next releases =>
      have left : (conn.resume ret).pc.inSection = false := by
        unfold Connection.resume
        rcases call_unlock.mp releases with place | place <;> rw [place] <;> rfl
      have held : fileLock = some tid := by
        apply owned.mpr
        rcases call_unlock.mp releases with place | place <;> rw [place] <;> rfl
      constructor
      · simp [left]
      · intro other different
        simp [held, Ne.symm different]
  · next notLock notUnlock =>
      constructor
      · cases inside : conn.pc.inSection with
        | true => simp [resume_inside inside notUnlock ret accepted, owned, inside]
        | false =>
            simp [resume_outside inside notLock ret, owned, inside]
      · exact fun other _ => Iff.rfl

/-! ### Schedules -/

theorem start_owned : SectionOwned Threads.start := by
  intro tid
  simp [Threads.start, Threads.InSection, Connection.accepted, Pc.inSection]

theorem step_owned {threads : Threads} (owned : SectionOwned threads) {event : Event}
    (accepted : ¬ FailedResponse threads event) : SectionOwned (threads.step event) := by
  cases event with
  | exiting => exact owned
  | returns tid ret =>
      rw [Threads.step]
      split
      · next leaving =>
          intro other
          by_cases same : other = tid
          · subst same
            have outside := owned other
            simp only [Threads.InSection, leaving.2, Pc.inSection] at outside
            simp [Threads.put, Threads.InSection, Connection.leave, Pc.inSection, outside]
          · have unchanged := owned other
            simpa [Threads.put, Threads.InSection, Function.update_of_ne same] using unchanged
      · have accepts : (∃ written, (threads.thread tid).pc = .respond written) → 0 ≤ ret.value :=
          fun place => Int.not_lt.mp fun negative => accepted ⟨place, negative⟩
        have advanced := advance_owned ret (owned tid) accepts
        intro other
        by_cases same : other = tid
        · subst same
          simpa [Threads.put, Threads.InSection] using advanced.1
        · have unchanged := owned other
          simpa [Threads.put, Threads.InSection, Function.update_of_ne same,
            advanced.2 other same] using unchanged

theorem responsesAccepted_iff {threads : Threads} {events : List Event} :
    ResponsesAccepted threads events ↔
      AtEachStep (fun before event => ¬ FailedResponse (threads.run before) event) events :=
  Iff.rfl

theorem responsesAccepted_append {threads : Threads} {events : List Event} {event : Event} :
    ResponsesAccepted threads (events ++ [event]) ↔
      ResponsesAccepted threads events ∧ ¬ FailedResponse (threads.run events) event := by
  rw [responsesAccepted_iff, responsesAccepted_iff, atEachStep_append]

theorem run_owned (events : List Event) (accepted : ResponsesAccepted Threads.start events) :
    SectionOwned (Threads.start.run events) := by
  induction events using List.reverseRecOn with
  | nil => exact start_owned
  | append_singleton events event ih =>
      obtain ⟨earlier, last⟩ := responsesAccepted_append.mp accepted
      unfold Threads.run
      rw [List.foldl_append]
      exact step_owned (ih earlier) last

theorem SectionOwned.discipline {threads : Threads} (owned : SectionOwned threads) :
    LockDiscipline threads := by
  have free : (∀ tid, ¬ threads.InSection tid) → threads.fileLock = none := by
    intro outside
    cases held : threads.fileLock with
    | none => rfl
    | some tid => exact absurd ((owned tid).mp held) (outside tid)
  constructor
  · intro tid place held
    have inside := (owned tid).mp held
    simp [Threads.InSection, place, Pc.inSection] at inside
  · exact free
  · intro outside tid ret asks
    obtain ⟨inBytesRead, place⟩ := call_lock.mp asks
    simp [Threads.step, place, Threads.put, advance, Connection.call, free outside]

theorem failedResponse_breaks {threads : Threads} (owned : SectionOwned threads) {event : Event}
    (failed : FailedResponse threads event) : ¬ LockDiscipline (threads.step event) := by
  cases event with
  | exiting => cases failed
  | returns tid ret =>
      obtain ⟨⟨written, place⟩, negative⟩ := failed
      have held : threads.fileLock = some tid := by
        apply (owned tid).mpr
        simp [Threads.InSection, place, Pc.inSection]
      intro discipline
      apply discipline.returned tid
      · simp [Threads.step, place, Threads.put, advance, Connection.call, Connection.resume,
          writeBufferStep, negative, Connection.leave]
      · simp [Threads.step, place, Threads.put, advance, Connection.call, held]

/-- In every state of a schedule no returned thread owns `file_lock` and a free
critical section means a free lock, exactly when no `write` to a client fails
in the middle of a response. -/
theorem lock_discipline_iff (events : List Event) :
    (∀ before, before <+: events → LockDiscipline (Threads.start.run before)) ↔
      ResponsesAccepted Threads.start events := by
  constructor
  · induction events using List.reverseRecOn with
    | nil => simp [ResponsesAccepted]
    | append_singleton events event ih =>
        intro discipline
        have accepted := ih fun before start => discipline before
          (start.trans (List.prefix_append events [event]))
        apply responsesAccepted_append.mpr
        refine ⟨accepted, ?_⟩
        intro failed
        apply failedResponse_breaks (run_owned events accepted) failed
        have last := discipline (events ++ [event]) (List.prefix_refl _)
        rwa [Threads.run, List.foldl_append] at last
  · rintro accepted before ⟨after, rfl⟩
    apply SectionOwned.discipline
    apply run_owned
    exact (responsesAccepted_iff.mp accepted).of_append

/-- A client sends a line; the device returns it, and the connection has been reset when
it is sent back. -/
def brokenPeer : List Event :=
  [ .returns 0 { value := 2, data := [97, 10], errno := 0 }, .returns 0 Ret.zero,
    .returns 0 { value := 2, data := [], errno := 0 }, .returns 0 Ret.zero,
    .returns 0 { value := 2, data := [97, 10], errno := 0 },
    .returns 0 { value := -1, data := [], errno := 104 } ]

/-- After a failed response the lock is owned by a thread that has returned. -/
theorem broken_peer_keeps_lock :
    ¬ ∀ events, LockDiscipline (Threads.start.run events) := by
  intro discipline
  apply (discipline brokenPeer).returned 0
  · decide
  · decide

end Aesd.Server
