/-
Clients that wait for `file_lock` for ever.

A thread that fails to send a response returns with the lock, and nobody can
give it back. Then every client that comes to the lock waits for ever; and
nothing else makes a client wait for ever.
-/

import Aesd.Server.FileLock
import Aesd.Server.LineLoop

namespace Aesd.Server

open Driver

/-! ### A lost lock -/

/-- The owner of the lock has returned, and nobody is in the critical section. -/
structure Threads.Lost (threads : Threads) (owner : Nat) : Prop where
  held : threads.fileLock = some owner
  gone : (threads.thread owner).pc = .returned
  outside : ∀ tid, (threads.thread tid).pc.inSection = false

section Lost

variable {threads : Threads} {owner : Nat}

theorem Threads.put_self (threads : Threads) (tid : Nat) (next : Option Nat × Connection) :
    (threads.put tid next).thread tid = next.2 := Function.update_self _ _ _

theorem Threads.put_other (threads : Threads) {tid other : Nat} (next : Option Nat × Connection)
    (different : other ≠ tid) : (threads.put tid next).thread other = threads.thread other :=
  Function.update_of_ne different _ _

theorem Threads.Lost.put (lost : threads.Lost owner) (tid : Nat) {conn : Connection}
    (outside : conn.pc.inSection = false)
    (returned : (threads.thread tid).pc = .returned → conn.pc = .returned) :
    (threads.put tid (threads.fileLock, conn)).Lost owner := by
  constructor
  · exact lost.held
  · by_cases same : owner = tid
    · rw [same, Threads.put_self]
      exact returned (same ▸ lost.gone)
    · rw [Threads.put_other threads _ same]
      exact lost.gone
  · intro other
    by_cases same : other = tid
    · rw [same, Threads.put_self]
      exact outside
    · rw [Threads.put_other threads _ same]
      exact lost.outside other

/-- While the lock is lost a return changes nothing but its own thread, and not
even that if the thread waits for the lock. -/
theorem Threads.Lost.advance (lost : threads.Lost owner) (tid : Nat) (ret : Ret) :
    ∃ conn, Server.advance tid threads.fileLock (threads.thread tid) ret =
        (threads.fileLock, conn) ∧
      conn.pc.inSection = false ∧
      ((threads.thread tid).pc = .returned → conn.pc = .returned) ∧
      ((threads.thread tid).call = some .lock → conn = threads.thread tid) := by
  have outside := lost.outside tid
  by_cases asks : (threads.thread tid).call = some .lock
  · refine ⟨threads.thread tid, ?_, outside, id, fun _asks => rfl⟩
    unfold Server.advance
    rw [asks]
    dsimp only
    rw [if_neg]
    rw [lost.held]
    exact Option.some_ne_none owner
  · have unasked : (threads.thread tid).call ≠ some .unlock := by
      intro asksUnlock
      rcases call_unlock.mp asksUnlock with place | place
      · rw [place] at outside
        cases outside
      · rw [place] at outside
        cases outside
    refine ⟨(threads.thread tid).resume ret, advance_other ret asks unasked,
      resume_outside outside asks ret, ?_, fun waits => absurd waits asks⟩
    intro place
    rw [Connection.resume, place]
    exact place

theorem Threads.Lost.step (lost : threads.Lost owner) (event : Event) :
    (threads.step event).Lost owner := by
  cases event with
  | exiting => exact ⟨lost.held, lost.gone, lost.outside⟩
  | returns tid ret =>
      rw [Threads.step]
      split
      · exact lost.put tid rfl fun _place => rfl
      · obtain ⟨conn, advanced, outside, returned, _waits⟩ := lost.advance tid ret
        rw [advanced]
        exact lost.put tid outside returned

theorem Threads.Lost.waits (lost : threads.Lost owner) {tid : Nat}
    (waits : (threads.thread tid).call = some .lock) (event : Event) :
    (threads.step event).thread tid = threads.thread tid := by
  cases event with
  | exiting => rfl
  | returns mover ret =>
      by_cases same : tid = mover
      · subst same
        rw [Threads.step, if_neg]
        · obtain ⟨conn, advanced, _outside, _returned, stays⟩ := lost.advance tid ret
          rw [advanced, Threads.put_self]
          exact stays waits
        · rintro ⟨_exiting, place⟩
          rw [Connection.call, place] at waits
          cases waits
      · rw [Threads.step]
        split
        · exact Threads.put_other threads _ same
        · exact Threads.put_other threads _ same

theorem Threads.Lost.waits_run (lost : threads.Lost owner) {tid : Nat}
    (waits : (threads.thread tid).call = some .lock) (events : List Event) :
    (threads.run events).thread tid = threads.thread tid := by
  induction events generalizing threads with
  | nil => rfl
  | cons event events ih =>
      have stays := lost.waits waits event
      rw [← stays] at waits
      exact (ih (lost.step event) waits).trans stays

theorem FailedResponse.loses (owned : SectionOwned threads) {event : Event}
    (failed : FailedResponse threads event) : ∃ owner, (threads.step event).Lost owner := by
  cases event with
  | exiting => cases failed
  | returns tid ret =>
      obtain ⟨⟨written, place⟩, negative⟩ := failed
      have inside : threads.InSection tid := by
        rw [Threads.InSection, place]
        rfl
      have held := (owned tid).mpr inside
      have breaks : (threads.thread tid).resume ret = (threads.thread tid).leave := by
        simp [Connection.resume, place, writeBufferStep, negative]
      have moves : threads.step (.returns tid ret) =
          threads.put tid (threads.fileLock, (threads.thread tid).leave) := by
        rw [Threads.step, if_neg, advance_other ret, breaks]
        · simp [Connection.call, place]
        · simp [Connection.call, place]
        · rintro ⟨_exiting, receives⟩
          rw [place] at receives
          cases receives
      rw [moves]
      refine ⟨tid, held, ?_, ?_⟩
      · rw [Threads.put_self]
        rfl
      · intro other
        by_cases same : other = tid
        · rw [same, Threads.put_self]
          rfl
        · rw [Threads.put_other threads _ same, ← Bool.not_eq_true]
          intro entered
          have holds := (owned other).mpr entered
          rw [held] at holds
          exact same (Option.some.inj holds).symm

end Lost

theorem run_lost {events : List Event} (failed : ¬ ResponsesAccepted Threads.start events) :
    ∃ owner, (Threads.start.run events).Lost owner := by
  induction events using List.reverseRecOn with
  | nil =>
      apply absurd _ failed
      intro before event after impossible
      cases before <;> cases impossible
  | append_singleton events event ih =>
      rw [Threads.run, List.foldl_append]
      by_cases accepted : ResponsesAccepted Threads.start events
      · apply FailedResponse.loses (run_owned events accepted)
        apply Classical.byContradiction
        intro fine
        exact failed (responsesAccepted_append.mpr ⟨accepted, fine⟩)
      · obtain ⟨owner, lost⟩ := ih accepted
        exact ⟨owner, lost.step event⟩

/-! ### A lock that is given back -/

/-- Returns of thread `tid` lead from this place to a free lock. -/
def Frees (tid : Nat) (conn : Connection) : Prop :=
  ∀ threads : Threads, threads.thread tid = conn →
    ∃ events, (threads.run events).fileLock = none ∧
      ∀ other, other ≠ tid → (threads.run events).thread other = threads.thread other

section Frees

variable {tid : Nat} {conn : Connection}

theorem step_of_call {threads : Threads} (serves : threads.thread tid = conn)
    (receiving : conn.pc ≠ .receive) (ret : Ret) :
    threads.step (.returns tid ret) =
      threads.put tid (advance tid threads.fileLock conn ret) := by
  rw [Threads.step, if_neg, serves]
  rintro ⟨_exiting, place⟩
  rw [serves] at place
  exact receiving place

theorem frees_unlock (releases : conn.call = some .unlock) : Frees tid conn := by
  intro threads serves
  have receiving : conn.pc ≠ .receive := by
    intro place
    rw [Connection.call, place] at releases
    cases releases
  have moves := step_of_call serves receiving Ret.zero
  refine ⟨[.returns tid Ret.zero], ?_, ?_⟩
  · change (threads.step (.returns tid Ret.zero)).fileLock = none
    rw [moves, advance, releases]
    rfl
  · intro other different
    change (threads.step (.returns tid Ret.zero)).thread other = _
    rw [moves]
    exact Threads.put_other threads _ different

theorem Frees.of_resume {ret : Ret} (inside : conn.pc.inSection = true)
    (keeps : conn.call ≠ some .unlock) (later : Frees tid (conn.resume ret)) :
    Frees tid conn := by
  intro threads serves
  have receiving : conn.pc ≠ .receive := by
    intro place
    rw [place] at inside
    cases inside
  have unasked : conn.call ≠ some .lock := by
    intro asks
    obtain ⟨inBytesRead, place⟩ := call_lock.mp asks
    rw [place] at inside
    cases inside
  have moves := step_of_call serves receiving ret
  rw [advance_other ret unasked keeps] at moves
  have serving : (threads.step (.returns tid ret)).thread tid = conn.resume ret := by
    rw [moves]
    exact Threads.put_self _ _ _
  obtain ⟨events, free, others⟩ := later _ serving
  refine ⟨.returns tid ret :: events, free, ?_⟩
  intro other different
  apply (others other different).trans
  rw [moves]
  exact Threads.put_other threads _ different

theorem Frees.of_place {pc : Pc} {ret : Ret} {next : Connection} (place : conn.pc = pc)
    (inside : pc.inSection = true) (keeps : pc ≠ .unlock ∧ pc ≠ .unlockRefused)
    (moves : conn.resume ret = next) (later : Frees tid next) : Frees tid conn := by
  apply Frees.of_resume
  · rw [place]
    exact inside
  · intro releases
    rcases call_unlock.mp releases with unlocks | refused
    · exact keeps.1 (place ▸ unlocks)
    · exact keeps.2 (place ▸ refused)
  · rw [moves]
    exact later

/-- A result of zero ends the read loop, a result of -1 the loop that stores. -/
def Ret.minusOne : Ret := { value := -1, data := [], errno := 0 }

theorem frees_readBack (place : conn.pc = .readBack) (later : Frees tid conn.finishLine) :
    Frees tid conn := by
  have moves : conn.resume Ret.zero = conn.finishLine := by
    rw [Connection.resume, place]
    exact if_neg (Int.lt_irrefl 0)
  exact Frees.of_place place rfl (by decide) moves later

theorem frees_rewind (place : conn.pc = .rewind)
    (later : Frees tid { conn with pc := .readBack }) : Frees tid conn := by
  have moves : conn.resume Ret.zero = { conn with pc := .readBack } := by
    rw [Connection.resume, place]
  exact Frees.of_place place rfl (by decide) moves later

theorem frees_storeLine {written : Nat} (place : conn.pc = .storeLine written)
    (later : Frees tid { conn with pc := .rewind }) : Frees tid conn := by
  have moves : conn.resume Ret.minusOne = { conn with pc := .rewind } := by
    rw [Connection.resume, place]
    rfl
  exact Frees.of_place place rfl (by simp) moves later

theorem frees_ioctl {seekto : AesdSeekto} (place : conn.pc = .ioctl seekto) : Frees tid conn := by
  have moves : conn.resume Ret.minusOne = { conn with pc := .unlockRefused } := by
    rw [Connection.resume, place]
    rfl
  exact Frees.of_place place rfl (by simp) moves (frees_unlock rfl)

theorem frees_nextLine (conn : Connection) : Frees tid conn.nextLine := by
  induction remaining : conn.textLines generalizing conn with
  | nil =>
      have round := nextLine_cases conn
      generalize conn.nextLine = first at round
      cases round with
      | done absent => exact frees_unlock rfl
      | data found | seek found | unconverted found =>
          rw [textLines_of_strchr_some found] at remaining
          cases remaining
  | cons line later ih =>
      have answers {place : Connection} {newlineChar : Nat}
          (found : strchr conn.text newline = some newlineChar)
          (reads : place.pc = .readBack) (buffer : place.inBuffer = conn.inBuffer)
          (position : place.prevNewline = conn.prevNewline)
          (length : place.length = newlineChar + 1) : Frees tid place := by
        apply frees_readBack reads
        apply ih
        rw [textLines_of_strchr_some found] at remaining
        rw [← (List.cons.inj remaining).2]
        simp only [Connection.textLines, Connection.text, Connection.skipped, Connection.scanned,
          buffer, position, length]
      have round := nextLine_cases conn
      generalize conn.nextLine = first at round
      cases round with
      | done absent => exact frees_unlock rfl
      | data found data =>
          apply frees_storeLine rfl
          apply frees_rewind rfl
          exact answers found rfl rfl rfl rfl
      | seek found seek seekto => exact frees_ioctl rfl
      | unconverted found seek => exact answers found rfl rfl rfl rfl

theorem frees_respond {written : Nat} (place : conn.pc = .respond written)
    (later : ∀ sent, Frees tid { conn with pc := .readBack, sent := sent }) : Frees tid conn := by
  have taken : writeBufferStep conn.outBuffer.length written conn.outBuffer.length = .written := by
    unfold writeBufferStep
    rw [if_neg (Int.not_lt.mpr (Int.natCast_nonneg _)), if_neg]
    rw [Int.toNat_natCast]
    omega
  have moves : conn.resume { value := conn.outBuffer.length, data := [], errno := 0 } =
      { conn with
        pc := .readBack
        sent := conn.sent ++ (conn.outBuffer.drop written).take conn.outBuffer.length } := by
    simp only [Connection.resume, place, taken, Int.toNat_natCast]
  exact Frees.of_place place rfl (by simp) moves (later _)

/-- Whoever is in the critical section can leave it with the lock given back. -/
theorem frees_inside (inside : conn.pc.inSection = true) : Frees tid conn := by
  have finishes {place : Connection} (reads : place.pc = .readBack) : Frees tid place :=
    frees_readBack reads (frees_nextLine _)
  cases place : conn.pc with
  | receive | lock inBytesRead | returned =>
      rw [place] at inside
      cases inside
  | ioctl seekto => exact frees_ioctl place
  | storeLine written =>
      apply frees_storeLine place
      apply frees_rewind rfl
      exact finishes rfl
  | rewind => exact frees_rewind place (finishes rfl)
  | readBack => exact finishes place
  | respond written => exact frees_respond place fun _sent => finishes rfl
  | unlock => exact frees_unlock (call_unlock.mpr (Or.inl place))
  | unlockRefused => exact frees_unlock (call_unlock.mpr (Or.inr place))

end Frees

theorem SectionOwned.admits {threads : Threads} (owned : SectionOwned threads) {tid : Nat}
    (waits : (threads.thread tid).call = some .lock) :
    ∃ events, ((threads.run events).thread tid).pc.inSection = true := by
  have freed : ∃ events, (threads.run events).fileLock = none ∧
      (threads.run events).thread tid = threads.thread tid := by
    cases lock : threads.fileLock with
    | none => exact ⟨[], lock, rfl⟩
    | some owner =>
        have inside := (owned owner).mp lock
        obtain ⟨events, free, others⟩ := frees_inside inside threads rfl
        have different : tid ≠ owner := by
          intro same
          obtain ⟨inBytesRead, place⟩ := call_lock.mp waits
          rw [Threads.InSection, ← same, place] at inside
          cases inside
        exact ⟨events, free, others tid different⟩
  obtain ⟨events, free, same⟩ := freed
  obtain ⟨inBytesRead, place⟩ := call_lock.mp waits
  refine ⟨events ++ [.returns tid Ret.zero], ?_⟩
  rw [Threads.run, List.foldl_append]
  change ((Threads.step (threads.run events) (.returns tid Ret.zero)).thread tid).pc.inSection = true
  rw [step_of_call same (by rw [place]; simp), Threads.put_self, advance, waits]
  dsimp only
  rw [if_pos free]
  dsimp only
  rw [Connection.resume, place]
  exact nextLine_inSection _

/-- A client that has come to the lock waits for ever exactly when an earlier
response has failed. -/
theorem waits_for_ever_iff (events : List Event) (tid : Nat)
    (waits : ((Threads.start.run events).thread tid).call = some .lock) :
    (∀ later, (Threads.start.run (events ++ later)).thread tid =
        (Threads.start.run events).thread tid) ↔
      ¬ ResponsesAccepted Threads.start events := by
  constructor
  · intro stuck accepted
    obtain ⟨later, entered⟩ := (run_owned events accepted).admits waits
    have stays := stuck later
    rw [Threads.run, List.foldl_append] at stays
    change ((Threads.start.run events).run later).thread tid = _ at stays
    obtain ⟨inBytesRead, place⟩ := call_lock.mp waits
    rw [stays, place] at entered
    cases entered
  · intro failed later
    obtain ⟨owner, lost⟩ := run_lost failed
    rw [Threads.run, List.foldl_append]
    exact lost.waits_run waits later

theorem waits_for_ever_behind_brokenPeer :
    ((Threads.start.run
        (brokenPeer ++ [.returns 1 { value := 2, data := [98, 10], errno := 0 }])).thread 1).call =
      some .lock ∧
    ∀ later, (Threads.start.run
        (brokenPeer ++ [.returns 1 { value := 2, data := [98, 10], errno := 0 }] ++ later)).thread 1 =
      (Threads.start.run
        (brokenPeer ++ [.returns 1 { value := 2, data := [98, 10], errno := 0 }])).thread 1 := by
  have waits : ((Threads.start.run
      (brokenPeer ++ [.returns 1 { value := 2, data := [98, 10], errno := 0 }])).thread 1).call =
      some .lock := by decide
  refine ⟨waits, (waits_for_ever_iff _ 1 waits).mpr ?_⟩
  intro accepted
  apply accepted (brokenPeer.dropLast) (.returns 0 { value := -1, data := [], errno := 104 })
    [.returns 1 { value := 2, data := [98, 10], errno := 0 }] rfl
  exact ⟨⟨0, by decide⟩, by decide⟩

end Aesd.Server
