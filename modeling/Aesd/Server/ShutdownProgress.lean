/-
The server can always be shut down.

A thread that walks the list comes to the end of it: the threads that it joins
have nothing left to do but to return. So the lock is given back, the handler of
a signal gets it, and the process comes to its end. That is `exit`, or in the build
without a timer the `pthread_cancel` in front of it.
-/

import Aesd.Server.Shutdown

namespace Aesd.Server

open Driver

/-! ### Threads that are complete -/

/-- A connection that has set `thread_complete` is about to return. -/
def Program.Returning : Program → Prop
  | .connection atLoop conn =>
      conn.threadComplete = true → atLoop = false ∧ conn.pc = .returned
  | _ => True

def Process.Returning (process : Process) : Prop :=
  ∀ tid, (process.thread tid).program.Returning

theorem resume_returning {conn : Connection} (serving : conn.threadComplete = false) (ret : Ret)
    (complete : (conn.resume ret).threadComplete = true) : (conn.resume ret).pc = .returned := by
  have resumed := resume_cases conn ret
  generalize conn.resume ret = next at resumed complete ⊢
  cases resumed with
  | hangsUp | breaks | leaves => rfl
  | enters =>
      rw [Connection.locked, nextLine_threadComplete, serving] at complete
      cases complete
  | finishes =>
      rw [Connection.finishLine, nextLine_threadComplete, serving] at complete
      cases complete
  | _ =>
      rw [serving] at complete
      cases complete

theorem advance_returning {conn : Connection} (serving : conn.threadComplete = false) (tid : Nat)
    (fileLock : Option Nat) (ret : Ret)
    (complete : (advance tid fileLock conn ret).2.threadComplete = true) :
    (advance tid fileLock conn ret).2.pc = .returned := by
  unfold advance at complete ⊢
  split
  · rename_i asks
    rw [asks] at complete
    dsimp only at complete
    by_cases free : fileLock = none
    · rw [if_pos free] at complete ⊢
      exact resume_returning serving ret complete
    · rw [if_neg free, serving] at complete
      cases complete
  · rename_i asks
    rw [asks] at complete
    exact resume_returning serving ret complete
  · rename_i unasked released
    apply resume_returning serving ret
    split at complete
    · exact absurd ‹_› unasked
    · exact complete
    · exact complete

theorem programStep_returning (process : Process) (tid : Nat) (ret : Ret) {program : Program}
    (returning : program.Returning) : (process.programStep tid ret program).2.Returning := by
  cases program with
  | absent => trivial
  | main place => trivial
  | timer place =>
      unfold Process.programStep Process.timerStep
      dsimp only
      split
      · dsimp only
        split <;> trivial
      · split <;> trivial
      · trivial
      · trivial
  | connection atLoop conn =>
      cases atLoop with
      | true =>
          intro complete
          refine ⟨rfl, ?_⟩
          by_cases exiting : process.shouldExit = true
          · rw [if_pos exiting]
            rfl
          · rw [if_neg exiting] at complete
            cases (returning complete).1
      | false =>
          unfold Process.programStep Process.connectionStep
          dsimp only
          split
          · trivial
          · rename_i running
            have serving : conn.threadComplete = false := by
              rw [Bool.eq_false_iff]
              exact fun complete => running (returning complete).2
            intro complete
            have returned := advance_returning serving tid process.fileLock ret complete
            refine ⟨?_, returned⟩
            rw [returned]
            rfl
  | terminated threadComplete => trivial

/-! ### Steps -/

theorem goOn_threads (process : Process) (tid : Nat) (ret : Ret) {other : Nat}
    (different : other ≠ tid) :
    (process.goOn tid ret).thread other = process.thread other ∨
      ((process.thread tid).program = .main .create ∧ (process.thread tid).handlers = [] ∧
        ret.value = 0 ∧ other = connectionThread process.created ∧
        (process.goOn tid ret).thread other =
          { program := .connection true Connection.accepted, handlers := [] }) := by
  unfold Process.goOn
  dsimp only
  cases stack : (process.thread tid).handlers with
  | cons handler below =>
      left
      change Function.update (process.cleanUpAndExit tid handler.place).1.thread tid _ other = _
      rw [Function.update_of_ne different,
        (cleanUpAndExit_regrips process tid handler.place).threads]
  | nil =>
      change (Function.update (process.programStep tid ret
        (process.thread tid).program).1.thread tid _ other = _) ∨ _
      rw [Function.update_of_ne different]
      by_cases creates : (process.thread tid).program = .main .create ∧ ret.value = 0
      · have spawned : (process.programStep tid ret (process.thread tid).program).1 =
            process.spawn := by
          simp [creates.1, Process.programStep, Process.mainStep, creates.2]
        rw [spawned]
        by_cases new : other = connectionThread process.created
        · right
          refine ⟨creates.1, rfl, creates.2, new, ?_⟩
          change Function.update process.spawn.thread tid _ other = _
          rw [Function.update_of_ne different, new]
          exact spawn_self process
        · exact Or.inl (spawn_other process new)
      · left
        rw [(programStep_regrips process tid creates).threads]

theorem Process.Returning.goOn {process : Process} (returning : process.Returning) (tid : Nat)
    (ret : Ret) : (process.goOn tid ret).Returning := by
  intro other
  by_cases same : other = tid
  · subst same
    unfold Process.goOn
    dsimp only
    cases stack : (process.thread other).handlers with
    | nil =>
        rw [Proceeds.thread_self]
        exact programStep_returning process other ret (returning other)
    | cons handler below =>
        rw [Proceeds.thread_self]
        exact returning other
  · rcases goOn_threads process tid ret same with unchanged | ⟨_place, _quiet, _success, _new, created⟩
    · rw [unchanged]
      exact returning other
    · rw [created]
      intro impossible
      cases impossible

theorem Process.Returning.step {process : Process} (returning : process.Returning)
    (event : ShutdownEvent) : (process.step event).Returning := by
  cases event with
  | go tid ret =>
      unfold Process.step
      dsimp only
      split
      · exact returning
      · exact returning.goOn tid ret
  | signal tid signal =>
      unfold Process.step
      dsimp only
      split
      · intro other
        by_cases same : other = tid
        · rw [same, Process.interrupt, Proceeds.thread_self]
          exact returning tid
        · change (Function.update process.thread tid _ other).program.Returning
          rw [Function.update_of_ne same]
          exact returning other
      · exact returning

theorem start_returning (useAesdCharDevice : Bool) :
    (Process.start useAesdCharDevice).Returning := by
  intro tid
  unfold Process.start
  dsimp only
  split
  · trivial
  · split <;> trivial

theorem run_returning (useAesdCharDevice : Bool) (events : List ShutdownEvent) :
    ((Process.start useAesdCharDevice).run events).Returning := by
  induction events using List.reverseRecOn with
  | nil => exact start_returning useAesdCharDevice
  | append_singleton events event ih =>
      rw [Process.run, List.foldl_append]
      exact ih.step event

def Process.MainRuns (process : Process) : Prop :=
  ∃ place, (process.thread mainThread).program = .main place

theorem Process.MainRuns.goOn {process : Process} (runs : process.MainRuns) (tid : Nat)
    (ret : Ret) : (process.goOn tid ret).MainRuns := by
  obtain ⟨place, program⟩ := runs
  by_cases same : mainThread = tid
  · subst same
    unfold Process.MainRuns Process.goOn
    dsimp only
    cases stack : (process.thread mainThread).handlers with
    | nil =>
        rw [Proceeds.thread_self, program]
        exact ⟨_, rfl⟩
    | cons handler below =>
        rw [Proceeds.thread_self]
        exact ⟨place, program⟩
  · rcases goOn_threads process tid ret same with unchanged | ⟨_place, _quiet, _success, new, _created⟩
    · exact ⟨place, unchanged ▸ program⟩
    · cases new

theorem Process.MainRuns.step {process : Process} (runs : process.MainRuns)
    (event : ShutdownEvent) : (process.step event).MainRuns := by
  cases event with
  | go tid ret =>
      unfold Process.step
      dsimp only
      split
      · exact runs
      · exact runs.goOn tid ret
  | signal tid signal =>
      obtain ⟨place, program⟩ := runs
      unfold Process.step
      dsimp only
      split
      · refine ⟨place, ?_⟩
        by_cases same : mainThread = tid
        · rw [← same, Process.interrupt, Proceeds.thread_self]
          exact program
        · change (Function.update process.thread tid _ mainThread).program = _
          rw [Function.update_of_ne same]
          exact program
      · exact ⟨place, program⟩

theorem run_mainRuns (useAesdCharDevice : Bool) (events : List ShutdownEvent) :
    ((Process.start useAesdCharDevice).run events).MainRuns := by
  induction events using List.reverseRecOn with
  | nil => exact ⟨.loop, rfl⟩
  | append_singleton events event ih =>
      rw [Process.run, List.foldl_append]
      exact ih.step event

/-! ### The end of the process -/

/-- What a step does to the end of the process. -/
def Process.Ends (process next : Process) : Prop :=
  next.exited = process.exited ∧ next.crashed = process.crashed ∨
    next.crashed = (process.thread timerThread).program.isAbsent

theorem collectCompleteThreads_ends (process : Process) (tid : Nat) (place : Collect) :
    (process.collectCompleteThreads tid place).1.exited = process.exited ∧
      (process.collectCompleteThreads tid place).1.crashed = process.crashed := by
  unfold Process.collectCompleteThreads
  split
  · split <;> exact ⟨rfl, rfl⟩
  · exact ⟨rfl, rfl⟩
  · exact ⟨rfl, rfl⟩
  · split <;> exact ⟨rfl, rfl⟩
  · exact ⟨rfl, rfl⟩
  · exact ⟨rfl, rfl⟩

theorem cleanUpAndExit_ends (process : Process) (tid : Nat) (place : CleanUp) :
    process.Ends (process.cleanUpAndExit tid place).1 := by
  cases place with
  | enter => exact Or.inl ⟨rfl, rfl⟩
  | collect place => exact Or.inl (collectCompleteThreads_ends process tid place)
  | exit => exact Or.inr rfl

theorem programStep_ends (process : Process) (tid : Nat) (ret : Ret) (program : Program) :
    process.Ends (process.programStep tid ret program).1 := by
  have stays : process.Ends process := Or.inl ⟨rfl, rfl⟩
  cases program with
  | absent | terminated => exact stays
  | main place =>
      cases place with
      | collect place => exact Or.inl (collectCompleteThreads_ends process tid place)
      | cleanUp place => exact cleanUpAndExit_ends process tid place
      | loop | accept | insert | insertUnlock => exact Or.inl ⟨rfl, rfl⟩
      | create | insertLock =>
          unfold Process.programStep Process.mainStep
          dsimp only
          split <;> exact Or.inl ⟨rfl, rfl⟩
  | timer place =>
      cases place with
      | tick | write | unlock => exact Or.inl ⟨rfl, rfl⟩
      | lock =>
          unfold Process.programStep Process.timerStep
          dsimp only
          split <;> exact Or.inl ⟨rfl, rfl⟩
  | connection atLoop conn =>
      cases atLoop with
      | true => exact stays
      | false =>
          unfold Process.programStep Process.connectionStep
          dsimp only
          split <;> exact Or.inl ⟨rfl, rfl⟩

theorem goOn_ends (process : Process) (tid : Nat) (ret : Ret) :
    process.Ends (process.goOn tid ret) := by
  unfold Process.goOn
  dsimp only
  cases (process.thread tid).handlers with
  | nil => exact programStep_ends process tid ret (process.thread tid).program
  | cons handler below => exact cleanUpAndExit_ends process tid handler.place

theorem programStep_isAbsent (process : Process) (tid : Nat) (ret : Ret) (program : Program) :
    (process.programStep tid ret program).2.isAbsent = program.isAbsent := by
  cases program with
  | absent | terminated | main => rfl
  | timer place =>
      cases place with
      | write | unlock => rfl
      | tick | lock =>
          unfold Process.programStep Process.timerStep
          dsimp only
          split <;> rfl
  | connection atLoop conn =>
      cases atLoop with
      | true => rfl
      | false =>
          unfold Process.programStep Process.connectionStep
          dsimp only
          split <;> rfl

/-- There is a timer, or there is none, and the process ends accordingly. -/
structure Process.TimerKept (useAesdCharDevice : Bool) (process : Process) : Prop where
  timer : (process.thread timerThread).program.isAbsent = useAesdCharDevice
  crashed : process.exited = true → process.crashed = useAesdCharDevice

theorem Process.TimerKept.goOn {useAesdCharDevice : Bool} {process : Process}
    (kept : process.TimerKept useAesdCharDevice) (tid : Nat) (ret : Ret) :
    (process.goOn tid ret).TimerKept useAesdCharDevice := by
  constructor
  · by_cases same : timerThread = tid
    · subst same
      rw [← kept.timer]
      unfold Process.goOn
      dsimp only
      cases stack : (process.thread timerThread).handlers with
      | nil =>
          rw [Proceeds.thread_self]
          exact programStep_isAbsent process timerThread ret (process.thread timerThread).program
      | cons handler below => rw [Proceeds.thread_self]
    · rcases goOn_threads process tid ret same with
        unchanged | ⟨_place, _quiet, _success, new, _created⟩
      · rw [unchanged]
        exact kept.timer
      · unfold timerThread connectionThread at new
        omega
  · intro exited
    rcases goOn_ends process tid ret with ⟨same, sameCrashed⟩ | crashed
    · rw [sameCrashed]
      exact kept.crashed (same.symm.trans exited)
    · rw [crashed]
      exact kept.timer

theorem Process.TimerKept.step {useAesdCharDevice : Bool} {process : Process}
    (kept : process.TimerKept useAesdCharDevice) (event : ShutdownEvent) :
    (process.step event).TimerKept useAesdCharDevice := by
  cases event with
  | go tid ret =>
      unfold Process.step
      dsimp only
      split
      · exact kept
      · exact kept.goOn tid ret
  | signal tid signal =>
      unfold Process.step
      dsimp only
      split
      · refine ⟨?_, kept.crashed⟩
        rw [← kept.timer]
        by_cases same : timerThread = tid
        · rw [← same, Process.interrupt, Proceeds.thread_self]
        · change (Function.update process.thread tid _ timerThread).program.isAbsent = _
          rw [Function.update_of_ne same]
      · exact kept

theorem run_timerKept (useAesdCharDevice : Bool) (events : List ShutdownEvent) :
    ((Process.start useAesdCharDevice).run events).TimerKept useAesdCharDevice := by
  induction events using List.reverseRecOn with
  | nil =>
      constructor
      · cases useAesdCharDevice with
        | false => rfl
        | true => rfl
      · intro impossible
        cases impossible
  | append_singleton events event ih =>
      rw [Process.run, List.foldl_append]
      exact ih.step event

/-! ### Code in collect_complete_threads -/

inductive Thread.Collects : Thread → Collect → Prop where
  | handler (program : Program) (signal : Signal) (place : Collect) (below : List Handler) :
      Collects
        { program := program
          handlers := { signal := signal, place := .collect place } :: below } place
  | main (place : Collect) : Collects { program := .main (.collect place), handlers := [] } place
  | cleanUp (place : Collect) :
      Collects { program := .main (.cleanUp (.collect place)), handlers := [] } place

def Thread.behind (thread : Thread) (next : Option Collect) : Thread :=
  match thread.handlers, thread.program with
  | handler :: below, program =>
      { program
        handlers := { handler with place := next.elim .exit CleanUp.collect } :: below }
  | [], .main (.cleanUp _) =>
      { program := .main (.cleanUp (next.elim .exit CleanUp.collect)), handlers := [] }
  | [], _ => { program := .main (next.elim .loop MainPlace.collect), handlers := [] }

theorem Thread.Collects.next {thread : Thread} {place : Collect}
    (collects : thread.Collects place) (next : Collect) :
    (thread.behind (some next)).Collects next := by
  cases collects with
  | handler program signal place below => exact .handler program signal next below
  | main place => exact .main next
  | cleanUp place => exact .cleanUp next

theorem Thread.Collects.behind_behind {thread : Thread} {place : Collect}
    (collects : thread.Collects place) (next : Collect) (last : Option Collect) :
    (thread.behind (some next)).behind last = thread.behind last := by
  cases collects <;> rfl

theorem goOn_collects {process : Process} {tid : Nat} {place : Collect} (ret : Ret)
    (collects : (process.thread tid).Collects place) :
    process.goOn tid ret =
      (process.collectCompleteThreads tid place).1.put tid
        ((process.thread tid).behind (process.collectCompleteThreads tid place).2) := by
  unfold Process.goOn
  generalize process.thread tid = thread at collects ⊢
  cases collects <;> rfl

/-! ### A walk to its end -/

structure Process.Sound (process : Process) : Prop where
  inv : LockInv process
  returning : process.Returning
  main : process.MainRuns
  running : process.exited = false

/-- Only a complete connection thread has gone on, by returning. -/
def Thread.Later (before after : Thread) : Prop :=
  after = before ∨
    ∃ conn, before.program = .connection false conn ∧ before.handlers = [] ∧
      after = { program := .terminated conn.threadComplete, handlers := [] }

theorem Thread.Later.refl (thread : Thread) : thread.Later thread := Or.inl rfl

theorem Thread.Later.trans {first second third : Thread} (before : first.Later second)
    (after : second.Later third) : first.Later third := by
  rcases before with same | ⟨conn, program, quiet, ended⟩
  · rw [← same]
    exact after
  · rcases after with same | ⟨other, impossible, _quiet, _ended⟩
    · rw [same]
      exact Or.inr ⟨conn, program, quiet, ended⟩
    · rw [ended] at impossible
      cases impossible

def Goes (events : List ShutdownEvent) : Prop := ∀ event ∈ events, ∃ tid ret, event = .go tid ret

structure WalkOver (process final : Process) (tid : Nat) (after : Thread) : Prop where
  sound : final.Sound
  lock : final.connectionsLock = none
  own : final.thread tid = after
  others : ∀ other, other ≠ tid → (process.thread other).Later (final.thread other)

section Walk

variable {process : Process} {tid : Nat}

theorem Process.Sound.goOn (sound : process.Sound) (tid : Nat) (ret : Ret)
    (running : (process.goOn tid ret).exited = false) : (process.goOn tid ret).Sound :=
  { inv := sound.inv.goOn tid ret
    returning := sound.returning.goOn tid ret
    main := sound.main.goOn tid ret
    running := running }

theorem Process.Sound.run_cons (sound : process.Sound) (tid : Nat) (ret : Ret)
    (events : List ShutdownEvent) :
    process.run (.go tid ret :: events) = (process.goOn tid ret).run events := by
  rw [Process.run, List.foldl_cons]
  change List.foldl Process.step (if process.exited then process else process.goOn tid ret) events = _
  rw [sound.running]
  rfl

theorem Goes.cons (tid : Nat) (ret : Ret) {events : List ShutdownEvent} (goes : Goes events) :
    Goes (.go tid ret :: events) := by
  intro event member
  rcases List.mem_cons.mp member with same | later
  · exact ⟨tid, ret, same⟩
  · exact goes event later

theorem goes_nil : Goes [] := fun _event member => absurd member List.not_mem_nil

theorem Process.Sound.collects (sound : process.Sound) {place : Collect}
    (collects : (process.thread tid).Collects place) :
    (process.goOn tid Ret.zero).Sound ∧
      (process.goOn tid Ret.zero).thread tid =
        (process.thread tid).behind (process.collectCompleteThreads tid place).2 ∧
      ∀ other, other ≠ tid →
        (process.goOn tid Ret.zero).thread other = process.thread other := by
  have stepped := goOn_collects Ret.zero collects
  refine ⟨?_, ?_, ?_⟩
  · apply sound.goOn
    rw [stepped]
    exact (collectCompleteThreads_ends process tid place).1.trans sound.running
  · rw [stepped, Proceeds.thread_self]
  · intro other different
    rw [stepped]
    change Function.update _ tid _ other = _
    rw [Function.update_of_ne different, (collectCompleteThreads_regrips process tid place).threads]

theorem walkOver_cons (sound : process.Sound) {place next : Collect}
    (collects : (process.thread tid).Collects place)
    (moves : (process.collectCompleteThreads tid place).2 = some next)
    (later : ((process.goOn tid Ret.zero).thread tid).Collects next →
      ∃ events, Goes events ∧
        WalkOver (process.goOn tid Ret.zero) ((process.goOn tid Ret.zero).run events) tid
          (((process.goOn tid Ret.zero).thread tid).behind none)) :
    ∃ events, Goes events ∧
      WalkOver process (process.run events) tid ((process.thread tid).behind none) := by
  obtain ⟨_sound, own, others⟩ := sound.collects collects
  rw [moves] at own
  have follows : ((process.goOn tid Ret.zero).thread tid).Collects next := by
    rw [own]
    exact collects.next next
  obtain ⟨events, goes, walked⟩ := later follows
  rw [own, collects.behind_behind] at walked
  refine ⟨.go tid Ret.zero :: events, goes.cons tid Ret.zero, ?_⟩
  rw [sound.run_cons]
  constructor
  · exact walked.sound
  · exact walked.lock
  · exact walked.own
  · intro other different
    rw [← others other different]
    exact walked.others other different

theorem returning_terminates (sound : process.Sound) {conn : Nat}
    (complete : process.threadComplete conn = true)
    (alive : ¬(process.thread (connectionThread conn)).program.terminates = true) :
    ∃ served, (process.thread (connectionThread conn)).program = .connection false served ∧
      (process.thread (connectionThread conn)).handlers = [] ∧
      process.goOn (connectionThread conn) Ret.zero =
        process.put (connectionThread conn)
          { program := .terminated served.threadComplete, handlers := [] } := by
  have quiet : (process.thread (connectionThread conn)).handlers = [] := by
    apply Classical.byContradiction
    intro interrupted
    have unmarked := sound.inv.unmarked _ interrupted
    rw [Process.threadComplete, unmarked] at complete
    cases complete
  have returning := sound.returning (connectionThread conn)
  unfold Process.threadComplete at complete
  unfold Process.goOn
  dsimp only
  generalize process.thread (connectionThread conn) = thread at quiet returning complete alive ⊢
  obtain ⟨program, handlers⟩ := thread
  change handlers = [] at quiet
  subst quiet
  cases program with
  | absent => cases complete
  | main place => cases complete
  | timer place => cases complete
  | terminated threadComplete => exact absurd rfl alive
  | connection atLoop served =>
      obtain ⟨atCall, returned⟩ := returning complete
      subst atCall
      refine ⟨served, rfl, rfl, ?_⟩
      dsimp only [Process.programStep, Process.connectionStep]
      rw [if_pos returned]

theorem unlock_ends (sound : process.Sound)
    (collects : (process.thread tid).Collects .unlock) :
    ∃ events, Goes events ∧
      WalkOver process (process.run events) tid ((process.thread tid).behind none) := by
  obtain ⟨after, own, others⟩ := sound.collects collects
  refine ⟨[.go tid Ret.zero], goes_nil.cons tid Ret.zero, ?_⟩
  rw [sound.run_cons]
  constructor
  · exact after
  · change (process.goOn tid Ret.zero).connectionsLock = none
    rw [goOn_collects Ret.zero collects]
    rfl
  · exact own
  · intro other different
    change (process.thread other).Later ((process.goOn tid Ret.zero).thread other)
    rw [others other different]
    exact Thread.Later.refl _

def EndsFrom (tid : Nat) (place : Collect) : Prop :=
  ∀ process : Process, process.Sound → (process.thread tid).Collects place →
    ∃ events, Goes events ∧
      WalkOver process (process.run events) tid ((process.thread tid).behind none)

theorem EndsFrom.remove {conn : Nat} {rest : List Nat} (later : EndsFrom tid (.visit rest)) :
    EndsFrom tid (.remove conn rest) := by
  intro process sound collects
  apply walkOver_cons sound collects rfl
  exact later _ (sound.collects collects).1

theorem EndsFrom.joined {conn : Nat} {rest : List Nat} (later : EndsFrom tid (.visit rest))
    (sound : process.Sound) (collects : (process.thread tid).Collects (.join conn rest))
    (returns : (process.thread (connectionThread conn)).program.terminates = true ∨
      connectionThread conn = tid) :
    ∃ events, Goes events ∧
      WalkOver process (process.run events) tid ((process.thread tid).behind none) := by
  have moves : (process.collectCompleteThreads tid (.join conn rest)).2 =
      some (.remove conn rest) := by
    simp only [Process.collectCompleteThreads, if_pos returns]
  apply walkOver_cons sound collects moves
  exact later.remove _ (sound.collects collects).1

theorem EndsFrom.join {conn : Nat} {rest : List Nat} (later : EndsFrom tid (.visit rest)) :
    EndsFrom tid (.join conn rest) := by
  intro process sound collects
  by_cases returns : (process.thread (connectionThread conn)).program.terminates = true ∨
      connectionThread conn = tid
  · exact later.joined sound collects returns
  · have alive : ¬(process.thread (connectionThread conn)).program.terminates = true :=
      fun terminates => returns (Or.inl terminates)
    have different : tid ≠ connectionThread conn := fun same => returns (Or.inr same.symm)
    have joins : (process.thread tid).Joins conn := by
      generalize process.thread tid = thread at collects
      cases collects with
      | handler program signal place below =>
          exact Or.inr ⟨_, List.mem_cons_self, rfl⟩
      | main place => exact Or.inl rfl
      | cleanUp place => exact Or.inl rfl
    obtain ⟨served, program, quiet, stepped⟩ :=
      returning_terminates sound (sound.inv.joined tid conn joins) alive
    have after : (process.goOn (connectionThread conn) Ret.zero).Sound := by
      apply sound.goOn
      rw [stepped]
      exact sound.running
    have own : (process.goOn (connectionThread conn) Ret.zero).thread tid =
        process.thread tid := by
      rw [stepped]
      exact Function.update_of_ne different _ _
    have ended : ((process.goOn (connectionThread conn) Ret.zero).thread
        (connectionThread conn)).program.terminates = true := by
      rw [stepped, Proceeds.thread_self]
      rfl
    rw [← own] at collects
    obtain ⟨events, goes, walked⟩ := later.joined after collects (Or.inl ended)
    rw [own] at walked
    refine ⟨.go (connectionThread conn) Ret.zero :: events, goes.cons _ _, ?_⟩
    rw [sound.run_cons]
    constructor
    · exact walked.sound
    · exact walked.lock
    · exact walked.own
    · intro other notOwn
      apply Thread.Later.trans _ (walked.others other notOwn)
      by_cases same : other = connectionThread conn
      · rw [same, stepped, Proceeds.thread_self]
        exact Or.inr ⟨served, program, quiet, rfl⟩
      · rw [stepped]
        left
        exact Function.update_of_ne same _ _

theorem endsFrom_visit (tid : Nat) (rest : List Nat) : EndsFrom tid (.visit rest) := by
  induction rest with
  | nil =>
      intro process sound collects
      apply walkOver_cons sound collects rfl
      exact unlock_ends (sound.collects collects).1
  | cons conn rest ih =>
      intro process sound collects
      by_cases complete : process.threadComplete conn = true
      · have moves : (process.collectCompleteThreads tid (.visit (conn :: rest))).2 =
            some (.join conn rest) := by
          simp only [Process.collectCompleteThreads, if_pos complete]
        apply walkOver_cons sound collects moves
        exact ih.join _ (sound.collects collects).1
      · have moves : (process.collectCompleteThreads tid (.visit (conn :: rest))).2 =
            some (.visit rest) := by
          simp only [Process.collectCompleteThreads, if_neg complete]
        apply walkOver_cons sound collects moves
        exact ih _ (sound.collects collects).1

/-- Whoever has the lock in `collect_complete_threads` gives it back. -/
theorem endsFrom_held (tid : Nat) {place : Collect} (held : place.grip ≠ .free) :
    EndsFrom tid place := by
  cases place with
  | lock => exact absurd rfl held
  | visit rest => exact endsFrom_visit tid rest
  | join conn rest => exact (endsFrom_visit tid rest).join
  | remove conn rest => exact (endsFrom_visit tid rest).remove
  | unlock => exact fun _process sound collects => unlock_ends sound collects

/-! ### The lock is given back -/

theorem Thread.Later.handlers {before after : Thread} (later : before.Later after)
    (interrupted : before.handlers ≠ []) : after = before := by
  rcases later with same | ⟨_conn, _program, quiet, _ended⟩
  · exact same
  · exact absurd quiet interrupted

theorem Process.run_append (process : Process) (first second : List ShutdownEvent) :
    process.run (first ++ second) = (process.run first).run second :=
  List.foldl_append

theorem Goes.append {first second : List ShutdownEvent} (before : Goes first)
    (after : Goes second) : Goes (first ++ second) := by
  intro event member
  rcases List.mem_append.mp member with earlier | later
  · exact before event earlier
  · exact after event later

/-- Code that has the lock walks the list or inserts a connection. -/
theorem Thread.gripping_cases {thread : Thread} (gripping : thread.grip ≠ .free) :
    (∃ place, thread.Collects place ∧ place.grip ≠ .free) ∨
      (∃ conn, thread = { program := .main (.insert conn), handlers := [] }) ∨
      thread = { program := .main .insertUnlock, handlers := [] } := by
  obtain ⟨program, handlers⟩ := thread
  cases handlers with
  | cons handler below =>
      obtain ⟨signal, place⟩ := handler
      cases place with
      | enter | exit => exact absurd rfl gripping
      | collect place => exact Or.inl ⟨place, .handler program signal place below, gripping⟩
  | nil =>
      cases program with
      | absent | timer place | connection atLoop conn | terminated threadComplete =>
          exact absurd rfl gripping
      | main place =>
          cases place with
          | loop | accept | create | insertLock conn => exact absurd rfl gripping
          | insert conn => exact Or.inr (Or.inl ⟨conn, rfl⟩)
          | insertUnlock => exact Or.inr (Or.inr rfl)
          | collect place => exact Or.inl ⟨place, .main place, gripping⟩
          | cleanUp place =>
              cases place with
              | enter | exit => exact absurd rfl gripping
              | collect place => exact Or.inl ⟨place, .cleanUp place, gripping⟩

structure Released (process final : Process) : Prop where
  sound : final.Sound
  lock : final.connectionsLock = none
  handlers : ∀ other, (process.thread other).handlers ≠ [] →
    (final.thread other).handlers ≠ []

theorem released_walk (sound : process.Sound) {place : Collect}
    (collects : (process.thread tid).Collects place) (held : place.grip ≠ .free) :
    ∃ events, Goes events ∧ Released process (process.run events) := by
  obtain ⟨events, goes, walked⟩ := endsFrom_held tid held process sound collects
  refine ⟨events, goes, walked.sound, walked.lock, ?_⟩
  intro other interrupted
  by_cases same : other = tid
  · rw [same] at interrupted ⊢
    rw [walked.own]
    generalize process.thread tid = thread at collects interrupted
    cases collects with
    | handler program signal place below => exact List.cons_ne_nil _ _
    | main place => exact absurd rfl interrupted
    | cleanUp place => exact absurd rfl interrupted
  · rw [(walked.others other same).handlers interrupted]
    exact interrupted

private theorem Process.Sound.main_step (sound : process.Sound) {place next : MainPlace}
    {changed : Process}
    (stands : process.thread tid = { program := .main place, handlers := [] })
    (moves : process.mainStep tid Ret.zero place = (changed, next))
    (threads : changed.thread = process.thread) (running : changed.exited = process.exited) :
    (process.goOn tid Ret.zero).Sound ∧
      process.goOn tid Ret.zero = changed.put tid { program := .main next, handlers := [] } ∧
      ∀ other, (process.thread other).handlers ≠ [] →
        ((process.goOn tid Ret.zero).thread other).handlers ≠ [] := by
  have stepped : process.goOn tid Ret.zero =
      changed.put tid { program := .main next, handlers := [] } := by
    unfold Process.goOn
    simp only [stands, Process.programStep, moves]
  refine ⟨?_, stepped, ?_⟩
  · apply sound.goOn
    rw [stepped]
    exact running.trans sound.running
  · intro other interrupted
    have different : other ≠ tid := by
      intro same
      rw [same, stands] at interrupted
      exact interrupted rfl
    rw [stepped]
    change (Function.update changed.thread tid _ other).handlers ≠ []
    rw [Function.update_of_ne different, threads]
    exact interrupted

theorem released_insertion (sound : process.Sound)
    (stands : process.thread tid = { program := .main .insertUnlock, handlers := [] }) :
    ∃ events, Goes events ∧ Released process (process.run events) := by
  obtain ⟨after, stepped, handlers⟩ := sound.main_step stands rfl rfl rfl
  refine ⟨[.go tid Ret.zero], goes_nil.cons tid Ret.zero, ?_⟩
  rw [sound.run_cons]
  constructor
  · exact after
  · change (process.goOn tid Ret.zero).connectionsLock = none
    rw [stepped]
    rfl
  · exact handlers

/-- The owner of `connections_lock` gives it back. -/
theorem lock_released (sound : process.Sound) :
    ∃ events, Goes events ∧ Released process (process.run events) := by
  cases held : process.connectionsLock with
  | none => exact ⟨[], goes_nil, sound, held, fun _other interrupted => interrupted⟩
  | some owner =>
      rcases Thread.gripping_cases (sound.inv.owner owner held) with
        ⟨place, collects, holds⟩ | ⟨conn, inserts⟩ | unlocks
      · exact released_walk sound collects holds
      · obtain ⟨after, stepped, handlers⟩ := sound.main_step inserts rfl rfl rfl
        have stands : (process.goOn owner Ret.zero).thread owner =
            { program := .main .insertUnlock, handlers := [] } := by
          rw [stepped, Proceeds.thread_self]
        obtain ⟨events, goes, released⟩ := released_insertion after stands
        refine ⟨.go owner Ret.zero :: events, goes.cons owner Ret.zero, ?_⟩
        rw [sound.run_cons]
        exact
          { released with
            handlers := fun other interrupted =>
              released.handlers other (handlers other interrupted) }
      · exact released_insertion sound unlocks

/-! ### A handler ends the process -/

def Exits (process : Process) : Prop :=
  ∃ events, Goes events ∧ (process.run events).exited = true

theorem Exits.head (sound : process.Sound) (ret : Ret) (later : Exits (process.goOn tid ret)) :
    Exits process := by
  obtain ⟨events, goes, exited⟩ := later
  refine ⟨.go tid ret :: events, goes.cons tid ret, ?_⟩
  rw [sound.run_cons]
  exact exited

theorem Exits.append {events : List ShutdownEvent} (goes : Goes events)
    (later : Exits (process.run events)) : Exits process := by
  obtain ⟨more, moreGoes, exited⟩ := later
  refine ⟨events ++ more, goes.append moreGoes, ?_⟩
  rw [Process.run_append]
  exact exited

theorem exits_at_exit (sound : process.Sound) (signal : Signal) (below : List Handler)
    (top : (process.thread tid).handlers = { signal := signal, place := .exit } :: below) :
    Exits process := by
  apply Exits.head sound Ret.zero
  refine ⟨[], goes_nil, ?_⟩
  change (process.goOn tid Ret.zero).exited = true
  unfold Process.goOn
  simp only [top, Process.cleanUpAndExit]
  rfl

theorem exits_walking (sound : process.Sound) {signal : Signal} {place : Collect}
    {below : List Handler} (held : place.grip ≠ .free)
    (top : (process.thread tid).handlers = { signal := signal, place := .collect place } :: below) :
    Exits process := by
  have collects : (process.thread tid).Collects place := by
    have shape := Thread.Collects.handler (process.thread tid).program signal place below
    rw [← top] at shape
    exact shape
  obtain ⟨events, goes, walked⟩ := endsFrom_held tid held process sound collects
  apply Exits.append goes
  apply exits_at_exit walked.sound signal below
  rw [walked.own, Thread.behind, top]
  rfl

theorem Process.Sound.handler_step (sound : process.Sound) {handler : Handler}
    {below : List Handler} (top : (process.thread tid).handlers = handler :: below)
    (running : (process.cleanUpAndExit tid handler.place).1.exited = false) :
    (process.goOn tid Ret.zero).Sound ∧
      (process.goOn tid Ret.zero).connectionsLock =
        (process.cleanUpAndExit tid handler.place).1.connectionsLock ∧
      ((process.goOn tid Ret.zero).thread tid).handlers =
        { handler with place := (process.cleanUpAndExit tid handler.place).2 } :: below := by
  have stepped : process.goOn tid Ret.zero =
      (process.cleanUpAndExit tid handler.place).1.put tid
        { process.thread tid with
          handlers :=
            { handler with place := (process.cleanUpAndExit tid handler.place).2 } :: below } := by
    unfold Process.goOn
    simp only [top]
  refine ⟨?_, ?_, ?_⟩
  · apply sound.goOn
    rw [stepped]
    exact running
  · rw [stepped]
    rfl
  · rw [stepped, Proceeds.thread_self]

theorem exits_locking (sound : process.Sound) (free : process.connectionsLock = none)
    {signal : Signal} {below : List Handler}
    (top : (process.thread tid).handlers = { signal := signal, place := .collect .lock } :: below) :
    Exits process := by
  have takes : process.cleanUpAndExit tid (.collect .lock) =
      ({ process with connectionsLock := some tid }, .collect (.visit process.connections)) := by
    simp [Process.cleanUpAndExit, Process.collectCompleteThreads, free]
  obtain ⟨after, _lock, next⟩ := sound.handler_step top (by rw [takes]; exact sound.running)
  apply Exits.head sound Ret.zero
  rw [takes] at next
  exact exits_walking after (fun impossible => Grip.noConfusion impossible) next

/-- A handler that finds the lock free ends the process. -/
theorem exits_of_handler (sound : process.Sound) (free : process.connectionsLock = none)
    (interrupted : (process.thread tid).handlers ≠ []) : Exits process := by
  obtain ⟨⟨signal, place⟩, below, top⟩ := List.exists_cons_of_ne_nil interrupted
  cases place with
  | enter =>
      obtain ⟨after, lock, next⟩ := sound.handler_step top sound.running
      apply Exits.head sound Ret.zero
      exact exits_locking after (lock.trans free) next
  | collect place =>
      by_cases held : place.grip = .free
      · cases place with
        | lock => exact exits_locking sound free top
        | _ => cases held
      · exact exits_walking sound held top
  | exit => exact exits_at_exit sound signal below top

end Walk

/-! ### Every run -/

theorem run_sound (useAesdCharDevice : Bool) (events : List ShutdownEvent)
    (undisturbed : Undisturbed (Process.start useAesdCharDevice) events)
    (running : ((Process.start useAesdCharDevice).run events).exited = false) :
    ((Process.start useAesdCharDevice).run events).Sound :=
  { inv := run_lockInv useAesdCharDevice events undisturbed
    returning := run_returning useAesdCharDevice events
    main := run_mainRuns useAesdCharDevice events
    running := running }

theorem Undisturbed.concat {process : Process} {events : List ShutdownEvent}
    (undisturbed : Undisturbed process events) {event : ShutdownEvent}
    (calm : ¬ (process.run events).Disturbs event) : Undisturbed process (events ++ [event]) := by
  unfold Undisturbed
  exact atEachStep_append.mpr ⟨undisturbed, calm⟩

theorem Undisturbed.goes {process : Process} {events more : List ShutdownEvent}
    (undisturbed : Undisturbed process events) (goes : Goes more) :
    Undisturbed process (events ++ more) := by
  induction more using List.reverseRecOn with
  | nil =>
      rw [List.append_nil]
      exact undisturbed
  | append_singleton more event ih =>
      rw [← List.append_assoc]
      apply (ih fun earlier member => goes earlier (List.mem_append_left _ member)).concat
      obtain ⟨tid, ret, same⟩ := goes event (List.mem_append_right _ List.mem_cons_self)
      rw [same]
      exact id

theorem exits_interrupted {process : Process} (sound : process.Sound) {tid : Nat}
    (interrupted : (process.thread tid).handlers ≠ []) : Exits process := by
  obtain ⟨events, goes, released⟩ := lock_released sound
  apply Exits.append goes
  exact exits_of_handler released.sound released.lock (released.handlers tid interrupted)

theorem Released.terminated {process final : Process} (released : Released process final) :
    ¬ final.Disturbs (.signal mainThread .sigterm) ∧
      Exits (final.step (.signal mainThread .sigterm)) := by
  obtain ⟨place, program⟩ := released.sound.main
  have calm : ¬ final.Disturbs (.signal mainThread .sigterm) := by
    rintro ⟨_delivers, held | complete⟩
    · rw [released.lock] at held
      cases held
    · rw [program] at complete
      cases complete
  refine ⟨calm, ?_⟩
  by_cases delivers : final.Delivers mainThread .sigterm
  · have inv := released.sound.inv.step calm
    simp only [Process.step, if_pos delivers] at inv ⊢
    have sound : (final.interrupt mainThread .sigterm).Sound :=
      { inv := inv
        returning := by
          have returning := released.sound.returning.step (.signal mainThread .sigterm)
          simpa only [Process.step, if_pos delivers] using returning
        main := by
          have main := released.sound.main.step (.signal mainThread .sigterm)
          simpa only [Process.step, if_pos delivers] using main
        running := released.sound.running }
    apply exits_of_handler sound released.lock
    rw [Process.interrupt, Proceeds.thread_self]
    exact List.cons_ne_nil _ _
  · -- SIGTERM is blocked: its handler runs already
    simp only [Process.step, if_neg delivers]
    apply exits_of_handler released.sound released.lock
    intro quiet
    apply delivers
    refine ⟨released.sound.running, ?_, ?_⟩
    · rw [program]
      rfl
    · rw [quiet]
      exact fun _handler member => absurd member List.not_mem_nil

/-- A handler that has started can be brought to the end of the process by steps
of the threads alone; wherever a run stands, it goes on to a point at which
SIGTERM on the main thread ends the process; and the process ends in `exit` with
the timer and in `pthread_cancel` without it. -/
theorem shutdown_completes (useAesdCharDevice : Bool) (events : List ShutdownEvent)
    (undisturbed : Undisturbed (Process.start useAesdCharDevice) events) :
    (∀ tid, (((Process.start useAesdCharDevice).run events).thread tid).handlers ≠ [] →
      Exits ((Process.start useAesdCharDevice).run events)) ∧
    (∃ before after, Goes before ∧ Goes after ∧
      Undisturbed (Process.start useAesdCharDevice)
        (events ++ before ++ [.signal mainThread .sigterm] ++ after) ∧
      ((Process.start useAesdCharDevice).run
        (events ++ before ++ [.signal mainThread .sigterm] ++ after)).exited = true) ∧
    ∀ more, ((Process.start useAesdCharDevice).run (events ++ more)).exited = true →
      ((Process.start useAesdCharDevice).run (events ++ more)).crashed = useAesdCharDevice := by
  refine and_assoc.mp ⟨?_, fun more => (run_timerKept useAesdCharDevice (events ++ more)).crashed⟩
  cases running : ((Process.start useAesdCharDevice).run events).exited with
  | true =>
      have kept : ¬ ((Process.start useAesdCharDevice).run events).Delivers mainThread .sigterm :=
        fun delivers => Bool.noConfusion (delivers.1.symm.trans running)
      refine ⟨fun _tid _interrupted => ⟨[], goes_nil, running⟩, [], [], goes_nil, goes_nil, ?_, ?_⟩
      · rw [List.append_nil, List.append_nil]
        exact undisturbed.concat fun disturbs => kept disturbs.1
      · rw [List.append_nil, List.append_nil, Process.run_append]
        simp only [Process.run, List.foldl_cons, List.foldl_nil] at kept running ⊢
        rw [Process.step, if_neg kept]
        exact running
  | false =>
      have sound := run_sound useAesdCharDevice events undisturbed running
      refine ⟨fun tid interrupted => exits_interrupted sound interrupted, ?_⟩
      obtain ⟨before, beforeGoes, released⟩ := lock_released sound
      rw [← Process.run_append] at released
      obtain ⟨calm, after, afterGoes, exited⟩ := released.terminated
      refine ⟨before, after, beforeGoes, afterGoes, ?_, ?_⟩
      · exact ((undisturbed.goes beforeGoes).concat calm).goes afterGoes
      · rw [Process.run_append, Process.run_append _ (events ++ before)]
        exact exited

/-- A connection is about to be joined by `main`, and its thread still runs. -/
def joiningMain : List ShutdownEvent :=
  insertingMain ++
    [ .go mainThread Ret.zero, .go mainThread Ret.zero, .go (connectionThread 0) Ret.zero,
      .go (connectionThread 0) Ret.zero, .go mainThread Ret.zero, .go mainThread Ret.zero ]

theorem shutdown_completes_joiningMain :
    Undisturbed (Process.start false) joiningMain ∧
      ((Process.start false).run joiningMain).connectionsLock = some mainThread ∧
      (((Process.start false).run joiningMain).thread mainThread).Joins 0 ∧
      ∃ before after, Goes before ∧ Goes after ∧
        Undisturbed (Process.start false)
          (joiningMain ++ before ++ [.signal mainThread .sigterm] ++ after) ∧
        ((Process.start false).run
          (joiningMain ++ before ++ [.signal mainThread .sigterm] ++ after)).exited = true ∧
        ((Process.start false).run
          (joiningMain ++ before ++ [.signal mainThread .sigterm] ++ after)).crashed = false := by
  have undisturbed : Undisturbed (Process.start false) joiningMain := by
    unfold Undisturbed
    decide
  obtain ⟨_handled, ⟨before, after, beforeGoes, afterGoes, calm, exited⟩, ends⟩ :=
    shutdown_completes false joiningMain undisturbed
  have finished := ends (before ++ [.signal mainThread .sigterm] ++ after)
  rw [← List.append_assoc, ← List.append_assoc] at finished
  exact ⟨undisturbed, by decide, Or.inl (by decide), before, after, beforeGoes, afterGoes, calm,
    exited, finished exited⟩

end Aesd.Server
