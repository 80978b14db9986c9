/-
The file of the server from one launch to the next.

`cleanUpAndExit` removes what stands at `file_path` if it can, and `open` with O_CREAT
makes a regular file where nothing stands. The files that have stood there are numbered by
the removals in front of them; the first is the device of the driver.
-/

import Aesd.Server.Service

namespace Aesd.Server

open Driver

/-! ### Removals -/

/-- What stands at the path after so many removals. -/
def generation : Nat → FileNode
  | 0 => .device
  | removed + 1 => .regular removed

theorem generation_injective {first second : Nat} (same : generation first = generation second) :
    first = second := by
  cases first with
  | zero =>
      cases second with
      | zero => rfl
      | succ second => cases same
  | succ first =>
      cases second with
      | zero => cases same
      | succ second => rw [FileNode.regular.inj same]

def ServerHost.removals : ServerHost → List ServiceEvent → Nat
  | _, [] => 0
  | host, event :: later =>
      (if host.shared.path ≠ none ∧ (host.step event).shared.path = none then 1 else 0) +
        ServerHost.removals (host.step event) later

theorem ServerHost.removals_append (host : ServerHost) (first second : List ServiceEvent) :
    host.removals (first ++ second) = host.removals first + (host.run first).removals second := by
  induction first generalizing host with
  | nil => exact (Nat.zero_add _).symm
  | cons event later ih =>
      rw [List.cons_append, ServerHost.removals, ServerHost.removals, ih (host.step event),
        Nat.add_assoc]
      rfl

/-- The file at the path is that of its generation, or is still to be made. -/
def PathLaw (removed : Nat) (shared : Shared) : Prop :=
  shared.path = some (generation removed) ∧ shared.inodes = removed ∨
    shared.path = none ∧ shared.inodes + 1 = removed

def Shared.next (shared : Shared) : FileNode := shared.path.getD (.regular shared.inodes)

theorem PathLaw.next {removed : Nat} {shared : Shared} (law : PathLaw removed shared) :
    shared.next = generation removed := by
  unfold Shared.next
  rcases law with ⟨path, _⟩ | ⟨path, inodes⟩
  · rw [path]
    rfl
  · rw [path, ← inodes]
    rfl

section Path

variable {shared : Shared} {inUse : Nat → Bool} {process : ServerProcess} {result : Acted}

/-- A step leaves the path alone, opens what is there, makes a file or removes one. -/
theorem ServerProcess.Acts.path (acts : ServerProcess.Acts shared inUse process result) :
    (result.shared.path = shared.path ∧ result.shared.inodes = shared.inodes) ∨
      (shared.path = none ∧ result.shared.path = some (.regular shared.inodes) ∧
        result.shared.inodes = shared.inodes + 1) ∨
      (result.shared.path = none ∧ result.shared.inodes = shared.inodes) := by
  cases acts with
  | keeps | makes | calls | forks => exact Or.inl ⟨rfl, rfl⟩
  | removes => exact Or.inr (Or.inr ⟨rfl, rfl⟩)
  | opens =>
      cases there : shared.path with
      | none =>
          right
          left
          refine ⟨rfl, ?_, ?_⟩
          · change some (shared.path.getD _) = _
            rw [there]
            rfl
          · exact if_pos there
      | some node =>
          left
          refine ⟨?_, ?_⟩
          · change some (shared.path.getD _) = _
            rw [there]
            rfl
          · apply if_neg
            rw [there]
            exact Option.some_ne_none node

theorem ServerProcess.Acts.opened (acts : ServerProcess.Acts shared inUse process result) :
    result.process.opened = process.opened ∨
      process.phase = .openFile ∧ result.process.opened = some shared.next ∧
        result.shared.path = some shared.next := by
  cases acts with
  | keeps keeps | removes keeps => exact Or.inl keeps.opened
  | makes | calls | forks => exact Or.inl rfl
  | opens phase => exact Or.inr ⟨phase, rfl, rfl⟩

theorem ServerProcess.Acts.removed (acts : ServerProcess.Acts shared inUse process result) :
    result.process.Removed ↔ process.Removed ∨ result.process.Removed ∧ result.shared.path = none := by
  cases acts with
  | keeps keeps => exact ⟨fun removed => Or.inl (keeps.removed.mp removed),
      fun either => either.elim keeps.removed.mpr And.left⟩
  | removes keeps removed =>
      exact iff_of_true removed (Or.inr ⟨removed, rfl⟩)
  | makes | calls | forks | opens => exact ⟨Or.inl, fun either => either.elim id And.left⟩

theorem ServerProcess.Acts.child (acts : ServerProcess.Acts shared inUse process result)
    (child : ServerProcess) (born : result.child = some child) :
    child.opened = process.opened ∧ child.calls = process.calls := by
  cases acts with
  | keeps | removes | makes | calls | opens => cases born
  | forks =>
      rw [← Option.some.inj born]
      exact ⟨rfl, rfl⟩

theorem PathLaw.act {removed : Nat} (law : PathLaw removed shared)
    (acts : ServerProcess.Acts shared inUse process result) :
    PathLaw (removed + if shared.path ≠ none ∧ result.shared.path = none then 1 else 0)
      result.shared := by
  rcases acts.path with ⟨path, inodes⟩ | ⟨gone, path, inodes⟩ | ⟨path, inodes⟩
  · rw [if_neg (fun both => both.1 (path.symm.trans both.2))]
    unfold PathLaw
    rw [path, inodes]
    exact law
  · rw [if_neg (fun both => both.1 gone)]
    rcases law with ⟨there, _⟩ | ⟨_, count⟩
    · rw [gone] at there
      cases there
    · left
      rw [Nat.add_zero, ← count, path, inodes]
      exact ⟨rfl, rfl⟩
  · right
    rcases law with ⟨there, count⟩ | ⟨gone, count⟩
    · have shown : shared.path ≠ none := by
        rw [there]
        exact Option.some_ne_none _
      rw [if_pos ⟨shown, path⟩, inodes, count]
      exact ⟨path, rfl⟩
    · rw [if_neg (fun both => both.1 gone), inodes]
      exact ⟨path, count⟩

end Path

theorem PathLaw.step {removed : Nat} {host : ServerHost} (law : PathLaw removed host.shared)
    (orderly : host.Orderly) (event : ServiceEvent) :
    PathLaw (removed + host.removals [event]) (host.step event).shared := by
  change PathLaw (removed + ((if host.shared.path ≠ none ∧
    (host.step event).shared.path = none then 1 else 0) + 0)) _
  rw [Nat.add_zero]
  have stays : PathLaw (removed + if host.shared.path ≠ none ∧ host.shared.path = none then 1 else 0)
      host.shared := by
    rw [if_neg (fun both => both.1 both.2)]
    exact law
  cases event with
  | launch posixlyCorrect args inherited => exact stays
  | act pid action =>
      cases found : host.processes[pid]? with
      | none =>
          rw [ServerHost.step_absent found]
          exact stays
      | some acting =>
          rw [ServerHost.step_act found]
          have wired := orderly.wired acting (List.mem_of_getElem? found)
          exact law.act (@ServerProcess.act_acts acting host.shared host.inUse wired action)

theorem pathLaw_run (events : List ServiceEvent) :
    PathLaw (ServerHost.booted.removals events) (ServerHost.booted.run events).shared := by
  induction events using List.reverseRecOn with
  | nil => exact Or.inl ⟨rfl, rfl⟩
  | append_singleton before event ih =>
      have next := ih.step (orderly_run before) event
      rw [← ServerHost.removals_append] at next
      rw [ServerHost.run, List.foldl_append]
      exact next

/-! ### Openings -/

def ServerHost.Opens (host : ServerHost) (event : ServiceEvent) (pid : Nat) (node : FileNode) :
    Prop :=
  ∃ before after : ServerProcess, host.processes[pid]? = some before ∧ before.opened = none ∧
    (host.step event).processes[pid]? = some after ∧ after.opened = some node

theorem ServerHost.Opens.node {host : ServerHost} (orderly : host.Orderly) {event : ServiceEvent}
    {pid : Nat} {node : FileNode} (opens : host.Opens event pid node) : node = host.shared.next := by
  obtain ⟨before, after, found, unopened, next, opened⟩ := opens
  have within := (List.getElem?_eq_some_iff.mp found).1
  have differ : host.processes[pid]? ≠ some after := by
    intro same
    rw [found] at same
    cases same
    rw [unopened] at opened
    cases opened
  cases event with
  | launch posixlyCorrect args inherited =>
      rcases getElem?_append_one next with old | ⟨atEnd, _⟩
      · exact absurd old differ
      · omega
  | act actor action =>
      cases there : host.processes[actor]? with
      | none =>
          rw [ServerHost.step_absent there] at next
          exact absurd next differ
      | some acting =>
          rw [ServerHost.step_act there] at next
          rcases acted_cases next with ⟨same, rfl⟩ | ⟨_, old⟩ | ⟨atEnd, _⟩
          · subst same
            rw [there] at found
            cases found
            have wired := orderly.wired before (List.mem_of_getElem? there)
            have acts := @ServerProcess.act_acts before host.shared host.inUse wired action
            rcases acts.opened with same | ⟨_, same, _⟩
            · rw [unopened, opened] at same
              cases same
            · rw [opened] at same
              exact Option.some.inj same
          · exact absurd old differ
          · omega

/-! ### The end of a process -/

namespace ServerProcess

def Tried (process : ServerProcess) : Prop :=
  ∃ call ∈ process.calls, call.removal = .done ∨ call.removal = .failed

/-- Descriptor 0 is not for `open`. -/
def Above (process : ServerProcess) : Prop :=
  process.inherited[0]? = some true ∨ process.logged = true

/-- What `cleanUpAndExit` finds; `file_fd` is -1 behind a removal. -/
def Ready (process : ServerProcess) : Prop :=
  process.opened ≠ none → process.Above →
    (process.fileFd ≤ 0 → process.Tried) ∧
    ∀ call ∈ process.calls, call.removal ≠ .ahead → process.Tried

def Equipped (process : ServerProcess) : Prop :=
  process.calls = [] ∧ (process.Above → 0 < process.fileFd)

/-- A process whose file is not at descriptor 0 calls `remove` before it exits. -/
def Removes (process : ServerProcess) : Prop :=
  match process.phase with
  | .parseArgs | .syslog | .openFile => process.opened = none ∧ process.calls = []
  | .ending => process.Ready
  | .exited _ | .crashed => process.opened ≠ none → process.Above → process.Tried
  | .left _ | .killed => True
  | _ => process.Equipped

section Removes

variable {process : ServerProcess} {shared : Shared} {inUse : Nat → Bool}

theorem Equipped.ready (equipped : process.Equipped) : process.Ready := by
  intro _ above
  refine ⟨?_, ?_⟩
  · intro zero
    have positive := equipped.2 above
    omega
  · intro call member
    rw [equipped.1] at member
    cases member

theorem ready_of_unopened (unopened : process.opened = none) : process.Ready :=
  fun opened => absurd unopened opened

theorem Removes.ready (removes : process.Removes) (running : process.ended = false) :
    process.Ready := by
  unfold Removes at removes
  cases phase : process.phase with
  | parseArgs | syslog | openFile =>
      rw [phase] at removes
      exact ready_of_unopened removes.1
  | ending =>
      rw [phase] at removes
      exact removes
  | exited | left | crashed | killed =>
      unfold ended at running
      rw [phase] at running
      cases running
  | _ =>
      rw [phase] at removes
      exact Equipped.ready removes

theorem cleanUpAndExit_eq (process : ServerProcess) (status : Status) :
    ∃ serverFd fds, process.cleanUpAndExit status =
      { process with
        serverFd := serverFd
        fds := fds
        calls := process.calls ++
          [{ status := status, removal := if 0 < process.fileFd then .ahead else .skipped }]
        phase := .ending } := by
  have closes : ∀ (other : ServerProcess) (fd : Int),
      ∃ fds, other.close fd = { other with fds := fds } := by
    intro other fd
    unfold close
    split
    · exact ⟨other.fds, rfl⟩
    · exact ⟨_, rfl⟩
  have first : ∃ serverFd fds, (if 0 < process.serverFd then
      { process.close process.serverFd with serverFd := -1 } else process) =
        { process with serverFd := serverFd, fds := fds } := by
    split
    · obtain ⟨fds, same⟩ := closes process process.serverFd
      rw [same]
      exact ⟨-1, fds, rfl⟩
    · exact ⟨process.serverFd, process.fds, rfl⟩
  obtain ⟨serverFd, fds, closed⟩ := first
  unfold cleanUpAndExit
  rw [closed]
  dsimp only
  split
  · obtain ⟨table, same⟩ := closes { process with serverFd := serverFd, fds := fds } process.fileFd
    rw [same]
    exact ⟨serverFd, table, rfl⟩
  · exact ⟨serverFd, fds, rfl⟩

theorem removes_cleanUpAndExit (ready : process.Ready) (status : Status) :
    (process.cleanUpAndExit status).Removes := by
  obtain ⟨serverFd, fds, same⟩ := cleanUpAndExit_eq process status
  rw [same]
  intro opened above
  obtain ⟨file, calls⟩ := ready opened above
  have kept : process.Tried → ∃ call ∈ process.calls ++
      [{ status := status, removal := if 0 < process.fileFd then .ahead else .skipped }],
      call.removal = .done ∨ call.removal = .failed := by
    rintro ⟨call, member, tried⟩
    exact ⟨call, List.mem_append_left _ member, tried⟩
  refine ⟨fun zero => kept (file zero), ?_⟩
  intro call member behind
  rcases List.mem_append.mp member with old | new
  · exact kept (calls call old behind)
  · rw [List.mem_singleton.mp new] at behind
    apply kept
    apply file
    by_contra positive
    exact behind (if_pos (not_le.mp positive))

theorem startTable_positive {inherited : List Bool} {logged : Bool}
    (above : inherited[0]? = some true ∨ logged = true) :
    0 < Slots.lowest (startTable inherited logged) := by
  rw [← Nat.succ_le_iff, Slots.le_lowest_iff, free_startTable]
  rcases above with isOpen | logs
  · cases inherited with
    | nil => cases isOpen
    | cons first later =>
        rw [Option.some.inj isOpen]
        simp
  · rw [logs]
    exact Nat.sub_eq_zero_of_le (Nat.sub_le 1 _)

def RemovesAll (result : Acted) : Prop :=
  result.process.Removes ∧ ∀ child ∈ result.child, child.Removes

theorem removes_alone {next : ServerProcess} (removes : next.Removes) :
    RemovesAll (alone shared next) := by
  refine ⟨removes, ?_⟩
  intro child member
  cases member

theorem removes_openFile (phase : process.phase = .openFile) (wired : process.Wired)
    (removes : process.Removes) (ok : Bool) : RemovesAll (process.openFile shared ok) := by
  unfold Removes at removes
  unfold Wired at wired
  rw [phase] at removes wired
  cases ok with
  | false =>
      apply removes_alone
      apply removes_cleanUpAndExit
      exact ready_of_unopened removes.1
  | true =>
      apply removes_alone
      refine ⟨removes.2, ?_⟩
      intro above
      change 0 < ((Slots.lowest process.fds : Nat) : Int)
      rw [wired.2.2.2]
      exact Int.natCast_pos.mpr (startTable_positive above)

theorem removes_onSocket (equipped : process.Equipped) {ok : Bool} {call : Nat → Option Shared}
    {next : Phase} (removes : Removes { process with phase := next }) :
    RemovesAll (process.onSocket shared ok call next) := by
  unfold onSocket
  split
  · exact removes_alone removes
  · exact removes_alone (removes_cleanUpAndExit equipped.ready .failure)

theorem removes_fork (equipped : process.Equipped) {ok : Bool} {next : Phase}
    (removes : Removes { process with phase := next }) :
    RemovesAll (process.fork shared ok next) := by
  cases ok with
  | false => exact removes_alone (removes_cleanUpAndExit equipped.ready .failure)
  | true =>
      refine ⟨equipped, ?_⟩
      intro child member
      rw [← Option.some.inj member]
      exact removes

theorem removes_accept (removes : process.Removes) (ok : Bool) :
    (process.accept shared ok).Removes := by
  unfold accept
  split
  · split
    · exact removes
    · exact removes
  · exact removes

theorem removes_main (wired : process.Wired) (removes : process.Removes) (ok : Bool)
    (ephemeral : UInt16) : RemovesAll (process.mainStep shared inUse ok ephemeral) := by
  have here := removes
  unfold Removes at here
  unfold mainStep
  cases phase : process.phase with
  | parseArgs =>
      rw [phase] at here
      apply removes_alone
      unfold parse
      split
      · exact here
      · trivial
  | syslog =>
      rw [phase] at here
      apply removes_alone
      unfold startLog
      obtain ⟨fds, logFd, same⟩ := syslog_eq process false ok
      rw [same]
      exact here
  | openFile => exact removes_openFile phase wired removes ok
  | socket =>
      rw [phase] at here
      have equipped : process.Equipped := here
      cases ok with
      | false =>
          apply removes_alone
          apply removes_cleanUpAndExit
          exact @Equipped.ready { process with mainServerFd := -1 } equipped
      | true => exact removes_alone equipped
  | setsockopt | bind =>
      rw [phase] at here
      exact removes_onSocket here here
  | listen =>
      rw [phase] at here
      apply removes_onSocket here
      cases process.options.daemonize with
      | false => exact here
      | true => exact here
  | fork | forkAgain =>
      rw [phase] at here
      exact removes_fork here here
  | leaving => exact removes_alone trivial
  | setsid =>
      rw [phase] at here
      apply removes_alone
      unfold setsid
      split
      · exact here
      · exact removes_cleanUpAndExit (Equipped.ready here) .failure
  | detach =>
      rw [phase] at here
      apply removes_alone
      rw [detach_eq, closelog_eq]
      exact here
  | sigint | sigterm =>
      rw [phase] at here
      exact removes_alone here
  | accepting => exact removes_alone (removes_accept removes ok)
  | ending =>
      apply removes_alone
      split
      · exact removes_accept removes ok
      · exact removes
  | exited | left | crashed | killed => exact removes_alone removes

theorem removes_hangup (removes : process.Removes) (fd : Nat) : (process.hangup fd).Removes := by
  rcases hangup_eq process fd with same | ⟨_, closed⟩
  · rw [same]
    exact removes
  · rw [closed]
    exact removes

theorem removes_log (removes : process.Removes) (sends connects : Bool) :
    (process.log sends connects).Removes := by
  unfold log
  split
  · obtain ⟨fds, logFd, same⟩ := syslog_eq process sends connects
    rw [same]
    exact removes
  · exact removes

theorem removes_receive (removes : process.Removes) (signal : Signal) :
    (process.receive signal).Removes := by
  unfold receive
  split
  · exact removes
  · next running =>
      split
      · exact removes_cleanUpAndExit (removes.ready (by simpa using running)) .success
      · trivial

theorem removes_exit (removes : process.Removes) (call : Nat) (cancels : Bool) :
    (process.exit call cancels).Removes := by
  unfold exit
  split
  · next status removal found =>
      split
      · next finished =>
          unfold Removes at removes
          rw [finished.2] at removes
          have tried := fun opened above =>
            (removes opened above).2 _ (List.mem_of_getElem? found) finished.1
          cases cancels with
          | false => exact tried
          | true => exact tried
      · exact removes
  · exact removes

theorem removes_remove (removes : process.Removes) (call : Nat) (ok : Bool) :
    RemovesAll (process.remove shared call ok) := by
  unfold remove
  split
  · next status found =>
      split
      · next ending =>
          apply removes_alone
          unfold Removes
          dsimp only
          rw [ending]
          intro _ _
          have tried : ∀ cleared : Bool, ∃ other ∈ process.calls.set call
              { status := status, removal := if cleared then .done else .failed },
              other.removal = .done ∨ other.removal = .failed := by
            intro cleared
            have within := (List.getElem?_eq_some_iff.mp found).1
            refine ⟨_, List.mem_iff_getElem?.mpr ⟨call, List.getElem?_set_self within⟩, ?_⟩
            cases cleared with
            | false => exact Or.inr rfl
            | true => exact Or.inl rfl
          exact ⟨fun _ => tried _, fun _ _ _ => tried _⟩
      · exact removes_alone removes
  · exact removes_alone removes

theorem threaded_running (threaded : process.threaded = true) : process.ended = false := by
  have present := threaded_present threaded
  unfold ended
  cases phase : process.phase with
  | exited | left | crashed | killed =>
      rw [phase] at present
      cases present
  | _ => rfl

theorem removes_act (wired : process.Wired) (removes : process.Removes) (action : Action) :
    RemovesAll (process.act shared inUse action) := by
  cases action with
  | main ok ephemeral => exact removes_main wired removes ok ephemeral
  | hangup fd => exact removes_alone (removes_hangup removes fd)
  | log sends connects => exact removes_alone (removes_log removes sends connects)
  | signal signal => exact removes_alone (removes_receive removes signal)
  | lockFails =>
      apply removes_alone
      split
      · next threaded =>
          exact removes_cleanUpAndExit (removes.ready (threaded_running threaded)) .failure
      · exact removes
  | leaveLoop =>
      apply removes_alone
      split
      · next leaves =>
          have threaded := (Bool.and_eq_true _ _ |>.mp leaves).1
          exact removes_cleanUpAndExit (removes.ready (threaded_running threaded)) .success
      · exact removes
  | remove call ok => exact removes_remove removes call ok
  | exit call cancels => exact removes_alone (removes_exit removes call cancels)

end Removes

end ServerProcess

theorem removes_run (events : List ServiceEvent) (process : ServerProcess)
    (present : process ∈ (ServerHost.booted.run events).processes) : process.Removes := by
  have both := @ServerHost.forall_run (fun process => process.Wired ∧ process.Removes)
    (fun launch posixlyCorrect args inherited =>
      ⟨ServerProcess.wired_launched launch posixlyCorrect args inherited, rfl, rfl⟩)
    (fun shared inUse process action kept => by
      have wired := ServerProcess.wired_act shared inUse process action kept.1
      have removes := @ServerProcess.removes_act process shared inUse kept.1 kept.2 action
      exact ⟨⟨wired.1, removes.1⟩,
        fun child born => ⟨wired.2 child born, removes.2 child born⟩⟩)
    events process present
  exact both.2

/-! ### Files that have been removed -/

def ServerProcess.Away (shared : Shared) (process : ServerProcess) : Prop :=
  ∀ node, process.opened = some node → shared.path ≠ some node

/-- The files that have been opened are not to be made again. -/
def ServerProcess.Old (shared : Shared) (process : ServerProcess) : Prop :=
  ∀ inode, process.opened = some (.regular inode) → inode < shared.inodes

section Away

variable {process : ServerProcess} {shared : Shared} {inUse : Nat → Bool} {result : Acted}

theorem ServerProcess.Away.act (away : process.Away shared) (old : process.Old shared)
    {acting : ServerProcess} (acts : ServerProcess.Acts shared inUse acting result) :
    process.Away result.shared := by
  intro node opened there
  rcases acts.path with ⟨path, _⟩ | ⟨_, path, _⟩ | ⟨path, _⟩
  · exact away node opened (path.symm.trans there)
  · rw [path] at there
    rw [← Option.some.inj there] at opened
    exact Nat.lt_irrefl _ (old _ opened)
  · rw [path] at there
    cases there

theorem ServerProcess.Old.act (old : process.Old shared) {acting : ServerProcess}
    (acts : ServerProcess.Acts shared inUse acting result) : process.Old result.shared := by
  intro inode opened
  have before := old inode opened
  rcases acts.path with ⟨_, inodes⟩ | ⟨_, _, inodes⟩ | ⟨_, inodes⟩
  all_goals omega

theorem ServerProcess.Removes.not_removed (removes : process.Removes)
    (phase : process.phase = .openFile) : ¬process.Removed := by
  unfold ServerProcess.Removes at removes
  rw [phase] at removes
  rintro ⟨call, member, _⟩
  rw [removes.2] at member
  cases member

theorem ServerProcess.Acts.opened_kept (acts : ServerProcess.Acts shared inUse process result)
    (removes : process.Removes) (removed : process.Removed) :
    result.process.opened = process.opened := by
  rcases acts.opened with same | ⟨phase, _⟩
  · exact same
  · exact absurd removed (removes.not_removed phase)

theorem ServerProcess.away_acting (removes : process.Removes) (old : process.Old shared)
    (away : process.Removed → process.Away shared)
    (acts : ServerProcess.Acts shared inUse process result) (removed : result.process.Removed) :
    result.process.Away result.shared := by
  rcases acts.removed.mp removed with before | ⟨_, path⟩
  · intro node opened
    rw [acts.opened_kept removes before] at opened
    exact (away before).act old acts node opened
  · intro node _ there
    rw [path] at there
    cases there

theorem PathLaw.known {removed : Nat} (law : PathLaw removed shared)
    {inode : Nat} (there : shared.path = some (.regular inode)) : inode < shared.inodes := by
  rcases law with ⟨path, inodes⟩ | ⟨path, _⟩
  · rw [path] at there
    cases removed with
    | zero => cases there
    | succ removed =>
        have same := FileNode.regular.inj (Option.some.inj there)
        omega
  · rw [path] at there
    cases there

end Away

def ServerHost.Cleared (host : ServerHost) : Prop :=
  ∀ process ∈ host.processes,
    (process.Removed → process.Away host.shared) ∧ process.Old host.shared

theorem ServerHost.Cleared.step {host : ServerHost} (cleared : host.Cleared)
    (orderly : host.Orderly) (removes : ∀ process ∈ host.processes, process.Removes)
    {removed : Nat} (law : PathLaw removed host.shared) (event : ServiceEvent) :
    (host.step event).Cleared := by
  cases event with
  | launch posixlyCorrect args inherited =>
      intro process member
      rcases List.mem_append.mp member with old | new
      · exact cleared process old
      · rw [List.mem_singleton.mp new]
        exact ⟨fun _ _ => nofun, nofun⟩
  | act pid action =>
      cases found : host.processes[pid]? with
      | none =>
          rw [ServerHost.step_absent found]
          exact cleared
      | some acting =>
          rw [ServerHost.step_act found]
          have present := List.mem_of_getElem? found
          have acts := @ServerProcess.act_acts acting host.shared host.inUse
            (orderly.wired acting present) action
          obtain ⟨away, known⟩ := cleared acting present
          intro process member
          rcases mem_acted member with old | rfl | born
          · obtain ⟨awayOld, knownOld⟩ := cleared process old
            exact ⟨fun removed => (awayOld removed).act knownOld acts, knownOld.act acts⟩
          · refine ⟨ServerProcess.away_acting (removes acting present) known away acts, ?_⟩
            intro inode opened
            rcases acts.opened with same | ⟨_, same, there⟩
            · exact known.act acts inode (same.symm.trans opened)
            · exact (law.act acts).known (there.trans (same.symm.trans opened))
          · obtain ⟨opened, calls⟩ := acts.child process born
            have kept : process.Away host.shared ↔ acting.Away host.shared := by
              unfold ServerProcess.Away
              rw [opened]
            have knownChild : process.Old host.shared := by
              unfold ServerProcess.Old
              rw [opened]
              exact known
            refine ⟨?_, knownChild.act acts⟩
            intro removed
            apply ServerProcess.Away.act _ knownChild acts
            apply kept.mpr
            apply away
            unfold ServerProcess.Removed
            rw [← calls]
            exact removed

theorem cleared_run (events : List ServiceEvent) : (ServerHost.booted.run events).Cleared := by
  induction events using List.reverseRecOn with
  | nil =>
      intro process member
      cases member
  | append_singleton before event ih =>
      have next := ih.step (orderly_run before) (removes_run before) (pathLaw_run before) event
      rw [ServerHost.run, List.foldl_append]
      exact next

theorem removed_step {host : ServerHost} (orderly : host.Orderly) {pid : Nat}
    {process : ServerProcess} (found : host.processes[pid]? = some process)
    (removes : process.Removes) (removed : process.Removed) (event : ServiceEvent) :
    ∃ next, (host.step event).processes[pid]? = some next ∧ next.Removed ∧
      next.opened = process.opened := by
  cases event with
  | launch posixlyCorrect args inherited =>
      exact ⟨process, getElem?_append_kept found _, removed, rfl⟩
  | act actor action =>
      cases there : host.processes[actor]? with
      | none =>
          rw [ServerHost.step_absent there]
          exact ⟨process, found, removed, rfl⟩
      | some acting =>
          rw [ServerHost.step_act there]
          by_cases same : pid = actor
          · subst same
            rw [there] at found
            cases found
            have acts := @ServerProcess.act_acts process host.shared host.inUse
              (orderly.wired process (List.mem_of_getElem? there)) action
            exact ⟨_, acted_self there, acts.removed.mpr (Or.inl removed),
              acts.opened_kept removes removed⟩
          · exact ⟨process, acted_other same found, removed, rfl⟩

theorem removed_run (events : List ServiceEvent) {pid : Nat} {process : ServerProcess}
    (found : (ServerHost.booted.run events).processes[pid]? = some process)
    (removed : process.Removed) (later : List ServiceEvent) :
    ∃ next, (ServerHost.booted.run (events ++ later)).processes[pid]? = some next ∧
      next.Removed ∧ next.opened = process.opened := by
  induction later using List.reverseRecOn with
  | nil =>
      rw [List.append_nil]
      exact ⟨process, found, removed, rfl⟩
  | append_singleton before event ih =>
      obtain ⟨next, there, still, opened⟩ := ih
      obtain ⟨last, atEnd, stays, same⟩ := removed_step (orderly_run (events ++ before)) there
        (removes_run _ next (List.mem_of_getElem? there)) still event
      rw [← List.append_assoc, ServerHost.run, List.foldl_append]
      exact ⟨last, atEnd, stays, same.trans opened⟩

theorem ServerHost.Cleared.not_opens {host : ServerHost} (cleared : host.Cleared)
    (orderly : host.Orderly) {pid : Nat} {process : ServerProcess} {node : FileNode}
    (found : host.processes[pid]? = some process) (removed : process.Removed)
    (opened : process.opened = some node) (event : ServiceEvent) (other : Nat) :
    ¬host.Opens event other node := by
  intro opens
  obtain ⟨clears, old⟩ := cleared process (List.mem_of_getElem? found)
  have away := clears removed node opened
  have same := opens.node orderly
  unfold Shared.next at same
  cases there : host.shared.path with
  | none =>
      rw [there] at same
      rw [same] at opened
      exact Nat.lt_irrefl _ (old _ opened)
  | some current =>
      rw [there] at same
      exact away (by rw [there, same]; rfl)

/-- The process has come to the end of `cleanUpAndExit`. -/
def ServerProcess.CleanedUp (process : ServerProcess) : Prop :=
  process.phase = .crashed ∨ ∃ status, process.phase = .exited status

/-- The file at the path is the device until the first removal and another file after
each; a removed file is not opened again, and `cleanUpAndExit` does not forget it. -/
theorem path_generations (events : List ServiceEvent) :
    let host := ServerHost.booted.run events
    (∀ event pid node, host.Opens event pid node →
        (node = .device ↔ ServerHost.booted.removals events = 0)) ∧
      (∀ event pid node later laterEvent laterPid laterNode, host.Opens event pid node →
        (host.run (event :: later)).Opens laterEvent laterPid laterNode →
        (laterNode = node ↔ host.removals (event :: later) = 0)) ∧
      (∀ (pid : Nat) (process : ServerProcess) (node : FileNode),
        host.processes[pid]? = some process → process.opened = some node → process.Removed →
        ∀ later event other, ¬(host.run later).Opens event other node) ∧
      ∀ process ∈ host.processes, process.CleanedUp → process.opened ≠ none →
        (process.inherited[0]? = some true ∨ process.logged = true) →
        ∃ call ∈ process.calls, call.removal = .done ∨ call.removal = .failed := by
  intro host
  have runs : ∀ later, host.run later = ServerHost.booted.run (events ++ later) := by
    intro later
    exact List.foldl_append.symm
  have opened : ∀ event pid node, host.Opens event pid node →
      node = generation (ServerHost.booted.removals events) := by
    intro event pid node opens
    rw [opens.node (orderly_run events)]
    exact (pathLaw_run events).next
  refine ⟨?_, ?_, ?_, ?_⟩
  · intro event pid node opens
    rw [opened event pid node opens]
    constructor
    · intro device
      exact generation_injective (device.trans (rfl : FileNode.device = generation 0))
    · intro none_removed
      rw [none_removed]
      rfl
  · intro event pid node later laterEvent laterPid laterNode opens laterOpens
    have law := (pathLaw_run (events ++ event :: later)).next
    rw [runs] at laterOpens
    rw [opened event pid node opens, laterOpens.node (orderly_run _), law,
      ServerHost.removals_append]
    constructor
    · intro same
      have count := generation_injective same
      change _ + host.removals (event :: later) = _ at count
      omega
    · intro none_removed
      change generation (_ + host.removals (event :: later)) = _
      rw [none_removed]
      rfl
  · intro pid process node found has removed later event other
    obtain ⟨last, there, still, same⟩ := removed_run events found removed later
    rw [runs]
    exact (cleared_run (events ++ later)).not_opens (orderly_run (events ++ later)) there still
      (same.trans has) event other
  · intro process present cleanedUp has above
    have removes := removes_run events process present
    unfold ServerProcess.Removes at removes
    rcases cleanedUp with crashed | ⟨status, exited⟩
    · rw [crashed] at removes
      exact removes has above
    · rw [exited] at removes
      exact removes has above

/-- The second of two launches has failed, and has ended. -/
def failedLaunch : List ServiceEvent :=
  twoLaunches ++ [.act 1 (.remove 0 true), .act 1 (.exit 0 false)]

def failedServer : ServerProcess :=
  { launch := 1
    posixlyCorrect := false
    args := [[45, 112, 57, 48, 48, 48]]
    inherited := [true, true, true]
    options := { port := 9000, daemonize := false }
    serverFd := 0
    fileFd := -1
    mainServerFd := 5
    fds := []
    logged := true
    logFd := some 3
    opened := some .device
    sigintCaught := false
    sigtermCaught := false
    calls := [{ status := .failure, removal := .done }]
    phase := .crashed }

/-- The first server goes on with a device that no later server will open. -/
theorem path_generations_failedLaunch :
    firstServer ∈ (ServerHost.booted.run failedLaunch).processes ∧
      firstServer.opened = some .device ∧
      ∀ later event pid,
        ¬((ServerHost.booted.run failedLaunch).run later).Opens event pid .device := by
  have first : firstServer ∈ (ServerHost.booted.run failedLaunch).processes := by
    decide +kernel
  have second : (ServerHost.booted.run failedLaunch).processes[1]? = some failedServer := by
    decide +kernel
  refine ⟨first, rfl, ?_⟩
  exact (path_generations failedLaunch).2.2.1 1 failedServer .device second rfl
    ⟨_, List.mem_singleton_self _, rfl⟩

end Aesd.Server
