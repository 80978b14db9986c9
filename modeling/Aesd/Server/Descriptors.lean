/-
The descriptors of a server process.

`main` gets its descriptors for the file and for the socket at the lowest free
numbers, and `deamonize` closes 0, 1 and 2 afterwards, whatever they refer to. The
tables are followed from the launch to the loop.
-/

import Aesd.Server.Launch

namespace Aesd.Server

open Driver

/-! ### What every process keeps -/

/-- A property of all processes is one of every launched process that no step takes
away, from the process itself or from a child. -/
theorem ServerHost.forall_step {Keeps : ServerProcess → Prop}
    (launched : ∀ launch posixlyCorrect args inherited,
      Keeps (ServerProcess.launched launch posixlyCorrect args inherited))
    (acts : ∀ shared inUse process action, Keeps process →
      Keeps (process.act shared inUse action).process ∧
        ∀ child ∈ (process.act shared inUse action).child, Keeps child)
    {host : ServerHost} (all : ∀ process ∈ host.processes, Keeps process) (event : ServiceEvent) :
    ∀ process ∈ (host.step event).processes, Keeps process := by
  cases event with
  | launch posixlyCorrect args inherited =>
      intro process member
      rcases List.mem_append.mp member with old | new
      · exact all process old
      · rw [List.mem_singleton.mp new]
        exact launched _ posixlyCorrect args inherited
  | act pid action =>
      cases found : host.processes[pid]? with
      | none =>
          rw [ServerHost.step_absent found]
          exact all
      | some acting =>
          rw [ServerHost.step_act found]
          have kept := acts host.shared host.inUse acting action
            (all acting (List.mem_of_getElem? found))
          intro process member
          rcases List.mem_append.mp member with old | new
          · rcases List.mem_or_eq_of_mem_set old with other | same
            · exact all process other
            · rw [same]
              exact kept.1
          · exact kept.2 process (Option.mem_toList.mp new)

theorem ServerHost.forall_run {Keeps : ServerProcess → Prop}
    (launched : ∀ launch posixlyCorrect args inherited,
      Keeps (ServerProcess.launched launch posixlyCorrect args inherited))
    (acts : ∀ shared inUse process action, Keeps process →
      Keeps (process.act shared inUse action).process ∧
        ∀ child ∈ (process.act shared inUse action).child, Keeps child)
    (events : List ServiceEvent) :
    ∀ process ∈ (ServerHost.booted.run events).processes, Keeps process := by
  induction events using List.reverseRecOn with
  | nil =>
      intro process member
      cases member
  | append_singleton before event ih =>
      rw [ServerHost.run, List.foldl_append]
      exact ServerHost.forall_step launched acts ih event

/-- What comes and goes in the loop. -/
def Target.passing : Target → Bool
  | .connection | .log => true
  | _ => false

namespace ServerProcess

/-! ### Tables of descriptors -/

/-- The table in front of `open`. -/
def startTable (inherited : List Bool) (logged : Bool) : List (Option Target) :=
  if logged then Slots.put (launchFds inherited) .log else launchFds inherited

def fileTable (inherited : List Bool) (logged : Bool) (node : FileNode) : List (Option Target) :=
  Slots.put (startTable inherited logged) (.file node)

def socketTable (inherited : List Bool) (logged : Bool) (node : FileNode) (id : Nat) :
    List (Option Target) :=
  Slots.put (fileTable inherited logged node) (.socket id)

/-- What `main` has opened at a number stays there, unless `deamonize` has closed it;
then only what comes and goes is found there. -/
def Lasts (daemonize : Bool) (fds : List (Option Target)) (fd : Nat) (entry : Target) : Prop :=
  if daemonize = true ∧ fd ≤ 2 then ∀ other, Slots.look fds fd = some other → other.passing = true
  else Slots.look fds fd = some entry

section Lasts

variable {daemonize : Bool} {fds : List (Option Target)} {fd : Nat} {entry : Target}

theorem Lasts.put (lasts : Lasts daemonize fds fd entry) {new : Target}
    (passing : new.passing = true) : Lasts daemonize (Slots.put fds new) fd entry := by
  unfold Lasts at lasts ⊢
  split
  · next closed =>
      rw [if_pos closed] at lasts
      intro other found
      by_cases lowest : fd = Slots.lowest fds
      · rw [lowest, Slots.look_put_lowest] at found
        rw [← Option.some.inj found]
        exact passing
      · rw [Slots.look_put_other fds new lowest] at found
        exact lasts other found
  · next kept =>
      rw [if_neg kept] at lasts
      have taken : fd ≠ Slots.lowest fds := by
        intro lowest
        rw [lowest, Slots.look_lowest] at lasts
        cases lasts
      rw [Slots.look_put_other fds new taken]
      exact lasts

theorem Lasts.vacate (lasts : Lasts daemonize fds fd entry) (stays : entry.passing = false)
    {gone : Nat} {old : Target} (found : Slots.look fds gone = some old)
    (passing : old.passing = true) : Lasts daemonize (Slots.vacate fds gone) fd entry := by
  unfold Lasts at lasts ⊢
  split
  · next closed =>
      rw [if_pos closed] at lasts
      intro other here
      by_cases same : fd = gone
      · rw [same, Slots.look_vacate_same] at here
        cases here
      · rw [Slots.look_vacate_other fds same] at here
        exact lasts other here
  · next kept =>
      rw [if_neg kept] at lasts
      have differ : fd ≠ gone := by
        intro same
        rw [same, found] at lasts
        rw [Option.some.inj lasts, stays] at passing
        cases passing
      rw [Slots.look_vacate_other fds differ]
      exact lasts

theorem Lasts.look_iff (lasts : Lasts daemonize fds fd entry) (stays : entry.passing = false) :
    Slots.look fds fd = some entry ↔ daemonize = false ∨ 2 < fd := by
  unfold Lasts at lasts
  by_cases closed : daemonize = true ∧ fd ≤ 2
  · rw [if_pos closed] at lasts
    apply iff_of_false
    · intro kept
      rw [lasts entry kept] at stays
      cases stays
    · rintro (foreground | high)
      · rw [closed.1] at foreground
        cases foreground
      · omega
  · rw [if_neg closed] at lasts
    apply iff_of_true lasts
    by_contra low
    obtain ⟨daemon, high⟩ := not_or.mp low
    exact closed ⟨by simpa using daemon, by omega⟩

theorem Lasts.cases (lasts : Lasts daemonize fds fd entry) :
    Slots.look fds fd = some entry ∨ Slots.look fds fd = some .connection ∨
      Slots.look fds fd = some .log ∨ Slots.look fds fd = none := by
  unfold Lasts at lasts
  split at lasts
  · right
    cases there : Slots.look fds fd with
    | none => exact Or.inr (Or.inr rfl)
    | some other =>
        have passing := lasts other there
        cases other with
        | connection => exact Or.inl rfl
        | log => exact Or.inr (Or.inl rfl)
        | inherited | file node | socket id => cases passing
  · exact Or.inl lasts

end Lasts

/-! ### The table of every phase -/

def Parsed (process : ServerProcess) : Prop :=
  parseArgs process.posixlyCorrect process.args = .options process.options

def LogOpen (process : ServerProcess) : Prop :=
  ∀ fd, process.logFd = some fd → Slots.look process.fds fd = some .log

def Numbered (process : ServerProcess) (node : FileNode) : Prop :=
  process.Parsed ∧ process.opened = some node ∧
    process.fileFd = Slots.lowest (startTable process.inherited process.logged) ∧
    process.mainServerFd = Slots.lowest (fileTable process.inherited process.logged node)

def Uncaught (process : ServerProcess) : Prop :=
  process.sigintCaught = false ∧ process.sigtermCaught = false

def Filled (process : ServerProcess) : Prop :=
  process.Uncaught ∧ process.LogOpen ∧
    ∃ node id, process.Numbered node ∧
      process.fds = socketTable process.inherited process.logged node id

def Looping (process : ServerProcess) : Prop :=
  process.LogOpen ∧ ∃ node id, process.Numbered node ∧
    Lasts process.options.daemonize process.fds
      (Slots.lowest (startTable process.inherited process.logged)) (.file node) ∧
    Lasts process.options.daemonize process.fds
      (Slots.lowest (fileTable process.inherited process.logged node)) (.socket id)

def Wired (process : ServerProcess) : Prop :=
  match process.phase with
  | .parseArgs =>
      process.Uncaught ∧ process.fds = launchFds process.inherited ∧ process.logFd = none
  | .syslog =>
      process.Uncaught ∧ process.Parsed ∧ process.fds = launchFds process.inherited ∧
        process.logFd = none
  | .openFile =>
      process.Uncaught ∧ process.LogOpen ∧ process.Parsed ∧
        process.fds = startTable process.inherited process.logged
  | .socket =>
      process.Uncaught ∧ process.LogOpen ∧ process.Parsed ∧
        process.fileFd = Slots.lowest (startTable process.inherited process.logged) ∧
        ∃ node, process.opened = some node ∧
          process.fds = fileTable process.inherited process.logged node
  | .leaving => process.Uncaught
  | .setsockopt | .bind | .listen => process.Filled
  | .fork | .setsid | .forkAgain | .detach => process.Filled ∧ process.options.daemonize = true
  | .sigint | .sigterm | .accepting => process.Looping
  | _ => True

section Wired

variable {process : ServerProcess} {shared : Shared} {inUse : Nat → Bool}

theorem cleanUpAndExit_phase (process : ServerProcess) (status : Status) :
    (process.cleanUpAndExit status).phase = .ending := by
  unfold cleanUpAndExit
  generalize (if 0 < process.serverFd then { process.close process.serverFd with serverFd := -1 }
    else process) = closed
  dsimp only
  split
  · rfl
  · rfl

theorem wired_cleanUpAndExit (process : ServerProcess) (status : Status) :
    (process.cleanUpAndExit status).Wired := by
  unfold Wired
  rw [cleanUpAndExit_phase]
  trivial

theorem wired_launched (launch : Nat) (posixlyCorrect : Bool) (args : List Bytes)
    (inherited : List Bool) : (launched launch posixlyCorrect args inherited).Wired :=
  ⟨⟨rfl, rfl⟩, rfl, rfl⟩

theorem wired_alone {next : ServerProcess} (wired : next.Wired) :
    (alone shared next).process.Wired ∧ ∀ child ∈ (alone shared next).child, child.Wired := by
  refine ⟨wired, ?_⟩
  intro child member
  cases member

theorem wired_parse (phase : process.phase = .parseArgs) (wired : process.Wired) :
    process.parse.Wired := by
  have ⟨uncaught, table, unlogged⟩ : process.Uncaught ∧
      process.fds = launchFds process.inherited ∧ process.logFd = none := by
    simpa only [Wired, phase] using wired
  unfold parse
  split
  · next options parsed => exact ⟨uncaught, parsed, table, unlogged⟩
  · trivial

theorem wired_startLog (phase : process.phase = .syslog) (wired : process.Wired)
    (connects : Bool) : (process.startLog connects).Wired := by
  have ⟨uncaught, parsed, table, unlogged⟩ : process.Uncaught ∧ process.Parsed ∧
      process.fds = launchFds process.inherited ∧ process.logFd = none := by
    simpa only [Wired, phase] using wired
  unfold startLog syslog closelog
  rw [Bool.and_false, if_neg Bool.false_ne_true, unlogged]
  cases connects with
  | false =>
      refine ⟨uncaught, ?_, parsed, table⟩
      intro fd impossible
      cases unlogged.symm.trans impossible
  | true =>
      refine ⟨uncaught, ?_, parsed, ?_⟩
      · intro fd same
        rw [← Option.some.inj same]
        exact Slots.look_put_lowest process.fds .log
      · change Slots.put process.fds .log = _
        rw [table]
        rfl

theorem LogOpen.put (logOpen : process.LogOpen) {next : ServerProcess} {entry : Target}
    (fds : next.fds = Slots.put process.fds entry) (logFd : next.logFd = process.logFd) :
    next.LogOpen := by
  intro fd here
  rw [logFd] at here
  have found := logOpen fd here
  have taken : fd ≠ Slots.lowest process.fds := by
    intro lowest
    rw [lowest, Slots.look_lowest] at found
    cases found
  rw [fds, Slots.look_put_other process.fds entry taken]
  exact found

theorem wired_openFile (phase : process.phase = .openFile) (wired : process.Wired) (ok : Bool) :
    (process.openFile shared ok).process.Wired ∧
      ∀ child ∈ (process.openFile shared ok).child, child.Wired := by
  have ⟨uncaught, logOpen, parsed, table⟩ : process.Uncaught ∧ process.LogOpen ∧
      process.Parsed ∧ process.fds = startTable process.inherited process.logged := by
    simpa only [Wired, phase] using wired
  cases ok with
  | false => exact wired_alone (wired_cleanUpAndExit _ _)
  | true =>
      apply wired_alone
      refine ⟨uncaught, logOpen.put rfl rfl, parsed, ?_, _, rfl, ?_⟩
      · change ((Slots.lowest process.fds : Nat) : Int) = _
        rw [table]
      · change Slots.put process.fds _ = _
        rw [table]
        rfl

theorem wired_socket (phase : process.phase = .socket) (wired : process.Wired) (ok : Bool) :
    (process.socket shared ok).process.Wired ∧
      ∀ child ∈ (process.socket shared ok).child, child.Wired := by
  have ⟨uncaught, logOpen, parsed, fileFd, node, opened, table⟩ : process.Uncaught ∧
      process.LogOpen ∧ process.Parsed ∧
      process.fileFd = Slots.lowest (startTable process.inherited process.logged) ∧
      ∃ node, process.opened = some node ∧
        process.fds = fileTable process.inherited process.logged node := by
    simpa only [Wired, phase] using wired
  cases ok with
  | false => exact wired_alone (wired_cleanUpAndExit _ _)
  | true =>
      apply wired_alone
      refine ⟨uncaught, logOpen.put rfl rfl, node, shared.sockets.length,
        ⟨parsed, opened, fileFd, ?_⟩, ?_⟩
      · change ((Slots.lowest process.fds : Nat) : Int) = _
        rw [table]
      · change Slots.put process.fds _ = _
        rw [table]
        rfl

theorem wired_onSocket {ok : Bool} {call : Nat → Option Shared} {next : Phase}
    (wired : Wired { process with phase := next }) :
    (process.onSocket shared ok call next).process.Wired ∧
      ∀ child ∈ (process.onSocket shared ok call next).child, child.Wired := by
  unfold onSocket
  split
  · exact wired_alone wired
  · exact wired_alone (wired_cleanUpAndExit process _)

theorem wired_fork {ok : Bool} {next : Phase} (uncaught : process.Uncaught)
    (wired : Wired { process with phase := next }) :
    (process.fork shared ok next).process.Wired ∧
      ∀ child ∈ (process.fork shared ok next).child, child.Wired := by
  cases ok with
  | false => exact wired_alone (wired_cleanUpAndExit process _)
  | true =>
      refine ⟨uncaught, ?_⟩
      intro child member
      rw [← Option.some.inj member]
      exact wired

theorem look_file (inherited : List Bool) (logged : Bool) (node : FileNode) (id : Nat) :
    Slots.look (socketTable inherited logged node id)
      (Slots.lowest (startTable inherited logged)) = some (.file node) := by
  have before : Slots.lowest (startTable inherited logged) <
      Slots.lowest (fileTable inherited logged node) :=
    Slots.lowest_lt_lowest_put (startTable inherited logged) (.file node)
  unfold socketTable
  rw [Slots.look_put_other _ _ (by omega)]
  exact Slots.look_put_lowest (startTable inherited logged) (.file node)

theorem look_socket (inherited : List Bool) (logged : Bool) (node : FileNode) (id : Nat) :
    Slots.look (socketTable inherited logged node id)
      (Slots.lowest (fileTable inherited logged node)) = some (.socket id) :=
  Slots.look_put_lowest (fileTable inherited logged node) (.socket id)

theorem Filled.looping (filled : process.Filled) (foreground : process.options.daemonize = false) :
    process.Looping := by
  obtain ⟨_, logOpen, node, id, numbered, table⟩ := filled
  have kept : ∀ fd : Nat, ¬(process.options.daemonize = true ∧ fd ≤ 2) := by
    rintro fd ⟨daemon, _⟩
    rw [foreground] at daemon
    cases daemon
  refine ⟨logOpen, node, id, numbered, ?_, ?_⟩
  · rw [Lasts, if_neg (kept _), table]
    exact look_file process.inherited process.logged node id
  · rw [Lasts, if_neg (kept _), table]
    exact look_socket process.inherited process.logged node id

theorem close_nat (process : ServerProcess) (fd : Nat) :
    process.close fd = { process with fds := Slots.vacate process.fds fd } := by
  unfold close
  rw [if_neg (by omega)]
  rfl

theorem closelog_eq (process : ServerProcess) :
    process.closelog = { process with fds := process.closelog.fds, logFd := none } := by
  unfold closelog
  split
  · rfl
  · next unlogged => rw [← unlogged]

theorem look_closelog (process : ServerProcess) (fd : Nat) :
    Slots.look process.closelog.fds fd =
      if process.logFd = some fd then none else Slots.look process.fds fd := by
  unfold closelog
  split
  · next logFd found =>
      rw [found]
      by_cases same : fd = logFd
      · rw [same, if_pos rfl]
        exact Slots.look_vacate_same process.fds logFd
      · rw [if_neg (fun equal => same (Option.some.inj equal).symm)]
        exact Slots.look_vacate_other process.fds same
  · next unlogged =>
      rw [unlogged]
      exact (if_neg nofun).symm

def standardClosed (table : List (Option Target)) : List (Option Target) :=
  Slots.vacate (Slots.vacate (Slots.vacate table 0) 1) 2

theorem detach_eq (process : ServerProcess) :
    process.detach =
      { closelog { process with fds := standardClosed process.fds } with phase := .sigint } := by
  unfold detach
  have zero := close_nat process 0
  have one := close_nat (process.close 0) 1
  have two := close_nat ((process.close 0).close 1) 2
  simp only [Nat.cast_zero, Nat.cast_one, Nat.cast_ofNat] at zero one two
  rw [two, one, zero]
  rfl

theorem look_standardClosed (table : List (Option Target)) (fd : Nat) :
    Slots.look (standardClosed table) fd = if fd ≤ 2 then none else Slots.look table fd := by
  unfold standardClosed
  by_cases two : fd = 2
  · rw [two, Slots.look_vacate_same, if_pos (Nat.le_refl 2)]
  · rw [Slots.look_vacate_other _ two]
    by_cases one : fd = 1
    · rw [one, Slots.look_vacate_same, if_pos (by decide)]
    · rw [Slots.look_vacate_other _ one]
      by_cases zero : fd = 0
      · rw [zero, Slots.look_vacate_same, if_pos (by decide)]
      · rw [Slots.look_vacate_other _ zero, if_neg (by omega)]

/-- `closelog` at the end of `deamonize` closes nothing that `main` has opened. -/
theorem lasts_detach (logOpen : process.LogOpen) {fd : Nat} {entry : Target}
    (opened : Slots.look process.fds fd = some entry) (stays : entry.passing = false) :
    Lasts true process.detach.fds fd entry := by
  have apart : process.logFd ≠ some fd := by
    intro same
    rw [logOpen fd same] at opened
    rw [← Option.some.inj opened] at stays
    cases stays
  have found : Slots.look process.detach.fds fd = if fd ≤ 2 then none else some entry := by
    rw [detach_eq]
    change Slots.look (closelog { process with fds := standardClosed process.fds }).fds fd = _
    rw [look_closelog, if_neg apart, look_standardClosed, opened]
  unfold Lasts
  rw [found]
  split
  · next closed =>
      rw [if_pos closed.2]
      exact nofun
  · next kept => rw [if_neg (fun low => kept ⟨rfl, low⟩)]

theorem wired_detach (filled : process.Filled) (daemonize : process.options.daemonize = true) :
    process.detach.Wired := by
  obtain ⟨_, logOpen, node, id, numbered, table⟩ := filled
  have file := lasts_detach logOpen (table ▸ look_file process.inherited process.logged node id) rfl
  have socket :=
    lasts_detach logOpen (table ▸ look_socket process.inherited process.logged node id) rfl
  rw [detach_eq, closelog_eq] at file socket ⊢
  refine ⟨nofun, node, id, numbered, ?_, ?_⟩
  · rw [daemonize]
    exact file
  · rw [daemonize]
    exact socket

/-! ### Connections -/

theorem mem_launchFds {inherited : List Bool} {entry : Target}
    (member : some entry ∈ launchFds inherited) : entry = .inherited := by
  obtain ⟨isOpen, _, same⟩ := List.mem_map.mp member
  cases isOpen with
  | false => cases same
  | true => exact (Option.some.inj same).symm

theorem mem_startTable {inherited : List Bool} {logged : Bool} {entry : Target}
    (member : some entry ∈ startTable inherited logged) : entry = .inherited ∨ entry = .log := by
  cases logged with
  | false => exact Or.inl (mem_launchFds member)
  | true =>
      rcases Slots.mem_put member with same | old
      · exact Or.inr same
      · exact Or.inl (mem_launchFds old)

theorem connection_not_mem_startTable (inherited : List Bool) (logged : Bool) :
    some Target.connection ∉ startTable inherited logged := by
  intro connection
  rcases mem_startTable connection with impossible | impossible
  · cases impossible
  · cases impossible

theorem connection_not_mem_fileTable (inherited : List Bool) (logged : Bool) (node : FileNode) :
    some Target.connection ∉ fileTable inherited logged node := by
  intro connection
  rcases Slots.mem_put connection with impossible | member
  · cases impossible
  · exact connection_not_mem_startTable inherited logged member

theorem connection_not_mem_socketTable (inherited : List Bool) (logged : Bool) (node : FileNode)
    (id : Nat) : some Target.connection ∉ socketTable inherited logged node id := by
  intro connection
  rcases Slots.mem_put connection with impossible | member
  · cases impossible
  · exact connection_not_mem_fileTable inherited logged node member

theorem accept_phase (process : ServerProcess) (shared : Shared) (ok : Bool) :
    (process.accept shared ok).phase = process.phase := by
  unfold ServerProcess.accept
  split
  · split
    · rfl
    · rfl
  · rfl

theorem Looping.accept (looping : process.Looping) (ok : Bool) :
    (process.accept shared ok).Looping := by
  unfold ServerProcess.accept
  split
  · split
    · obtain ⟨logOpen, node, id, numbered, file, socket⟩ := looping
      exact ⟨logOpen.put rfl rfl, node, id, numbered, file.put rfl, socket.put rfl⟩
    · exact looping
  · exact looping

theorem hangup_eq (process : ServerProcess) (fd : Nat) :
    process.hangup fd = process ∨
      (Slots.look process.fds fd = some .connection ∧
        process.hangup fd = { process with fds := Slots.vacate process.fds fd }) := by
  unfold hangup
  split
  · next connection =>
      right
      unfold target at connection
      rw [if_neg (by omega)] at connection
      exact ⟨connection, close_nat process fd⟩
  · exact Or.inl rfl

theorem Looping.hangup (looping : process.Looping) (fd : Nat) :
    (process.hangup fd).Looping := by
  rcases hangup_eq process fd with same | ⟨connection, closed⟩
  · rw [same]
    exact looping
  · rw [closed]
    obtain ⟨logOpen, node, id, numbered, file, socket⟩ := looping
    refine ⟨?_, node, id, numbered, file.vacate rfl connection rfl,
      socket.vacate rfl connection rfl⟩
    intro logFd here
    have found := logOpen logFd here
    have differ : logFd ≠ fd := by
      intro same
      rw [same, connection] at found
      cases found
    exact (Slots.look_vacate_other process.fds differ).trans found

/-! ### The log -/

theorem Looping.closelog (looping : process.Looping) : process.closelog.Looping := by
  unfold ServerProcess.closelog
  split
  · next logFd here =>
      obtain ⟨logOpen, node, id, numbered, file, socket⟩ := looping
      have found := logOpen logFd here
      exact ⟨nofun, node, id, numbered, file.vacate rfl found rfl, socket.vacate rfl found rfl⟩
  · exact looping

theorem Looping.syslog (looping : process.Looping) (sends connects : Bool) :
    (process.syslog sends connects).Looping := by
  unfold ServerProcess.syslog
  dsimp only
  split
  · exact looping
  · split
    · obtain ⟨_, node, id, numbered, file, socket⟩ := looping.closelog
      refine ⟨?_, node, id, numbered, file.put rfl, socket.put rfl⟩
      intro logFd here
      rw [← Option.some.inj here]
      exact Slots.look_put_lowest process.closelog.fds .log
    · exact looping.closelog

theorem syslog_eq (process : ServerProcess) (sends connects : Bool) :
    ∃ fds logFd, process.syslog sends connects = { process with fds := fds, logFd := logFd } := by
  unfold ServerProcess.syslog
  dsimp only
  split
  · exact ⟨process.fds, process.logFd, rfl⟩
  · rw [closelog_eq]
    split
    · exact ⟨_, _, rfl⟩
    · exact ⟨_, _, rfl⟩

theorem Wired.log (wired : process.Wired) (sends connects : Bool) :
    (process.log sends connects).Wired := by
  unfold ServerProcess.log
  split
  · next logs =>
      obtain ⟨fds, logFd, same⟩ := syslog_eq process sends connects
      have phase : (process.syslog sends connects).phase = process.phase := by rw [same]
      unfold Wired at wired ⊢
      rw [phase]
      rcases logs with accepting | ending
      · rw [accepting] at wired ⊢
        exact Looping.syslog wired sends connects
      · rw [ending]
        trivial
  · exact wired

/-! ### Ends of connections -/

theorem hangup_of_clear (clear : some Target.connection ∉ process.fds) (fd : Nat) :
    process.hangup fd = process := by
  rcases hangup_eq process fd with kept | ⟨connection, _⟩
  · exact kept
  · exact absurd (Slots.mem_of_look connection) clear

theorem Filled.clear (filled : process.Filled) : some Target.connection ∉ process.fds := by
  obtain ⟨_, _, node, id, _, table⟩ := filled
  rw [table]
  exact connection_not_mem_socketTable process.inherited process.logged node id

theorem hangup_phase (process : ServerProcess) (fd : Nat) :
    (process.hangup fd).phase = process.phase := by
  rcases hangup_eq process fd with same | ⟨_, closed⟩
  · rw [same]
  · rw [closed]

theorem Wired.hangup (wired : process.Wired) (fd : Nat) : (process.hangup fd).Wired := by
  have table := wired
  unfold Wired at table
  cases phase : process.phase with
  | parseArgs =>
      rw [phase] at table
      rw [hangup_of_clear (table.2.1 ▸ connection_not_mem_startTable process.inherited false)]
      exact wired
  | syslog =>
      rw [phase] at table
      rw [hangup_of_clear (table.2.2.1 ▸ connection_not_mem_startTable process.inherited false)]
      exact wired
  | openFile =>
      rw [phase] at table
      rw [hangup_of_clear
        (table.2.2.2 ▸ connection_not_mem_startTable process.inherited process.logged)]
      exact wired
  | socket =>
      rw [phase] at table
      obtain ⟨_, _, _, _, node, _, same⟩ := table
      rw [hangup_of_clear
        (same ▸ connection_not_mem_fileTable process.inherited process.logged node)]
      exact wired
  | setsockopt | bind | listen =>
      rw [phase] at table
      rw [hangup_of_clear (Filled.clear table)]
      exact wired
  | fork | setsid | forkAgain | detach =>
      rw [phase] at table
      rw [hangup_of_clear table.1.clear]
      exact wired
  | sigint | sigterm | accepting =>
      rw [phase] at table
      have looping := Looping.hangup table fd
      unfold Wired
      rw [hangup_phase, phase]
      exact looping
  | leaving =>
      rw [phase] at table
      unfold Wired
      rw [hangup_phase, phase]
      rcases hangup_eq process fd with same | ⟨_, closed⟩
      · rw [same]
        exact table
      · rw [closed]
        exact table
  | ending | exited | left | crashed | killed =>
      unfold Wired
      rw [hangup_phase, phase]
      trivial

/-! ### Every step -/

theorem Wired.main (wired : process.Wired) (ok : Bool) (ephemeral : UInt16) :
    (process.mainStep shared inUse ok ephemeral).process.Wired ∧
      ∀ child ∈ (process.mainStep shared inUse ok ephemeral).child, child.Wired := by
  have table := wired
  unfold Wired at table
  unfold mainStep
  cases phase : process.phase with
  | parseArgs => exact wired_alone (wired_parse phase wired)
  | syslog => exact wired_alone (wired_startLog phase wired ok)
  | openFile => exact wired_openFile phase wired ok
  | socket => exact wired_socket phase wired ok
  | setsockopt | bind =>
      rw [phase] at table
      exact wired_onSocket table
  | listen =>
      rw [phase] at table
      apply wired_onSocket
      cases daemonize : process.options.daemonize with
      | false => exact Filled.looping table daemonize
      | true => exact ⟨table, daemonize⟩
  | fork | forkAgain =>
      rw [phase] at table
      exact wired_fork table.1.1 table
  | leaving => exact wired_alone trivial
  | setsid =>
      rw [phase] at table
      apply wired_alone
      unfold setsid
      split
      · exact table
      · exact wired_cleanUpAndExit process _
  | detach =>
      rw [phase] at table
      exact wired_alone (wired_detach table.1 table.2)
  | sigint | sigterm =>
      rw [phase] at table
      exact wired_alone table
  | accepting =>
      rw [phase] at table
      apply wired_alone
      unfold Wired
      rw [accept_phase, phase]
      exact Looping.accept table ok
  | ending =>
      apply wired_alone
      split
      · unfold Wired
        rw [accept_phase, phase]
        trivial
      · exact wired
  | exited | left | crashed | killed => exact wired_alone wired

theorem Wired.receive (wired : process.Wired) (signal : Signal) : (process.receive signal).Wired := by
  unfold ServerProcess.receive
  split
  · exact wired
  · split
    · exact wired_cleanUpAndExit process _
    · trivial

theorem Wired.remove (wired : process.Wired) (call : Nat) (ok : Bool) :
    (process.remove shared call ok).process.Wired ∧
      ∀ child ∈ (process.remove shared call ok).child, child.Wired := by
  unfold ServerProcess.remove
  split
  · split
    · next ending =>
        apply wired_alone
        unfold Wired
        dsimp only
        rw [ending]
        trivial
    · exact wired_alone wired
  · exact wired_alone wired

theorem Wired.exit (wired : process.Wired) (call : Nat) (cancels : Bool) :
    (process.exit call cancels).Wired := by
  unfold ServerProcess.exit
  split
  · split
    · cases cancels with
      | false => trivial
      | true => trivial
    · exact wired
  · exact wired

theorem wired_act (shared : Shared) (inUse : Nat → Bool) (process : ServerProcess)
    (action : Action) (wired : process.Wired) :
    (process.act shared inUse action).process.Wired ∧
      ∀ child ∈ (process.act shared inUse action).child, child.Wired := by
  cases action with
  | main ok ephemeral => exact wired.main ok ephemeral
  | hangup fd => exact wired_alone (wired.hangup fd)
  | log sends connects => exact wired_alone (wired.log sends connects)
  | signal signal => exact wired_alone (wired.receive signal)
  | lockFails =>
      apply wired_alone
      split
      · exact wired_cleanUpAndExit process _
      · exact wired
  | leaveLoop =>
      apply wired_alone
      split
      · exact wired_cleanUpAndExit process _
      · exact wired
  | remove call ok => exact wired.remove call ok
  | exit call cancels => exact wired_alone (wired.exit call cancels)

end Wired

/-! ### The descriptors in the loop -/

def closedAtLaunch (inherited : List Bool) : Nat := 3 - (inherited.take 3).count true

theorem free_launchFds (inherited : List Bool) (bound : Nat) :
    Slots.free (launchFds inherited) bound = bound - (inherited.take bound).count true := by
  induction inherited generalizing bound with
  | nil => simp [launchFds, Slots.free]
  | cons isOpen later ih =>
      cases bound with
      | zero => rfl
      | succ bound =>
          have rest : Slots.free (List.map (fun isOpen => if isOpen = true then
              some Target.inherited else none) later) bound =
              bound - (later.take bound).count true := ih bound
          have few : (later.take bound).count true ≤ bound :=
            List.count_le_length.trans (List.length_take_le bound later)
          cases isOpen with
          | false =>
              simp [launchFds, Slots.free, rest]
              omega
          | true => simp [launchFds, Slots.free, rest]

theorem free_startTable (inherited : List Bool) (logged : Bool) (bound : Nat) :
    Slots.free (startTable inherited logged) bound =
      bound - (inherited.take bound).count true - logged.toNat := by
  have free := free_launchFds inherited bound
  cases logged with
  | false => exact free
  | true => exact (Slots.free_put (launchFds inherited) .log bound).trans (congrArg (· - 1) free)

theorem above_two_iff (inherited : List Bool) (logged : Bool) :
    2 < Slots.lowest (startTable inherited logged) ↔ closedAtLaunch inherited ≤ logged.toNat := by
  rw [← Nat.succ_le_iff, Slots.le_lowest_iff, free_startTable, Nat.sub_eq_zero_iff_le,
    closedAtLaunch]

theorem second_above_two_iff (inherited : List Bool) (logged : Bool) (node : FileNode) :
    2 < Slots.lowest (fileTable inherited logged node) ↔
      closedAtLaunch inherited ≤ logged.toNat + 1 := by
  rw [← Nat.succ_le_iff, Slots.le_lowest_iff, fileTable, Slots.free_put, free_startTable,
    Nat.sub_sub, Nat.sub_eq_zero_iff_le, closedAtLaunch]

theorem target_nat (process : ServerProcess) (fd : Nat) :
    process.target fd = Slots.look process.fds fd := by
  unfold target
  rw [if_neg (by omega)]
  rfl

end ServerProcess

/-- What `main` reads and writes in its loop: `file_fd` and `server_fd` survive
`deamonize` when they are above 2, behind the closed descriptors and the log. -/
theorem loop_descriptors_iff (events : List ServiceEvent) (process : ServerProcess)
    (present : process ∈ (ServerHost.booted.run events).processes)
    (accepting : process.phase = .accepting) :
    ∃ options node, parseArgs process.posixlyCorrect process.args = .options options ∧
      process.opened = some node ∧
      (process.target process.fileFd = some (.file node) ↔ options.daemonize = false ∨
        ServerProcess.closedAtLaunch process.inherited ≤ process.logged.toNat) ∧
      (process.target process.fileFd = some (.file node) ∨
        process.target process.fileFd = some .connection ∨
        process.target process.fileFd = some .log ∨ process.target process.fileFd = none) ∧
      ((∃ id, process.target process.mainServerFd = some (.socket id)) ↔
        options.daemonize = false ∨
          ServerProcess.closedAtLaunch process.inherited ≤ process.logged.toNat + 1) := by
  have wired := ServerHost.forall_run ServerProcess.wired_launched ServerProcess.wired_act events
    process present
  unfold ServerProcess.Wired at wired
  rw [accepting] at wired
  obtain ⟨_, node, id, ⟨parsed, opened, fileFd, mainServerFd⟩, file, socket⟩ := wired
  refine ⟨process.options, node, parsed, opened, ?_, ?_, ?_⟩
  · rw [fileFd, ServerProcess.target_nat, file.look_iff rfl, ServerProcess.above_two_iff]
  · rw [fileFd, ServerProcess.target_nat]
    exact file.cases
  · rw [mainServerFd, ServerProcess.target_nat,
      ← ServerProcess.second_above_two_iff _ process.logged node, ← socket.look_iff rfl]
    constructor
    · rintro ⟨other, found⟩
      rcases socket.cases with same | connection | log | free
      · exact same
      · rw [connection] at found
        cases found
      · rw [log] at found
        cases found
      · rw [free] at found
        cases found
    · intro found
      exact ⟨id, found⟩

/-- A server is made a daemon with standard input closed, and a client connects. Either
there is a log or there is none. -/
def closedInput (logs : Bool) : List ServiceEvent :=
  ServiceEvent.launch false [[45, 100]] [false, true, true] :: .act 0 (.main true 0) ::
    .act 0 (.main logs 0) ::
    (List.replicate 6 (.act 0 (.main true 0)) ++ List.replicate 2 (.act 1 (.main true 0)) ++
      List.replicate 3 (.act 2 (.main true 0)) ++
      [.act 2 (.log false logs), .act 2 (.main true 0)])

def closedInputServer : ServerProcess :=
  { launch := 0
    posixlyCorrect := false
    args := [[45, 100]]
    inherited := [false, true, true]
    options := { port := 9000, daemonize := true }
    serverFd := 0
    fileFd := 0
    mainServerFd := 3
    fds := [some .connection, none, none, some (.socket 0)]
    logged := false
    logFd := none
    opened := some .device
    sigintCaught := true
    sigtermCaught := true
    calls := []
    phase := .accepting }

/-- With a log its connection is at 0 in front of `open`, and again in the loop. -/
def loggedServer : ServerProcess :=
  { closedInputServer with
    fileFd := 3
    mainServerFd := 4
    fds := [some .log, some .connection, none, some (.file .device), some (.socket 0)]
    logged := true
    logFd := some 0 }

theorem loop_descriptors_iff_closedInput :
    closedInputServer ∈ (ServerHost.booted.run (closedInput false)).processes ∧
      closedInputServer.phase = .accepting ∧
      closedInputServer.target closedInputServer.fileFd = some .connection ∧
      (∃ node, closedInputServer.opened = some node ∧
        closedInputServer.target closedInputServer.fileFd ≠ some (.file node)) ∧
      loggedServer ∈ (ServerHost.booted.run (closedInput true)).processes ∧
      loggedServer.phase = .accepting ∧
      ∃ node, loggedServer.opened = some node ∧
        loggedServer.target loggedServer.fileFd = some (.file node) := by
  have present : closedInputServer ∈ (ServerHost.booted.run (closedInput false)).processes := by
    decide +kernel
  have presentLogged : loggedServer ∈ (ServerHost.booted.run (closedInput true)).processes := by
    decide +kernel
  refine ⟨present, rfl, rfl, ?_, presentLogged, rfl, ?_⟩
  · obtain ⟨options, node, parsed, opened, file, _, _⟩ :=
      loop_descriptors_iff (closedInput false) closedInputServer present rfl
    refine ⟨node, opened, ?_⟩
    have daemon : options = { port := 9000, daemonize := true } := by
      have same : parseArgs false [[45, 100]] = .options options := parsed
      have known : parseArgs false [[45, 100]] = .options { port := 9000, daemonize := true } := by
        decide +kernel
      rw [known] at same
      exact (Parsed.options.inj same).symm
    rw [ne_eq, file, daemon]
    decide
  · obtain ⟨options, node, _, opened, file, _, _⟩ :=
      loop_descriptors_iff (closedInput true) loggedServer presentLogged rfl
    exact ⟨node, opened, file.mpr (Or.inr (by decide))⟩

end Aesd.Server
