/-
Processes of the server: `main` up to its loop, `deamonize` and `cleanUpAndExit`
(aesdsocket.c).

Any number of processes run on one host. A process is launched with a command line
and with some descriptors open; a step of it is one call of the system, which may
fail. The host keeps what the processes share: the file at `file_path` and the
sockets. A socket lives as long as some process has a descriptor on it. Of what the
threads do, only that they close the descriptors of their connections, log messages
and may call `cleanUpAndExit` is seen here. `syslog` keeps a descriptor of its own
while the system log is there. What `cleanUpAndExit` logs may come at any time up to
its end. What a call opens and closes again is not seen.
-/

import Aesd.Lib.Slots
import Aesd.Server.Options
import Aesd.Server.Shutdown

namespace Aesd.Server

open Driver

/-! ### Files, sockets and descriptors -/

/-- The device of the driver, or a file that `open` has made. -/
inductive FileNode where
  | device
  | regular (inode : Nat)
  deriving DecidableEq, Repr

inductive Target where
  | inherited
  | file (node : FileNode)
  | socket (id : Nat)
  | connection
  | log
  deriving DecidableEq, Repr

structure Socket where
  reuse : Bool
  port : Option UInt16
  listening : Bool
  deriving DecidableEq, Repr

/-- `path` is what stands at `file_path`. -/
structure Shared where
  path : Option FileNode
  inodes : Nat
  sockets : List Socket
  deriving DecidableEq, Repr

inductive Status where
  | success
  | failure
  deriving DecidableEq, Repr

/-- The call that `main` makes next. `leaving` is a parent behind a fork, `ending` a
process in which `cleanUpAndExit` has been called, `left` one that has ended by a
plain `exit`, `crashed` one that `pthread_cancel` in `cleanUpAndExit` has brought
down. -/
inductive Phase where
  | parseArgs
  | syslog
  | openFile
  | socket
  | setsockopt
  | bind
  | listen
  | fork
  | leaving
  | setsid
  | forkAgain
  | detach
  | sigint
  | sigterm
  | accepting
  | ending
  | exited (status : Status)
  | left (status : Status)
  | crashed
  | killed
  deriving DecidableEq, Repr

/-- Where a call of `cleanUpAndExit` stands with `remove`: in front of it, behind one
that has left nothing at the path, behind one that has failed; or there was no file to
remove. -/
inductive Removal where
  | ahead
  | done
  | failed
  | skipped
  deriving DecidableEq, Repr

/-- A call of `cleanUpAndExit` that has closed the descriptors. -/
structure ExitCall where
  status : Status
  removal : Removal
  deriving DecidableEq, Repr

/-- `serverFd` is the global variable, which the variable `mainServerFd` of the same
name hides in `main`. `opened` is the file that `open` has given, `logged` tells
whether `syslog` had a connection by then, and `logFd` is its descriptor. -/
structure ServerProcess where
  launch : Nat
  posixlyCorrect : Bool
  args : List Bytes
  inherited : List Bool
  options : Options
  serverFd : Int
  fileFd : Int
  mainServerFd : Int
  fds : List (Option Target)
  logged : Bool
  logFd : Option Nat
  opened : Option FileNode
  sigintCaught : Bool
  sigtermCaught : Bool
  calls : List ExitCall
  phase : Phase
  deriving DecidableEq, Repr

namespace ServerProcess

def launchFds (inherited : List Bool) : List (Option Target) :=
  inherited.map fun isOpen => if isOpen then some .inherited else none

def launched (launch : Nat) (posixlyCorrect : Bool) (args : List Bytes) (inherited : List Bool) :
    ServerProcess :=
  { launch := launch
    posixlyCorrect := posixlyCorrect
    args := args
    inherited := inherited
    options := Options.default
    serverFd := 0
    fileFd := 0
    mainServerFd := 0
    fds := launchFds inherited
    logged := false
    logFd := none
    opened := none
    sigintCaught := false
    sigtermCaught := false
    calls := []
    phase := .parseArgs }

def target (process : ServerProcess) (fd : Int) : Option Target :=
  if fd < 0 then none else Slots.look process.fds fd.toNat

def close (process : ServerProcess) (fd : Int) : ServerProcess :=
  if fd < 0 then process else { process with fds := Slots.vacate process.fds fd.toNat }

def closelog (process : ServerProcess) : ServerProcess :=
  match process.logFd with
  | some fd => { process with fds := Slots.vacate process.fds fd, logFd := none }
  | none => process

/-- `syslog` sends a message on the connection it has; without one, or where that fails,
it makes a new one. -/
def syslog (process : ServerProcess) (sends connects : Bool) : ServerProcess :=
  if process.logFd.isSome && sends then process
  else
    let process := process.closelog
    if connects then
      { process with
        fds := Slots.put process.fds .log
        logFd := some (Slots.lowest process.fds) }
    else process

/-- `cleanUpAndExit` up to `remove`, or to the walk over the connections where
there is no file to remove. -/
def cleanUpAndExit (process : ServerProcess) (status : Status) : ServerProcess :=
  let process :=
    if 0 < process.serverFd then { process.close process.serverFd with serverFd := -1 }
    else process
  if 0 < process.fileFd then
    { process.close process.fileFd with
      calls := process.calls ++ [{ status := status, removal := .ahead }]
      phase := .ending }
  else
    { process with
      calls := process.calls ++ [{ status := status, removal := .skipped }]
      phase := .ending }

def terminate (process : ServerProcess) (phase : Phase) : ServerProcess :=
  { process with fds := [], phase := phase }

def socketId (process : ServerProcess) : Option Nat :=
  match process.target process.mainServerFd with
  | some (.socket id) => some id
  | _ => none

end ServerProcess

/-! ### Calls on sockets -/

namespace Shared

/-- Two sockets may share a port as long as both have SO_REUSEADDR and the other
one does not listen. -/
def conflicts (self other : Socket) (port : UInt16) : Bool :=
  decide (other.port = some port) && (!self.reuse || !other.reuse || other.listening)

def portFree (shared : Shared) (inUse : Nat → Bool) (id : Nat) (self : Socket) (port : UInt16) :
    Bool :=
  (List.range shared.sockets.length).all fun other =>
    decide (other = id) || !inUse other ||
      match shared.sockets[other]? with
      | some socket => !conflicts self socket port
      | none => true

def setsockopt (shared : Shared) (id : Nat) : Option Shared :=
  match shared.sockets[id]? with
  | some socket =>
      some { shared with sockets := shared.sockets.set id { socket with reuse := true } }
  | none => none

/-- Port 0 stands for one that the system chooses. -/
def bind (shared : Shared) (inUse : Nat → Bool) (port ephemeral : UInt16) (id : Nat) :
    Option Shared :=
  let port := if port = 0 then ephemeral else port
  match shared.sockets[id]? with
  | some socket =>
      if socket.port = none ∧ port ≠ 0 ∧ shared.portFree inUse id socket port = true then
        some { shared with sockets := shared.sockets.set id { socket with port := some port } }
      else none
  | none => none

/-- The port is looked at once more, since two sockets may have been bound to it. -/
def listen (shared : Shared) (inUse : Nat → Bool) (id : Nat) : Option Shared :=
  match shared.sockets[id]? with
  | some socket =>
      match socket.port with
      | some port =>
          if shared.portFree inUse id socket port = true then
            some { shared with sockets := shared.sockets.set id { socket with listening := true } }
          else none
      | none => none
  | none => none

def listens (shared : Shared) (id : Nat) : Bool :=
  match shared.sockets[id]? with
  | some socket => socket.listening
  | none => false

end Shared

/-! ### Steps of a process -/

structure Acted where
  shared : Shared
  process : ServerProcess
  child : Option ServerProcess
  deriving DecidableEq, Repr

/-- `main` goes on, its next call succeeding where `ok` lets it; a thread closes the
descriptor of its connection; a message is logged; a signal comes; a lock fails in a
thread; `main` leaves its loop; a call of `cleanUpAndExit` removes the file, or fails to,
or gets to its end, where `cancels` tells whether `pthread_cancel` returns. -/
inductive Action where
  | main (ok : Bool) (ephemeral : UInt16)
  | hangup (fd : Nat)
  | log (sends connects : Bool)
  | signal (signal : Signal)
  | lockFails
  | leaveLoop
  | remove (call : Nat) (ok : Bool)
  | exit (call : Nat) (cancels : Bool)
  deriving DecidableEq, Repr

namespace ServerProcess

def alone (shared : Shared) (process : ServerProcess) : Acted :=
  { shared := shared, process := process, child := none }

/-- `parseArgs` ends the process itself. -/
def parse (process : ServerProcess) : ServerProcess :=
  match parseArgs process.posixlyCorrect process.args with
  | .options options => { process with options := options, phase := .syslog }
  | _ => process.terminate (.left .failure)

def startLog (process : ServerProcess) (connects : Bool) : ServerProcess :=
  { process.syslog false connects with logged := connects, phase := .openFile }

def openFile (shared : Shared) (process : ServerProcess) (ok : Bool) : Acted :=
  if ok then
    let node := shared.path.getD (.regular shared.inodes)
    alone
      { shared with
        path := some node
        inodes := if shared.path = none then shared.inodes + 1 else shared.inodes }
      { process with
        fds := Slots.put process.fds (.file node)
        fileFd := Slots.lowest process.fds
        opened := some node
        phase := .socket }
  else alone shared (cleanUpAndExit { process with fileFd := -1 } .failure)

def socket (shared : Shared) (process : ServerProcess) (ok : Bool) : Acted :=
  if ok then
    alone
      { shared with
        sockets := shared.sockets ++ [{ reuse := false, port := none, listening := false }] }
      { process with
        fds := Slots.put process.fds (.socket shared.sockets.length)
        mainServerFd := Slots.lowest process.fds
        phase := .setsockopt }
  else alone shared (cleanUpAndExit { process with mainServerFd := -1 } .failure)

def onSocket (shared : Shared) (process : ServerProcess) (ok : Bool) (call : Nat → Option Shared)
    (next : Phase) : Acted :=
  match if ok then process.socketId.bind call else none with
  | some shared => alone shared { process with phase := next }
  | none => alone shared (process.cleanUpAndExit .failure)

def fork (shared : Shared) (process : ServerProcess) (ok : Bool) (next : Phase) : Acted :=
  if ok then
    { shared := shared
      process := { process with phase := .leaving }
      child := some { process with phase := next } }
  else alone shared (process.cleanUpAndExit .failure)

def setsid (process : ServerProcess) (ok : Bool) : ServerProcess :=
  if ok then { process with phase := .forkAgain } else process.cleanUpAndExit .failure

def detach (process : ServerProcess) : ServerProcess :=
  { (((process.close 0).close 1).close 2).closelog with phase := .sigint }

/-- A failed `accept` only begins the loop again. -/
def accept (shared : Shared) (process : ServerProcess) (ok : Bool) : ServerProcess :=
  match process.socketId with
  | some id =>
      if ok && shared.listens id then { process with fds := Slots.put process.fds .connection }
      else process
  | none => process

def mainStep (shared : Shared) (inUse : Nat → Bool) (process : ServerProcess) (ok : Bool)
    (ephemeral : UInt16) : Acted :=
  match process.phase with
  | .parseArgs => alone shared process.parse
  | .syslog => alone shared (process.startLog ok)
  | .openFile => process.openFile shared ok
  | .socket => process.socket shared ok
  | .setsockopt => process.onSocket shared ok shared.setsockopt .bind
  | .bind => process.onSocket shared ok (shared.bind inUse process.options.port ephemeral) .listen
  | .listen =>
      process.onSocket shared ok (shared.listen inUse)
        (if process.options.daemonize then .fork else .sigint)
  | .fork => process.fork shared ok .setsid
  | .leaving => alone shared (process.terminate (.left .success))
  | .setsid => alone shared (process.setsid ok)
  | .forkAgain => process.fork shared ok .detach
  | .detach => alone shared process.detach
  | .sigint => alone shared { process with sigintCaught := true, phase := .sigterm }
  | .sigterm => alone shared { process with sigtermCaught := true, phase := .accepting }
  | .accepting => alone shared (process.accept shared ok)
  -- another thread may be the one that ends the process
  | .ending => alone shared (if process.sigtermCaught then process.accept shared ok else process)
  | .exited _ | .left _ | .crashed | .killed => alone shared process

def ended (process : ServerProcess) : Bool :=
  match process.phase with
  | .exited _ | .left _ | .crashed | .killed => true
  | _ => false

def catches (process : ServerProcess) : Signal → Bool
  | .sigint => process.sigintCaught
  | .sigterm => process.sigtermCaught

/-- `signal_handler`, or the default action before `main` has set it. -/
def receive (process : ServerProcess) (signal : Signal) : ServerProcess :=
  if process.ended then process
  else if process.catches signal then process.cleanUpAndExit .success
  else process.terminate .killed

def threaded (process : ServerProcess) : Bool :=
  decide (process.phase = .accepting) ||
    (decide (process.phase = .ending) && process.sigtermCaught)

/-- `should_exit` is set behind the removal. -/
def shouldExit (process : ServerProcess) : Bool :=
  decide (process.phase = .ending) && process.calls.any fun call => decide (call.removal ≠ .ahead)

def hangup (process : ServerProcess) (fd : Nat) : ServerProcess :=
  if process.target fd = some .connection then process.close fd else process

def log (process : ServerProcess) (sends connects : Bool) : ServerProcess :=
  if process.phase = .accepting ∨ process.phase = .ending then process.syslog sends connects
  else process

/-- One call of `cleanUpAndExit` removes what stands at the path by then. Nobody looks
at the result, which is a failure also where nothing stands there. -/
def remove (shared : Shared) (process : ServerProcess) (call : Nat) (ok : Bool) : Acted :=
  let cleared := ok || decide (shared.path = none)
  match process.calls[call]? with
  | some { status, removal := .ahead } =>
      if process.phase = .ending then
        alone (if cleared then { shared with path := none } else shared)
          { process with
            fileFd := -1
            calls :=
              process.calls.set call { status, removal := if cleared then .done else .failed } }
      else alone shared process
  | _ => alone shared process

/-- Without the timer `timer_thread` is no thread, and cancelling it is not defined. -/
def exit (process : ServerProcess) (call : Nat) (cancels : Bool) : ServerProcess :=
  match process.calls[call]? with
  | some { status, removal } =>
      if removal ≠ .ahead ∧ process.phase = .ending then
        process.terminate (if cancels then .exited status else .crashed)
      else process
  | none => process

def act (shared : Shared) (inUse : Nat → Bool) (process : ServerProcess) : Action → Acted
  | .main ok ephemeral => process.mainStep shared inUse ok ephemeral
  | .hangup fd => alone shared (process.hangup fd)
  | .log sends connects => alone shared (process.log sends connects)
  | .signal signal => alone shared (process.receive signal)
  | .lockFails =>
      alone shared (if process.threaded then process.cleanUpAndExit .failure else process)
  | .leaveLoop =>
      alone shared
        (if process.threaded && process.shouldExit then process.cleanUpAndExit .success
        else process)
  | .remove call ok => process.remove shared call ok
  | .exit call cancels => alone shared (process.exit call cancels)

end ServerProcess

/-! ### The host -/

structure ServerHost where
  shared : Shared
  processes : List ServerProcess
  deriving DecidableEq, Repr

inductive ServiceEvent where
  | launch (posixlyCorrect : Bool) (args : List Bytes) (inherited : List Bool)
  | act (pid : Nat) (action : Action)
  deriving DecidableEq, Repr

namespace ServerHost

def booted : ServerHost :=
  { shared := { path := some .device, inodes := 0, sockets := [] }, processes := [] }

def inUse (host : ServerHost) (id : Nat) : Bool :=
  host.processes.any fun process => decide (some (Target.socket id) ∈ process.fds)

/-- A process is known by its place in the list; a launch by its first process. -/
def step (host : ServerHost) : ServiceEvent → ServerHost
  | .launch posixlyCorrect args inherited =>
      { host with
        processes := host.processes ++
          [ServerProcess.launched host.processes.length posixlyCorrect args inherited] }
  | .act pid action =>
      match host.processes[pid]? with
      | none => host
      | some process =>
          let acted := process.act host.shared host.inUse action
          { shared := acted.shared
            processes := host.processes.set pid acted.process ++ acted.child.toList }

theorem step_absent {host : ServerHost} {pid : Nat} (absent : host.processes[pid]? = none)
    (action : Action) : host.step (.act pid action) = host := by
  simp only [step, absent]

theorem step_act {host : ServerHost} {pid : Nat} {process : ServerProcess}
    (found : host.processes[pid]? = some process) (action : Action) :
    host.step (.act pid action) =
      { shared := (process.act host.shared host.inUse action).shared
        processes := host.processes.set pid (process.act host.shared host.inUse action).process ++
          (process.act host.shared host.inUse action).child.toList } := by
  simp only [step, found]

def run (host : ServerHost) (events : List ServiceEvent) : ServerHost :=
  events.foldl step host

end ServerHost

end Aesd.Server
