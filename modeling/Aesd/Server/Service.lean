/-
The server as a service: launches, their processes and their ports.

Several launches may overlap, and each may fork twice on its way. A step is sorted
by what it does to the shared state and to the descriptors; from this it follows that
a launch has one process to go on with and that no two servers have a port.
-/

import Aesd.Server.Descriptors

namespace Aesd.Server

open Driver

/-! ### What a step can do -/

/-- A parent behind a fork, or a process that has ended. -/
def Phase.gone : Phase → Bool
  | .leaving | .exited _ | .left _ | .crashed | .killed => true
  | _ => false

def Phase.forked : Phase → Bool
  | .leaving | .left .success | .killed => true
  | _ => false

/-- The phases from the success of `listen` to the loop. -/
def Phase.listens : Phase → Bool
  | .fork | .setsid | .forkAgain | .detach | .sigint | .sigterm | .accepting => true
  | _ => false

theorem Phase.gone_of_forked {phase : Phase} (forked : phase.forked = true) : phase.gone = true := by
  cases phase with
  | leaving | killed => rfl
  | left status => rfl
  | _ => cases forked

theorem Phase.not_listens_of_gone {phase : Phase} (gone : phase.gone = true) :
    phase.listens = false := by
  cases phase with
  | leaving | crashed | killed => rfl
  | exited status => rfl
  | left status => rfl
  | _ => cases gone

theorem Phase.present_of_call {phase : Phase}
    (call : phase = .setsockopt ∨ phase = .bind ∨ phase = .listen) : phase.gone = false := by
  rcases call with here | here | here
  all_goals
    rw [here]
    rfl

theorem Phase.present_of_listens {phase : Phase} (listens : phase.listens = true) :
    phase.gone = false := by
  by_contra gone
  rw [Phase.not_listens_of_gone (by simpa using gone)] at listens
  cases listens

namespace ServerProcess

/-- A `remove` of the process has left nothing at the path. -/
def Removed (process : ServerProcess) : Prop := ∃ call ∈ process.calls, call.removal = .done

/-- A step that gets hold of no file and no socket, and takes no file away. -/
structure Keeps (process next : ServerProcess) : Prop where
  launch : next.launch = process.launch
  posixlyCorrect : next.posixlyCorrect = process.posixlyCorrect
  args : next.args = process.args
  opened : next.opened = process.opened
  sockets : ∀ id, some (Target.socket id) ∈ next.fds → some (Target.socket id) ∈ process.fds
  gone : process.phase.gone = true → next.phase.gone = true
  forked : process.phase.forked = true → next.phase.forked = true
  listens : next.phase.listens = true → process.phase.listens = true
  removed : next.Removed ↔ process.Removed

/-- A call on a socket leaves its port alone, or claims a port that no other socket
in use listens on. -/
inductive SocketCall (shared : Shared) (inUse : Nat → Bool) (options : Options) (id : Nat)
    (old new : Socket) : Prop where
  | tunes (port : new.port = old.port) (listening : new.listening = old.listening)
  | claims (port : UInt16) (claimed : new.port = some port)
      (listening : old.listening = true → new.listening = true)
      (origin : old.port = some port ∨
        old.port = none ∧ (options.port = port ∨ options.port = 0))
      (alone : ∀ other socket, other ≠ id → inUse other = true →
        shared.sockets[other]? = some socket → socket.port = some port → socket.listening = false)

inductive Acts (shared : Shared) (inUse : Nat → Bool) (process : ServerProcess) : Acted → Prop where
  | keeps {next : ServerProcess} (keeps : process.Keeps next) :
      Acts shared inUse process (alone shared next)
  | opens (phase : process.phase = .openFile) :
      Acts shared inUse process (process.openFile shared true)
  | makes (phase : process.phase = .socket) :
      Acts shared inUse process (process.socket shared true)
  | calls {id : Nat} {old new : Socket} {next : Phase}
      (phase : process.phase = .setsockopt ∨ process.phase = .bind ∨ process.phase = .listen)
      (held : some (Target.socket id) ∈ process.fds) (found : shared.sockets[id]? = some old)
      (call : SocketCall shared inUse process.options id old new) (goesOn : next.gone = false)
      (ready : next.listens = true → new.listening = true ∧ new.port ≠ none) :
      Acts shared inUse process
        (alone { shared with sockets := shared.sockets.set id new } { process with phase := next })
  | forks {next : Phase} (listens : process.phase.listens = true) (goesOn : next.gone = false) :
      Acts shared inUse process
        { shared := shared
          process := { process with phase := .leaving }
          child := some { process with phase := next } }
  | removes {next : ServerProcess} (keeps : process.Keeps { next with calls := process.calls })
      (removed : next.Removed) :
      Acts shared inUse process (alone { shared with path := none } next)

section Keeps

variable {process : ServerProcess} {shared : Shared} {inUse : Nat → Bool}

theorem Keeps.refl (process : ServerProcess) : process.Keeps process :=
  ⟨rfl, rfl, rfl, rfl, fun _id held => held, id, id, id, Iff.rfl⟩

theorem Keeps.elsewhere {next last : ServerProcess} (keeps : process.Keeps next)
    (same : last.launch = next.launch ∧ last.posixlyCorrect = next.posixlyCorrect ∧
      last.args = next.args ∧ last.opened = next.opened ∧ last.fds = next.fds ∧
      last.phase = next.phase ∧ last.calls = next.calls) : process.Keeps last := by
  obtain ⟨launch, posixlyCorrect, args, opened, fds, phase, calls⟩ := same
  refine ⟨launch.trans keeps.launch, posixlyCorrect.trans keeps.posixlyCorrect,
    args.trans keeps.args, opened.trans keeps.opened, ?_, ?_, ?_, ?_, ?_⟩
  · rw [fds]
    exact keeps.sockets
  · rw [phase]
    exact keeps.gone
  · rw [phase]
    exact keeps.forked
  · rw [phase]
    exact keeps.listens
  · unfold Removed
    rw [calls]
    exact keeps.removed

theorem keeps_phase (present : process.phase.gone = false) {next : Phase}
    (listens : next.listens = true → process.phase.listens = true) :
    process.Keeps { process with phase := next } := by
  refine ⟨rfl, rfl, rfl, rfl, fun _id held => held, ?_, ?_, listens, Iff.rfl⟩
  · intro gone
    rw [present] at gone
    cases gone
  · intro forked
    rw [Phase.gone_of_forked forked] at present
    cases present

theorem mem_fds_close (process : ServerProcess) (fd : Int) (entry : Target)
    (member : some entry ∈ (process.close fd).fds) : some entry ∈ process.fds := by
  unfold close at member
  split at member
  · exact member
  · exact Slots.mem_vacate member

theorem keeps_close (process : ServerProcess) (fd : Int) : process.Keeps (process.close fd) := by
  have sockets := fun id => mem_fds_close process fd (.socket id)
  unfold close at sockets ⊢
  split
  · exact Keeps.refl process
  · next nonnegative =>
      rw [if_neg nonnegative] at sockets
      exact ⟨rfl, rfl, rfl, rfl, sockets, id, id, id, Iff.rfl⟩

theorem Keeps.trans {next last : ServerProcess} (first : process.Keeps next)
    (second : next.Keeps last) : process.Keeps last :=
  ⟨second.launch.trans first.launch, second.posixlyCorrect.trans first.posixlyCorrect,
    second.args.trans first.args, second.opened.trans first.opened,
    fun id held => first.sockets id (second.sockets id held), fun gone => second.gone (first.gone gone),
    fun forked => second.forked (first.forked forked),
    fun listens => first.listens (second.listens listens), second.removed.trans first.removed⟩

theorem close_phase (process : ServerProcess) (fd : Int) :
    (process.close fd).phase = process.phase := by
  unfold close
  split
  · rfl
  · rfl

theorem Keeps.calling {next : ServerProcess} (keeps : process.Keeps next) {call : ExitCall}
    (waiting : call.removal ≠ .done) :
    process.Keeps { next with calls := next.calls ++ [call] } := by
  refine ⟨keeps.launch, keeps.posixlyCorrect, keeps.args, keeps.opened, keeps.sockets, keeps.gone,
    keeps.forked, keeps.listens, ?_⟩
  rw [← keeps.removed]
  constructor
  · rintro ⟨other, member, done⟩
    rcases List.mem_append.mp member with old | new
    · exact ⟨other, old, done⟩
    · rw [List.mem_singleton.mp new] at done
      exact absurd done waiting
  · rintro ⟨other, member, done⟩
    exact ⟨other, List.mem_append_left [call] member, done⟩

theorem keeps_cleanUpAndExit (present : process.phase.gone = false) (status : Status) :
    process.Keeps (process.cleanUpAndExit status) := by
  unfold cleanUpAndExit
  have closes : process.Keeps
      (if 0 < process.serverFd then { process.close process.serverFd with serverFd := -1 }
      else process) := by
    split
    · exact (keeps_close process process.serverFd).elsewhere ⟨rfl, rfl, rfl, rfl, rfl, rfl, rfl⟩
    · exact Keeps.refl process
  have stays : (if 0 < process.serverFd then { process.close process.serverFd with serverFd := -1 }
      else process).phase.gone = false := by
    split
    · rw [← present]
      exact congrArg Phase.gone (close_phase process process.serverFd)
    · exact present
  generalize (if 0 < process.serverFd then { process.close process.serverFd with serverFd := -1 }
    else process) = closed at closes stays
  dsimp only
  split
  · have keeps := closes.trans (keeps_close closed closed.fileFd)
    have here : (closed.close closed.fileFd).phase.gone = false := by
      rw [close_phase]
      exact stays
    have called := keeps.trans (@keeps_phase _ here .ending nofun)
    have calls : (closed.close closed.fileFd).calls = closed.calls := by
      unfold close
      split
      · rfl
      · rfl
    exact (@Keeps.calling _ _ called { status := status, removal := .ahead } nofun).elsewhere
      ⟨rfl, rfl, rfl, rfl, rfl, rfl, congrArg (· ++ _) calls.symm⟩
  · have called := closes.trans (@keeps_phase _ stays .ending nofun)
    exact @Keeps.calling _ _ called { status := status, removal := .skipped } nofun

theorem keeps_terminate {phase : Phase} (gone : phase.gone = true)
    (forked : process.phase.forked = true → phase.forked = true) :
    process.Keeps (process.terminate phase) := by
  refine ⟨rfl, rfl, rfl, rfl, ?_, fun _ => gone, forked, ?_, Iff.rfl⟩
  · intro id held
    cases held
  · intro listens
    have here : phase.listens = true := listens
    rw [Phase.not_listens_of_gone gone] at here
    cases here

theorem keeps_put (process : ServerProcess) (entry : Target)
    (noSocket : ∀ id, Target.socket id ≠ entry) :
    process.Keeps { process with fds := Slots.put process.fds entry } := by
  refine ⟨rfl, rfl, rfl, rfl, ?_, id, id, id, Iff.rfl⟩
  intro id held
  rcases Slots.mem_put held with impossible | member
  · exact absurd impossible (noSocket id)
  · exact member

theorem keeps_accept (process : ServerProcess) (shared : Shared) (ok : Bool) :
    process.Keeps (process.accept shared ok) := by
  unfold accept
  split
  · split
    · exact keeps_put process .connection nofun
    · exact Keeps.refl process
  · exact Keeps.refl process

theorem keeps_hangup (process : ServerProcess) (fd : Nat) : process.Keeps (process.hangup fd) := by
  unfold hangup
  split
  · exact keeps_close process fd
  · exact Keeps.refl process

theorem keeps_closelog (process : ServerProcess) : process.Keeps process.closelog := by
  unfold closelog
  split
  · next fd _ =>
      refine ⟨rfl, rfl, rfl, rfl, ?_, id, id, id, Iff.rfl⟩
      intro id held
      exact Slots.mem_vacate held
  · exact Keeps.refl process

theorem keeps_syslog (process : ServerProcess) (sends connects : Bool) :
    process.Keeps (process.syslog sends connects) := by
  unfold syslog
  dsimp only
  split
  · exact Keeps.refl process
  · have closes := keeps_closelog process
    split
    · have connected := keeps_put process.closelog .log nofun
      exact (closes.trans connected).elsewhere ⟨rfl, rfl, rfl, rfl, rfl, rfl, rfl⟩
    · exact closes

theorem keeps_log (process : ServerProcess) (sends connects : Bool) :
    process.Keeps (process.log sends connects) := by
  unfold log
  split
  · exact keeps_syslog process sends connects
  · exact Keeps.refl process

theorem keeps_receive (wired : process.Wired) (signal : Signal) :
    process.Keeps (process.receive signal) := by
  unfold receive
  split
  · exact Keeps.refl process
  · next notEnded =>
      split
      · next catches =>
          apply keeps_cleanUpAndExit
          cases phase : process.phase with
          | leaving =>
              unfold Wired at wired
              rw [phase] at wired
              cases signal with
              | sigint =>
                  have caught : process.sigintCaught = true := catches
                  rw [wired.1] at caught
                  cases caught
              | sigterm =>
                  have caught : process.sigtermCaught = true := catches
                  rw [wired.2] at caught
                  cases caught
          | exited | left | crashed | killed =>
              unfold ended at notEnded
              rw [phase] at notEnded
              exact absurd rfl notEnded
          | _ => rfl
      · exact keeps_terminate rfl (fun _ => rfl)

theorem keeps_exit (process : ServerProcess) (call : Nat) (cancels : Bool) :
    process.Keeps (process.exit call cancels) := by
  unfold exit
  split
  · split
    · next finished =>
        apply keeps_terminate
        · cases cancels with
          | false => rfl
          | true => rfl
        · intro forked
          rw [finished.2] at forked
          cases forked
    · exact Keeps.refl process
  · exact Keeps.refl process

end Keeps

/-! ### Calls on sockets -/

section SocketCall

variable {process : ServerProcess} {shared : Shared} {inUse : Nat → Bool}

theorem portFree_spec {id : Nat} {self : Socket} {port : UInt16}
    (free : shared.portFree inUse id self port = true) {other : Nat} {socket : Socket}
    (differ : other ≠ id) (used : inUse other = true) (found : shared.sockets[other]? = some socket)
    (same : socket.port = some port) : socket.listening = false := by
  have bound : other < shared.sockets.length := by
    by_contra beyond
    rw [List.getElem?_eq_none (by omega)] at found
    cases found
  have here := List.all_eq_true.mp free other (List.mem_range.mpr bound)
  rw [found] at here
  simp only [differ, decide_false, used, Bool.not_true, Bool.false_or, Shared.conflicts, same,
    decide_true, Bool.true_and, Bool.not_or, Bool.not_not, Bool.and_eq_true,
    Bool.not_eq_true'] at here
  exact here.2

theorem socketId_mem {id : Nat} (found : process.socketId = some id) :
    some (Target.socket id) ∈ process.fds := by
  unfold socketId at found
  split at found
  · next other reads =>
      cases found
      unfold target at reads
      split at reads
      · cases reads
      · exact Slots.mem_of_look reads
  · cases found

theorem acts_onSocket {ok : Bool} {call : Nat → Option Shared} {next : Phase}
    (phase : process.phase = .setsockopt ∨ process.phase = .bind ∨ process.phase = .listen)
    (goesOn : next.gone = false)
    (spec : ∀ id after, call id = some after → ∃ old new, shared.sockets[id]? = some old ∧
      SocketCall shared inUse process.options id old new ∧
      (next.listens = true → new.listening = true ∧ new.port ≠ none) ∧
      after = { shared with sockets := shared.sockets.set id new }) :
    Acts shared inUse process (process.onSocket shared ok call next) := by
  have present := Phase.present_of_call phase
  unfold onSocket
  split
  · next after called =>
      split at called
      · obtain ⟨id, held, result⟩ := Option.bind_eq_some_iff.mp called
        obtain ⟨old, new, found, call, ready, same⟩ := spec id after result
        rw [same]
        exact Acts.calls phase (socketId_mem held) found call goesOn ready
      · cases called
  · exact Acts.keeps (keeps_cleanUpAndExit present .failure)

theorem setsockopt_spec (options : Options) (id : Nat) (after : Shared)
    (called : shared.setsockopt id = some after) :
    ∃ old new, shared.sockets[id]? = some old ∧ SocketCall shared inUse options id old new ∧
      (Phase.bind.listens = true → new.listening = true ∧ new.port ≠ none) ∧
      after = { shared with sockets := shared.sockets.set id new } := by
  unfold Shared.setsockopt at called
  split at called
  · next socket found =>
      exact ⟨socket, { socket with reuse := true }, found, .tunes rfl rfl, nofun,
        (Option.some.inj called).symm⟩
  · cases called

theorem bind_spec (options : Options) (ephemeral : UInt16) (id : Nat) (after : Shared)
    (called : shared.bind inUse options.port ephemeral id = some after) :
    ∃ old new, shared.sockets[id]? = some old ∧ SocketCall shared inUse options id old new ∧
      (Phase.listen.listens = true → new.listening = true ∧ new.port ≠ none) ∧
      after = { shared with sockets := shared.sockets.set id new } := by
  have origin : options.port = (if options.port = 0 then ephemeral else options.port) ∨
      options.port = 0 := by
    by_cases zero : options.port = 0
    · exact Or.inr zero
    · rw [if_neg zero]
      exact Or.inl rfl
  unfold Shared.bind at called
  dsimp only at called
  generalize (if options.port = 0 then ephemeral else options.port) = port at called origin
  split at called
  · next socket found =>
      split at called
      · next allowed =>
          obtain ⟨unbound, _, free⟩ := allowed
          refine ⟨socket, { socket with port := some port }, found,
            .claims port rfl (fun listening => listening) (Or.inr ⟨unbound, origin⟩) ?_, nofun,
            (Option.some.inj called).symm⟩
          intro other socket differ used found same
          exact portFree_spec free differ used found same
      · cases called
  · cases called

theorem listen_spec (options : Options) (next : Phase) (id : Nat) (after : Shared)
    (called : shared.listen inUse id = some after) :
    ∃ old new, shared.sockets[id]? = some old ∧ SocketCall shared inUse options id old new ∧
      (next.listens = true → new.listening = true ∧ new.port ≠ none) ∧
      after = { shared with sockets := shared.sockets.set id new } := by
  unfold Shared.listen at called
  split at called
  · next socket found =>
      split at called
      · next port bound =>
          split at called
          · next free =>
              refine ⟨socket, { socket with listening := true }, found,
                .claims port bound (fun _ => rfl) (Or.inl bound) ?_, ?_,
                (Option.some.inj called).symm⟩
              · intro other socket differ used found same
                exact portFree_spec free differ used found same
              · intro _
                refine ⟨rfl, ?_⟩
                dsimp only
                rw [bound]
                exact Option.some_ne_none port
          · cases called
      · cases called
  · cases called

end SocketCall

section Acts

variable {process : ServerProcess} {shared : Shared} {inUse : Nat → Bool}

theorem acts_fork {ok : Bool} {next : Phase} (listens : process.phase.listens = true)
    (goesOn : next.gone = false) : Acts shared inUse process (process.fork shared ok next) := by
  cases ok with
  | false =>
      exact Acts.keeps (keeps_cleanUpAndExit (Phase.present_of_listens listens) .failure)
  | true => exact Acts.forks listens goesOn

theorem acts_main (ok : Bool) (ephemeral : UInt16) :
    Acts shared inUse process (process.mainStep shared inUse ok ephemeral) := by
  have stays : process.Keeps process := Keeps.refl process
  unfold mainStep
  cases phase : process.phase with
  | parseArgs =>
      have present : process.phase.gone = false := congrArg Phase.gone phase
      apply Acts.keeps
      unfold parse
      split
      · exact (@keeps_phase process present .syslog nofun).elsewhere ⟨rfl, rfl, rfl, rfl, rfl, rfl, rfl⟩
      · apply keeps_terminate rfl
        intro forked
        rw [phase] at forked
        cases forked
  | syslog =>
      have present : (process.syslog false ok).phase.gone = false := by
        obtain ⟨fds, logFd, same⟩ := syslog_eq process false ok
        rw [same]
        exact congrArg Phase.gone phase
      have logs := (keeps_syslog process false ok).trans (@keeps_phase _ present .openFile nofun)
      exact Acts.keeps (logs.elsewhere ⟨rfl, rfl, rfl, rfl, rfl, rfl, rfl⟩)
  | openFile =>
      have present : process.phase.gone = false := congrArg Phase.gone phase
      cases ok with
      | false =>
          have failed : process.Keeps { process with fileFd := -1 } :=
            stays.elsewhere ⟨rfl, rfl, rfl, rfl, rfl, rfl, rfl⟩
          have ends := @keeps_cleanUpAndExit { process with fileFd := -1 } present .failure
          exact Acts.keeps (failed.trans ends)
      | true => exact Acts.opens phase
  | socket =>
      have present : process.phase.gone = false := congrArg Phase.gone phase
      cases ok with
      | false =>
          have failed : process.Keeps { process with mainServerFd := -1 } :=
            stays.elsewhere ⟨rfl, rfl, rfl, rfl, rfl, rfl, rfl⟩
          have ends := @keeps_cleanUpAndExit { process with mainServerFd := -1 } present .failure
          exact Acts.keeps (failed.trans ends)
      | true => exact Acts.makes phase
  | setsockopt => exact acts_onSocket (Or.inl phase) rfl (setsockopt_spec process.options)
  | bind => exact acts_onSocket (Or.inr (Or.inl phase)) rfl (bind_spec process.options ephemeral)
  | listen =>
      apply acts_onSocket (Or.inr (Or.inr phase)) _ (listen_spec process.options _)
      split
      · rfl
      · rfl
  | fork => exact acts_fork (congrArg Phase.listens phase) rfl
  | leaving => exact Acts.keeps (keeps_terminate rfl (fun _ => rfl))
  | setsid =>
      have present : process.phase.gone = false := congrArg Phase.gone phase
      apply Acts.keeps
      unfold setsid
      split
      · exact keeps_phase present (fun _ => congrArg Phase.listens phase)
      · exact keeps_cleanUpAndExit present .failure
  | forkAgain => exact acts_fork (congrArg Phase.listens phase) rfl
  | detach =>
      have closes := (keeps_close process 0).trans
        ((keeps_close (process.close 0) 1).trans (keeps_close ((process.close 0).close 1) 2))
      have leaves := closes.trans (keeps_closelog (((process.close 0).close 1).close 2))
      have same : ((((process.close 0).close 1).close 2).closelog).phase = .detach := by
        rw [closelog_eq, close_phase, close_phase, close_phase]
        exact phase
      apply Acts.keeps
      apply leaves.trans
      apply keeps_phase
      · exact congrArg Phase.gone same
      · intro _
        exact congrArg Phase.listens same
  | sigint =>
      have keeps := @keeps_phase process (congrArg Phase.gone phase) .sigterm
        (fun _ => congrArg Phase.listens phase)
      exact Acts.keeps (keeps.elsewhere ⟨rfl, rfl, rfl, rfl, rfl, rfl, rfl⟩)
  | sigterm =>
      have keeps := @keeps_phase process (congrArg Phase.gone phase) .accepting
        (fun _ => congrArg Phase.listens phase)
      exact Acts.keeps (keeps.elsewhere ⟨rfl, rfl, rfl, rfl, rfl, rfl, rfl⟩)
  | accepting => exact Acts.keeps (keeps_accept process shared ok)
  | ending =>
      apply Acts.keeps
      split
      · exact keeps_accept process shared ok
      · exact stays
  | exited | left | crashed | killed => exact Acts.keeps stays

theorem threaded_present (threaded : process.threaded = true) : process.phase.gone = false := by
  unfold ServerProcess.threaded at threaded
  rcases Bool.or_eq_true _ _ |>.mp threaded with accepting | ending
  · rw [of_decide_eq_true accepting]
    rfl
  · rw [of_decide_eq_true (Bool.and_eq_true _ _ |>.mp ending).1]
    rfl

theorem removed_set {call : Nat} {before after : ExitCall}
    (found : process.calls[call]? = some before) (waiting : before.removal ≠ .done) :
    (∃ other ∈ process.calls.set call after, other.removal = .done) ↔
      after.removal = .done ∨ process.Removed := by
  have within := (List.getElem?_eq_some_iff.mp found).1
  constructor
  · rintro ⟨other, member, done⟩
    rcases List.mem_or_eq_of_mem_set member with old | same
    · exact Or.inr ⟨other, old, done⟩
    · exact Or.inl (same ▸ done)
  · rintro (done | ⟨other, member, done⟩)
    · exact ⟨after, List.mem_iff_getElem?.mpr ⟨call, List.getElem?_set_self within⟩, done⟩
    · obtain ⟨index, there⟩ := List.mem_iff_getElem?.mp member
      have differ : call ≠ index := by
        intro same
        rw [← same, found] at there
        exact waiting (Option.some.inj there ▸ done)
      refine ⟨other, List.mem_iff_getElem?.mpr ⟨index, ?_⟩, done⟩
      rw [List.getElem?_set_ne differ]
      exact there

theorem acts_remove (call : Nat) (ok : Bool) :
    Acts shared inUse process (process.remove shared call ok) := by
  have stays : process.Keeps process := Keeps.refl process
  unfold remove
  split
  · next status found =>
      split
      · cases ok || decide (shared.path = none) with
        | true =>
            apply Acts.removes
            · exact stays.elsewhere ⟨rfl, rfl, rfl, rfl, rfl, rfl, rfl⟩
            · exact (removed_set found nofun).mpr (Or.inl rfl)
        | false =>
            apply Acts.keeps
            refine ⟨rfl, rfl, rfl, rfl, fun _id held => held, id, id, id, ?_⟩
            exact (removed_set found nofun).trans (or_iff_right nofun)
      · exact Acts.keeps stays
  · exact Acts.keeps stays

theorem act_acts (wired : process.Wired) (action : Action) :
    Acts shared inUse process (process.act shared inUse action) := by
  cases action with
  | main ok ephemeral => exact acts_main ok ephemeral
  | hangup fd => exact Acts.keeps (keeps_hangup process fd)
  | log sends connects => exact Acts.keeps (keeps_log process sends connects)
  | signal signal => exact Acts.keeps (keeps_receive wired signal)
  | lockFails =>
      apply Acts.keeps
      split
      · next threaded => exact keeps_cleanUpAndExit (threaded_present threaded) .failure
      · exact Keeps.refl process
  | leaveLoop =>
      apply Acts.keeps
      split
      · next leaves =>
          exact keeps_cleanUpAndExit (threaded_present (Bool.and_eq_true _ _ |>.mp leaves).1) .success
      · exact Keeps.refl process
  | remove call ok => exact acts_remove call ok
  | exit call cancels => exact Acts.keeps (keeps_exit process call cancels)

end Acts

end ServerProcess

/-! ### Launches -/

def ServerProcess.SameLine (process other : ServerProcess) : Prop :=
  other.launch = process.launch ∧ other.posixlyCorrect = process.posixlyCorrect ∧
    other.args = process.args

/-- A process goes on as `next`, and may leave its work to a child. -/
structure ServerProcess.Succeeds (process next : ServerProcess) (child : Option ServerProcess) :
    Prop where
  line : process.SameLine next
  gone : process.phase.gone = true → next.phase.gone = true
  forked : process.phase.forked = true → next.phase.forked = true
  born : ∀ other ∈ child, process.SameLine other ∧ process.phase.gone = false ∧
    next.phase = .leaving

theorem ServerProcess.Acts.succeeds {shared : Shared} {inUse : Nat → Bool} {process : ServerProcess}
    {acted : Acted} (acts : ServerProcess.Acts shared inUse process acted) :
    process.Succeeds acted.process acted.child := by
  have childless : ∀ other ∈ (none : Option ServerProcess), process.SameLine other ∧
      process.phase.gone = false ∧ acted.process.phase = .leaving := by
    intro other member
    cases member
  cases acts with
  | keeps keeps | removes keeps =>
      exact ⟨⟨keeps.launch, keeps.posixlyCorrect, keeps.args⟩, keeps.gone, keeps.forked, childless⟩
  | opens phase | makes phase =>
      refine ⟨⟨rfl, rfl, rfl⟩, ?_, ?_, childless⟩
      · intro gone
        rw [phase] at gone
        cases gone
      · intro forked
        rw [phase] at forked
        cases forked
  | calls phase =>
      have present := Phase.present_of_call phase
      refine ⟨⟨rfl, rfl, rfl⟩, ?_, ?_, childless⟩
      · intro gone
        rw [present] at gone
        cases gone
      · intro forked
        rw [Phase.gone_of_forked forked] at present
        cases present
  | forks listens =>
      have present := Phase.present_of_listens listens
      refine ⟨⟨rfl, rfl, rfl⟩, fun _ => rfl, fun _ => rfl, ?_⟩
      intro other member
      rw [← Option.some.inj member]
      exact ⟨⟨rfl, rfl, rfl⟩, present, rfl⟩

/-- At most one process of a launch is there, and another one than the first only
when the first has forked. -/
structure Lineage (processes : List ServerProcess) : Prop where
  below : ∀ (pid : Nat) (process : ServerProcess), processes[pid]? = some process → process.launch ≤ pid
  line : ∀ (pid other : Nat) (process second : ServerProcess), processes[pid]? = some process →
    processes[other]? = some second → second.launch = process.launch → process.SameLine second
  single : ∀ (pid other : Nat) (process second : ServerProcess), processes[pid]? = some process →
    processes[other]? = some second → second.launch = process.launch → other ≠ pid →
    process.phase.gone = true ∨ second.phase.gone = true
  forked : ∀ (pid : Nat) (process : ServerProcess), processes[pid]? = some process → process.launch ≠ pid →
    ∃ first, processes[process.launch]? = some first ∧ first.phase.forked = true

section Lineage

variable {processes : List ServerProcess}

theorem lineage_nil : Lineage [] := by
  constructor
  · intro pid process found
    cases found
  · intro pid other process second found
    cases found
  · intro pid other process second found
    cases found
  · intro pid process found
    cases found

theorem getElem?_append_one {last process : ServerProcess} {pid : Nat}
    (found : (processes ++ [last])[pid]? = some process) :
    processes[pid]? = some process ∨ pid = processes.length ∧ process = last := by
  by_cases before : pid < processes.length
  · rw [List.getElem?_append_left before] at found
    exact Or.inl found
  · rw [List.getElem?_append_right (by omega)] at found
    have here : pid - processes.length = 0 := by
      by_contra beyond
      rw [List.getElem?_eq_none (by simp; omega)] at found
      cases found
    rw [here] at found
    exact Or.inr ⟨by omega, (Option.some.inj found).symm⟩

theorem getElem?_append_kept {process : ServerProcess} {pid : Nat}
    (found : processes[pid]? = some process) (later : List ServerProcess) :
    (processes ++ later)[pid]? = some process := by
  rw [List.getElem?_append_left (List.getElem?_eq_some_iff.mp found).1]
  exact found

theorem Lineage.launch (lineage : Lineage processes) {last : ServerProcess}
    (fresh : last.launch = processes.length) : Lineage (processes ++ [last]) := by
  have apart : ∀ (pid : Nat) (process : ServerProcess), processes[pid]? = some process →
      process.launch ≠ processes.length := by
    intro pid process found same
    have below := lineage.below pid process found
    have within := (List.getElem?_eq_some_iff.mp found).1
    omega
  constructor
  · intro pid process found
    rcases getElem?_append_one found with old | ⟨here, rfl⟩
    · exact lineage.below pid process old
    · omega
  · intro pid other process second found next same
    rcases getElem?_append_one found with old | ⟨_, rfl⟩
    · rcases getElem?_append_one next with oldNext | ⟨_, rfl⟩
      · exact lineage.line pid other process second old oldNext same
      · exact absurd (same.symm.trans fresh) (apart pid process old)
    · rcases getElem?_append_one next with oldNext | ⟨_, rfl⟩
      · exact absurd (same.trans fresh) (apart other second oldNext)
      · exact ⟨rfl, rfl, rfl⟩
  · intro pid other process second found next same differ
    rcases getElem?_append_one found with old | ⟨here, rfl⟩
    · rcases getElem?_append_one next with oldNext | ⟨_, rfl⟩
      · exact lineage.single pid other process second old oldNext same differ
      · exact absurd (same.symm.trans fresh) (apart pid process old)
    · rcases getElem?_append_one next with oldNext | ⟨there, rfl⟩
      · exact absurd (same.trans fresh) (apart other second oldNext)
      · exact absurd (there.trans here.symm) differ
  · intro pid process found differ
    rcases getElem?_append_one found with old | ⟨here, rfl⟩
    · obtain ⟨first, at_first, forked⟩ := lineage.forked pid process old differ
      exact ⟨first, getElem?_append_kept at_first _, forked⟩
    · exact absurd (fresh.trans here.symm) differ

variable {pid : Nat} {acting next : ServerProcess} {child : Option ServerProcess}

def acted (processes : List ServerProcess) (pid : Nat) (next : ServerProcess)
    (child : Option ServerProcess) : List ServerProcess :=
  processes.set pid next ++ child.toList

theorem acted_cases {other : Nat} {process : ServerProcess}
    (found : (acted processes pid next child)[other]? = some process) :
    other = pid ∧ process = next ∨ other ≠ pid ∧ processes[other]? = some process ∨
      other = processes.length ∧ child = some process := by
  unfold acted at found
  by_cases before : other < processes.length
  · rw [List.getElem?_append_left (by rw [List.length_set]; exact before)] at found
    by_cases same : pid = other
    · rw [same, List.getElem?_set_self before] at found
      exact Or.inl ⟨same.symm, (Option.some.inj found).symm⟩
    · rw [List.getElem?_set_ne same] at found
      exact Or.inr (Or.inl ⟨fun equal => same equal.symm, found⟩)
  · rw [List.getElem?_append_right (by rw [List.length_set]; omega), List.length_set] at found
    cases child with
    | none => cases found
    | some born =>
        have here : other - processes.length = 0 := by
          by_contra beyond
          rw [List.getElem?_eq_none (by simp; omega)] at found
          cases found
        rw [here] at found
        exact Or.inr (Or.inr ⟨by omega, found⟩)

theorem acted_self (found : processes[pid]? = some acting) :
    (acted processes pid next child)[pid]? = some next := by
  have within := (List.getElem?_eq_some_iff.mp found).1
  unfold acted
  rw [List.getElem?_append_left (by rw [List.length_set]; exact within),
    List.getElem?_set_self within]

theorem acted_other {other : Nat} {process : ServerProcess} (differ : other ≠ pid)
    (found : processes[other]? = some process) :
    (acted processes pid next child)[other]? = some process := by
  unfold acted
  rw [List.getElem?_append_left
      (by rw [List.length_set]; exact (List.getElem?_eq_some_iff.mp found).1),
    List.getElem?_set_ne (fun same => differ same.symm)]
  exact found

theorem ServerProcess.SameLine.trans {first second third : ServerProcess}
    (left : first.SameLine second) (right : second.SameLine third) : first.SameLine third :=
  ⟨right.1.trans left.1, right.2.1.trans left.2.1, right.2.2.trans left.2.2⟩

theorem ServerProcess.SameLine.symm {first second : ServerProcess}
    (line : first.SameLine second) : second.SameLine first :=
  ⟨line.1.symm, line.2.1.symm, line.2.2.symm⟩

/-- Every process comes from one that was there before, of the same launch. -/
theorem acted_origin (found : processes[pid]? = some acting)
    (succeeds : acting.Succeeds next child) {other : Nat} {process : ServerProcess}
    (after : (acted processes pid next child)[other]? = some process) :
    ∃ before old, before ≤ other ∧ processes[before]? = some old ∧ old.SameLine process := by
  have within := (List.getElem?_eq_some_iff.mp found).1
  rcases acted_cases after with ⟨rfl, rfl⟩ | ⟨_, old⟩ | ⟨rfl, born⟩
  · exact ⟨other, acting, Nat.le_refl other, found, succeeds.line⟩
  · exact ⟨other, process, Nat.le_refl other, old, ⟨rfl, rfl, rfl⟩⟩
  · exact ⟨pid, acting, Nat.le_of_lt within, found, (succeeds.born process born).1⟩

theorem Lineage.beside (lineage : Lineage processes) (found : processes[pid]? = some acting)
    (succeeds : acting.Succeeds next child) {other : Nat} {process : ServerProcess}
    (differ : other ≠ pid) (known : processes[other]? = some process)
    (same : process.launch = acting.launch) :
    process.phase.gone = true ∨ next.phase.gone = true ∧ child = none := by
  rcases lineage.single pid other acting process found known same differ with gone | gone
  · right
    refine ⟨succeeds.gone gone, ?_⟩
    cases child with
    | none => rfl
    | some born =>
        rw [(succeeds.born born rfl).2.1] at gone
        cases gone
  · exact Or.inl gone

theorem Lineage.act (lineage : Lineage processes) (found : processes[pid]? = some acting)
    (succeeds : acting.Succeeds next child) : Lineage (acted processes pid next child) := by
  constructor
  · intro other process after
    obtain ⟨before, old, within, known, line⟩ := acted_origin found succeeds after
    have below := lineage.below before old known
    rw [line.1]
    omega
  · intro first second process other afterFirst afterSecond same
    obtain ⟨before, old, _, known, line⟩ := acted_origin found succeeds afterFirst
    obtain ⟨beforeOther, oldOther, _, knownOther, lineOther⟩ :=
      acted_origin found succeeds afterSecond
    have between := lineage.line before beforeOther old oldOther known knownOther
      (by rw [← lineOther.1, same, line.1])
    exact line.symm.trans (between.trans lineOther)
  · intro first second process other afterFirst afterSecond same differ
    rcases acted_cases afterFirst with ⟨here, rfl⟩ | ⟨away, old⟩ | ⟨atEnd, born⟩
    · rcases acted_cases afterSecond with ⟨there, _⟩ | ⟨awayOther, oldOther⟩ | ⟨_, born⟩
      · exact absurd (there.trans here.symm) differ
      · have launch := same.trans succeeds.line.1
        exact (lineage.beside found succeeds awayOther oldOther launch).symm.imp_left And.left
      · rw [(succeeds.born other born).2.2]
        exact Or.inl rfl
    · rcases acted_cases afterSecond with ⟨_, rfl⟩ | ⟨_, oldOther⟩ | ⟨_, born⟩
      · have launch := same.symm.trans succeeds.line.1
        exact (lineage.beside found succeeds away old launch).imp_right And.left
      · exact lineage.single first second process other old oldOther same differ
      · have launch := same.symm.trans (succeeds.born other born).1.1
        rcases lineage.beside found succeeds away old launch with gone | ⟨_, childless⟩
        · exact Or.inl gone
        · rw [childless] at born
          cases born
    · rcases acted_cases afterSecond with ⟨_, rfl⟩ | ⟨awayOther, oldOther⟩ | ⟨there, _⟩
      · rw [(succeeds.born process born).2.2]
        exact Or.inr rfl
      · have launch := same.trans (succeeds.born process born).1.1
        rcases lineage.beside found succeeds awayOther oldOther launch with gone | ⟨_, childless⟩
        · exact Or.inr gone
        · rw [childless] at born
          cases born
      · exact absurd (there.trans atEnd.symm) differ
  · have stays : ∀ (launch : Nat) (first : ServerProcess), processes[launch]? = some first →
        first.phase.forked = true → ∃ later : ServerProcess, (acted processes pid next child)[launch]? = some later ∧
          later.phase.forked = true := by
      intro launch first known forked
      by_cases here : launch = pid
      · subst here
        rw [found] at known
        cases known
        exact ⟨next, acted_self found, succeeds.forked forked⟩
      · exact ⟨first, acted_other here known, forked⟩
    intro other process after differ
    rcases acted_cases after with ⟨rfl, rfl⟩ | ⟨_, old⟩ | ⟨_, born⟩
    · rw [succeeds.line.1] at differ ⊢
      obtain ⟨first, known, forked⟩ := lineage.forked other acting found differ
      exact stays _ first known forked
    · obtain ⟨first, known, forked⟩ := lineage.forked other process old differ
      exact stays _ first known forked
    · obtain ⟨line, _, leaving⟩ := succeeds.born process born
      rw [line.1]
      by_cases here : acting.launch = pid
      · rw [here]
        exact ⟨next, acted_self found, by rw [leaving]; rfl⟩
      · obtain ⟨first, known, forked⟩ := lineage.forked pid acting found here
        exact stays _ first known forked

end Lineage

/-! ### Ports -/

def ServerProcess.Holds (process : ServerProcess) (id : Nat) : Prop :=
  some (Target.socket id) ∈ process.fds

theorem ServerHost.inUse_iff (host : ServerHost) (id : Nat) :
    host.inUse id = true ↔ ∃ process ∈ host.processes, process.Holds id := by
  unfold ServerHost.inUse ServerProcess.Holds
  simp only [List.any_eq_true, decide_eq_true_eq]

/-- The port comes from the command line. -/
def ServerProcess.AskedFor (process : ServerProcess) (port : UInt16) : Prop :=
  ∃ options, parseArgs process.posixlyCorrect process.args = .options options ∧
    (options.port = port ∨ options.port = 0)

structure ServerHost.Sockets (host : ServerHost) : Prop where
  known : ∀ process ∈ host.processes, ∀ id, process.Holds id → id < host.shared.sockets.length
  family : ∀ process ∈ host.processes, ∀ other ∈ host.processes, ∀ id, process.Holds id →
    other.Holds id → process.SameLine other
  ports : ∀ first second one two port, host.inUse first = true → host.inUse second = true →
    host.shared.sockets[first]? = some one → host.shared.sockets[second]? = some two →
    one.listening = true → two.listening = true → one.port = some port → two.port = some port →
    first = second
  asked : ∀ process ∈ host.processes, ∀ id socket port, process.Holds id →
    host.shared.sockets[id]? = some socket → socket.port = some port → process.AskedFor port
  ready : ∀ process ∈ host.processes, process.phase.listens = true → ∀ id, process.Holds id →
    ∃ socket, host.shared.sockets[id]? = some socket ∧ socket.listening = true ∧ socket.port ≠ none

theorem ServerProcess.AskedFor.line {process other : ServerProcess} {port : UInt16}
    (asked : process.AskedFor port) (line : process.SameLine other) : other.AskedFor port := by
  unfold ServerProcess.AskedFor at asked ⊢
  rw [line.2.1, line.2.2]
  exact asked

section Sockets

variable {host : ServerHost}

def ServerProcess.Inherits (process next : ServerProcess) : Prop :=
  process.SameLine next ∧ (∀ id, next.Holds id → process.Holds id) ∧
    (next.phase.listens = true → process.phase.listens = true)

theorem ServerProcess.Inherits.refl (process : ServerProcess) : process.Inherits process :=
  ⟨⟨rfl, rfl, rfl⟩, fun _id held => held, id⟩

theorem ServerHost.Sockets.inherited (sockets : host.Sockets) {after : ServerHost}
    (same : after.shared.sockets = host.shared.sockets)
    (inherits : ∀ next ∈ after.processes, ∃ process ∈ host.processes, process.Inherits next) :
    after.Sockets := by
  have used : ∀ id, after.inUse id = true → host.inUse id = true := by
    intro id inUse
    obtain ⟨next, present, held⟩ := (after.inUse_iff id).mp inUse
    obtain ⟨process, member, inherits⟩ := inherits next present
    exact (host.inUse_iff id).mpr ⟨process, member, inherits.2.1 id held⟩
  constructor
  · intro next present id held
    obtain ⟨process, member, inherits⟩ := inherits next present
    rw [same]
    exact sockets.known process member id (inherits.2.1 id held)
  · intro first presentFirst second presentSecond id heldFirst heldSecond
    obtain ⟨process, member, line, holds, _⟩ := inherits first presentFirst
    obtain ⟨other, memberOther, lineOther, holdsOther, _⟩ := inherits second presentSecond
    have between := sockets.family process member other memberOther id (holds id heldFirst)
      (holdsOther id heldSecond)
    exact line.symm.trans (between.trans lineOther)
  · intro first second one two port usedFirst usedSecond
    rw [same]
    exact sockets.ports first second one two port (used first usedFirst) (used second usedSecond)
  · intro next present id socket port held
    obtain ⟨process, member, line, holds, _⟩ := inherits next present
    rw [same]
    intro found bound
    exact (sockets.asked process member id socket port (holds id held) found bound).line line
  · intro next present listens id held
    obtain ⟨process, member, _, holds, listened⟩ := inherits next present
    rw [same]
    exact sockets.ready process member (listened listens) id (holds id held)

theorem mem_acted {processes : List ServerProcess} {pid : Nat} {next : ServerProcess}
    {child : Option ServerProcess} {process : ServerProcess}
    (member : process ∈ acted processes pid next child) :
    process ∈ processes ∨ process = next ∨ child = some process := by
  rcases List.mem_append.mp member with old | born
  · exact (List.mem_or_eq_of_mem_set old).imp_right Or.inl
  · exact Or.inr (Or.inr (Option.mem_toList.mp born))

variable {pid : Nat} {acting : ServerProcess}

theorem ServerHost.Sockets.makes (sockets : host.Sockets)
    (found : host.processes[pid]? = some acting) :
    ServerHost.Sockets
      { shared := (acting.socket host.shared true).shared
        processes := acted host.processes pid (acting.socket host.shared true).process none } := by
  have member := List.mem_of_getElem? found
  have holds : ∀ next ∈ acted host.processes pid (acting.socket host.shared true).process none,
      ∀ id, next.Holds id → id = host.shared.sockets.length ∧ acting.SameLine next ∨
        ∃ process ∈ host.processes, process.SameLine next ∧ process.Holds id := by
    intro next present id held
    rcases mem_acted present with old | same | born
    · exact Or.inr ⟨next, old, ⟨rfl, rfl, rfl⟩, held⟩
    · rw [same] at held ⊢
      rcases Slots.mem_put held with fresh | before
      · exact Or.inl ⟨Target.socket.inj fresh, ⟨rfl, rfl, rfl⟩⟩
      · exact Or.inr ⟨acting, member, ⟨rfl, rfl, rfl⟩, before⟩
    · cases born
  have early : ∀ process ∈ host.processes, ∀ id, process.Holds id →
      (acting.socket host.shared true).shared.sockets[id]? = host.shared.sockets[id]? := by
    intro process present id held
    exact List.getElem?_append_left (sockets.known process present id held)
  have silent : ∀ socket, (acting.socket host.shared true).shared.sockets[
      host.shared.sockets.length]? = some socket →
      socket.listening = false ∧ socket.port = none := by
    intro socket atEnd
    have last : (host.shared.sockets ++ [{ reuse := false, port := none, listening := false }])[
        host.shared.sockets.length]? = some socket := atEnd
    rw [List.getElem?_concat_length] at last
    rw [← Option.some.inj last]
    exact ⟨rfl, rfl⟩
  constructor
  · intro next present id held
    have grown : (acting.socket host.shared true).shared.sockets.length =
        host.shared.sockets.length + 1 := List.length_append
    dsimp only
    rw [grown]
    rcases holds next present id held with ⟨fresh, _⟩ | ⟨process, old, _, before⟩
    · omega
    · exact Nat.lt_succ_of_lt (sockets.known process old id before)
  · intro first presentFirst second presentSecond id heldFirst heldSecond
    rcases holds first presentFirst id heldFirst with ⟨fresh, line⟩ | ⟨process, old, line, before⟩
    · rcases holds second presentSecond id heldSecond with ⟨_, lineOther⟩ | ⟨other, oldOther, _, late⟩
      · exact line.symm.trans lineOther
      · have bound := sockets.known other oldOther id late
        omega
    · rcases holds second presentSecond id heldSecond with ⟨fresh, _⟩ |
        ⟨other, oldOther, lineOther, late⟩
      · have bound := sockets.known process old id before
        omega
      · have between := sockets.family process old other oldOther id before late
        exact line.symm.trans (between.trans lineOther)
  · intro first second one two port usedFirst usedSecond foundFirst foundSecond listensFirst
      listensSecond portFirst portSecond
    have old : ∀ id socket, ServerHost.inUse
        { shared := (acting.socket host.shared true).shared
          processes := acted host.processes pid (acting.socket host.shared true).process none }
        id = true → (acting.socket host.shared true).shared.sockets[id]? = some socket →
        socket.listening = true →
        host.inUse id = true ∧ host.shared.sockets[id]? = some socket := by
      intro id socket used there listens
      obtain ⟨next, present, held⟩ := (ServerHost.inUse_iff _ id).mp used
      rcases holds next present id held with ⟨fresh, _⟩ | ⟨process, old, _, before⟩
      · rw [fresh] at there
        rw [(silent socket there).1] at listens
        cases listens
      · rw [early process old id before] at there
        exact ⟨(host.inUse_iff id).mpr ⟨process, old, before⟩, there⟩
    obtain ⟨usedOne, thereOne⟩ := old first one usedFirst foundFirst listensFirst
    obtain ⟨usedTwo, thereTwo⟩ := old second two usedSecond foundSecond listensSecond
    exact sockets.ports first second one two port usedOne usedTwo thereOne thereTwo listensFirst
      listensSecond portFirst portSecond
  · intro next present id socket port held there bound
    rcases holds next present id held with ⟨fresh, _⟩ | ⟨process, old, line, before⟩
    · rw [fresh] at there
      rw [(silent socket there).2] at bound
      cases bound
    · have here := (early process old id before).symm.trans there
      exact (sockets.asked process old id socket port before here bound).line line
  · intro next present listens id held
    rcases mem_acted present with old | same | born
    · dsimp only
      rw [early next old id held]
      exact sockets.ready next old listens id held
    · rw [same] at listens
      cases listens
    · cases born

theorem getElem?_set_cases {sockets : List Socket} {id other : Nat} {old new socket : Socket}
    (found : sockets[id]? = some old) (after : (sockets.set id new)[other]? = some socket) :
    other = id ∧ socket = new ∨ other ≠ id ∧ sockets[other]? = some socket := by
  by_cases same : id = other
  · subst same
    rw [List.getElem?_set_self (List.getElem?_eq_some_iff.mp found).1] at after
    exact Or.inl ⟨rfl, (Option.some.inj after).symm⟩
  · rw [List.getElem?_set_ne same] at after
    exact Or.inr ⟨fun equal => same equal.symm, after⟩

theorem ServerProcess.Filled.one_socket {process : ServerProcess} (filled : process.Filled)
    {first second : Nat} (heldFirst : process.Holds first) (heldSecond : process.Holds second) :
    first = second := by
  obtain ⟨_, _, node, id, _, table⟩ := filled
  have only : ∀ other, process.Holds other → other = id := by
    intro other held
    unfold ServerProcess.Holds at held
    rw [table] at held
    rcases Slots.mem_put held with same | inFile
    · exact Target.socket.inj same
    · rcases Slots.mem_put inFile with impossible | atStart
      · cases impossible
      · rcases ServerProcess.mem_startTable atStart with impossible | impossible
        · cases impossible
        · cases impossible
  rw [only first heldFirst, only second heldSecond]

theorem ServerProcess.Wired.filled {process : ServerProcess} (wired : process.Wired)
    (phase : process.phase = .setsockopt ∨ process.phase = .bind ∨ process.phase = .listen) :
    process.Filled := by
  unfold ServerProcess.Wired at wired
  rcases phase with here | here | here
  all_goals
    rw [here] at wired
    exact wired

theorem ServerProcess.SocketCall.stays {shared : Shared} {inUse : Nat → Bool} {options : Options}
    {id : Nat} {old new : Socket} (call : ServerProcess.SocketCall shared inUse options id old new)
    (listening : old.listening = true) (bound : old.port ≠ none) :
    new.listening = true ∧ new.port ≠ none := by
  cases call with
  | tunes port kept =>
      rw [kept, port]
      exact ⟨listening, bound⟩
  | claims port claimed kept =>
      rw [claimed]
      exact ⟨kept listening, Option.some_ne_none port⟩

theorem ServerProcess.SocketCall.asked {shared : Shared} {inUse : Nat → Bool}
    {process : ServerProcess} {id : Nat} {old new : Socket} {port : UInt16}
    (call : ServerProcess.SocketCall shared inUse process.options id old new)
    (before : old.port = some port → process.AskedFor port) (parsed : process.Parsed)
    (bound : new.port = some port) : process.AskedFor port := by
  cases call with
  | tunes same => exact before (same.symm.trans bound)
  | claims claimedPort claimed _ origin =>
      rw [claimed] at bound
      cases bound
      rcases origin with kept | ⟨_, asked⟩
      · exact before kept
      · exact ⟨process.options, parsed, asked⟩

theorem ServerHost.Sockets.calls (sockets : host.Sockets) (wired : acting.Wired)
    (found : host.processes[pid]? = some acting) {id : Nat} {old new : Socket} {next : Phase}
    (phase : acting.phase = .setsockopt ∨ acting.phase = .bind ∨ acting.phase = .listen)
    (held : acting.Holds id) (atId : host.shared.sockets[id]? = some old)
    (call : ServerProcess.SocketCall host.shared host.inUse acting.options id old new)
    (ready : next.listens = true → new.listening = true ∧ new.port ≠ none) :
    ServerHost.Sockets
      { shared := { host.shared with sockets := host.shared.sockets.set id new }
        processes := acted host.processes pid { acting with phase := next } none } := by
  have member := List.mem_of_getElem? found
  have within := (List.getElem?_eq_some_iff.mp atId).1
  have filled := wired.filled phase
  have parsed : acting.Parsed := by
    obtain ⟨_, _, node, id, numbered, _⟩ := filled
    exact numbered.1
  have clash : ∀ other socket port, other ≠ id → host.inUse other = true →
      host.shared.sockets[other]? = some socket → socket.listening = true →
      socket.port = some port → ¬(new.listening = true ∧ new.port = some port) := by
    intro other socket port away inUse there listens bound
    rintro ⟨newListens, newBound⟩
    cases call with
    | tunes samePort sameListening =>
        exact away (sockets.ports other id socket old port inUse
          ((host.inUse_iff id).mpr ⟨acting, member, held⟩) there atId listens
          (sameListening.symm.trans newListens) bound (samePort.symm.trans newBound))
    | claims claimedPort claimed _ _ alone =>
        rw [claimed] at newBound
        cases newBound
        rw [alone other socket away inUse there bound] at listens
        cases listens
  have before : ∀ process ∈ acted host.processes pid { acting with phase := next } none,
      ∃ other ∈ host.processes, other.SameLine process ∧ ∀ id, process.Holds id → other.Holds id := by
    intro process present
    rcases mem_acted present with old | same | born
    · exact ⟨process, old, ⟨rfl, rfl, rfl⟩, fun _id held => held⟩
    · rw [same]
      exact ⟨acting, member, ⟨rfl, rfl, rfl⟩, fun _id held => held⟩
    · cases born
  have used : ∀ other, ServerHost.inUse
      { shared := { host.shared with sockets := host.shared.sockets.set id new }
        processes := acted host.processes pid { acting with phase := next } none }
      other = true → host.inUse other = true := by
    intro other inUse
    obtain ⟨process, present, held⟩ := (ServerHost.inUse_iff _ other).mp inUse
    obtain ⟨origin, there, _, holds⟩ := before process present
    exact (host.inUse_iff other).mpr ⟨origin, there, holds other held⟩
  constructor
  · intro process present other held
    obtain ⟨origin, there, _, holds⟩ := before process present
    dsimp only
    rw [List.length_set]
    exact sockets.known origin there other (holds other held)
  · intro first presentFirst second presentSecond other heldFirst heldSecond
    obtain ⟨one, memberOne, lineOne, holdsOne⟩ := before first presentFirst
    obtain ⟨two, memberTwo, lineTwo, holdsTwo⟩ := before second presentSecond
    have between := sockets.family one memberOne two memberTwo other (holdsOne other heldFirst)
      (holdsTwo other heldSecond)
    exact lineOne.symm.trans (between.trans lineTwo)
  · intro first second one two port usedFirst usedSecond foundFirst foundSecond listensFirst
      listensSecond portFirst portSecond
    rcases getElem?_set_cases atId foundFirst with ⟨rfl, rfl⟩ | ⟨awayFirst, oldFirst⟩
    · rcases getElem?_set_cases atId foundSecond with ⟨rfl, _⟩ | ⟨awaySecond, oldSecond⟩
      · rfl
      · exact absurd ⟨listensFirst, portFirst⟩
          (clash second two port awaySecond (used second usedSecond) oldSecond listensSecond portSecond)
    · rcases getElem?_set_cases atId foundSecond with ⟨rfl, rfl⟩ | ⟨_, oldSecond⟩
      · exact absurd ⟨listensSecond, portSecond⟩
          (clash first one port awayFirst (used first usedFirst) oldFirst listensFirst portFirst)
      · exact sockets.ports first second one two port (used first usedFirst)
          (used second usedSecond) oldFirst oldSecond listensFirst listensSecond portFirst portSecond
  · intro process present other socket port heldOther there bound
    obtain ⟨origin, memberOrigin, line, holds⟩ := before process present
    rcases getElem?_set_cases atId there with ⟨rfl, rfl⟩ | ⟨_, oldSocket⟩
    · have family := sockets.family acting member origin memberOrigin other held
        (holds other heldOther)
      exact (call.asked (sockets.asked acting member other old port held atId) parsed bound).line
        (family.trans line)
    · exact (sockets.asked origin memberOrigin other socket port (holds other heldOther) oldSocket
        bound).line line
  · intro process present listens other heldOther
    dsimp only
    rcases mem_acted present with oldProcess | same | born
    · obtain ⟨socket, there, listening, bound⟩ :=
        sockets.ready process oldProcess listens other heldOther
      by_cases same : other = id
      · subst same
        rw [atId] at there
        cases there
        exact ⟨new, List.getElem?_set_self within, call.stays listening bound⟩
      · rw [List.getElem?_set_ne (fun equal => same equal.symm)]
        exact ⟨socket, there, listening, bound⟩
    · rw [same] at listens heldOther
      have only : other = id := filled.one_socket heldOther held
      rw [only]
      exact ⟨new, List.getElem?_set_self within, ready listens⟩
    · cases born

theorem ServerHost.Sockets.act (sockets : host.Sockets) (wired : acting.Wired)
    (found : host.processes[pid]? = some acting) {result : Acted}
    (acts : ServerProcess.Acts host.shared host.inUse acting result) :
    ServerHost.Sockets
      { shared := result.shared
        processes := acted host.processes pid result.process result.child } := by
  have member := List.mem_of_getElem? found
  have hands : result.shared.sockets = host.shared.sockets → acting.Inherits result.process →
      (∀ other ∈ result.child, acting.Inherits other) →
      ServerHost.Sockets
        { shared := result.shared
          processes := acted host.processes pid result.process result.child } := by
    intro same next born
    apply sockets.inherited same
    intro process present
    rcases mem_acted present with old | rfl | child
    · exact ⟨process, old, ServerProcess.Inherits.refl process⟩
    · exact ⟨acting, member, next⟩
    · exact ⟨acting, member, born process child⟩
  cases acts with
  | keeps keeps | removes keeps =>
      apply hands rfl
      · exact ⟨⟨keeps.launch, keeps.posixlyCorrect, keeps.args⟩, keeps.sockets, keeps.listens⟩
      · intro other born
        cases born
  | opens phase =>
      apply hands rfl
      · refine ⟨⟨rfl, rfl, rfl⟩, ?_, ?_⟩
        · intro id held
          rcases Slots.mem_put held with impossible | before
          · cases impossible
          · exact before
        · intro listens
          cases listens
      · intro other born
        cases born
  | makes phase => exact sockets.makes found
  | calls phase held atId call _ ready => exact sockets.calls wired found phase held atId call ready
  | forks listens =>
      apply hands rfl
      · refine ⟨⟨rfl, rfl, rfl⟩, fun _id held => held, ?_⟩
        intro impossible
        cases impossible
      · intro other born
        rw [← Option.some.inj born]
        exact ⟨⟨rfl, rfl, rfl⟩, fun _id held => held, fun _ => listens⟩

theorem ServerHost.Sockets.launch (sockets : host.Sockets) (posixlyCorrect : Bool)
    (args : List Bytes) (inherited : List Bool) :
    (host.step (.launch posixlyCorrect args inherited)).Sockets := by
  have empty : ∀ launch id, ¬(ServerProcess.launched launch posixlyCorrect args inherited).Holds id := by
    intro launch id held
    cases ServerProcess.mem_launchFds held
  have old : ∀ process ∈ (host.step (.launch posixlyCorrect args inherited)).processes, ∀ id,
      process.Holds id → process ∈ host.processes := by
    intro process present id held
    rcases List.mem_append.mp present with before | new
    · exact before
    · rw [List.mem_singleton.mp new] at held
      exact absurd held (empty _ id)
  have used : ∀ id, (host.step (.launch posixlyCorrect args inherited)).inUse id = true →
      host.inUse id = true := by
    intro id inUse
    obtain ⟨process, present, held⟩ := (ServerHost.inUse_iff _ id).mp inUse
    exact (host.inUse_iff id).mpr ⟨process, old process present id held, held⟩
  constructor
  · intro process present id held
    exact sockets.known process (old process present id held) id held
  · intro first presentFirst second presentSecond id heldFirst heldSecond
    exact sockets.family first (old first presentFirst id heldFirst) second
      (old second presentSecond id heldSecond) id heldFirst heldSecond
  · intro first second one two port usedFirst usedSecond
    exact sockets.ports first second one two port (used first usedFirst) (used second usedSecond)
  · intro process present id socket port held
    exact sockets.asked process (old process present id held) id socket port held
  · intro process present listens id held
    exact sockets.ready process (old process present id held) listens id held

end Sockets

/-! ### Every run -/

structure ServerHost.Orderly (host : ServerHost) : Prop where
  wired : ∀ process ∈ host.processes, process.Wired
  lineage : Lineage host.processes
  sockets : host.Sockets

theorem orderly_booted : ServerHost.booted.Orderly := by
  refine ⟨?_, lineage_nil, ⟨?_, ?_, ?_, ?_, ?_⟩⟩
  · intro process member
    cases member
  · intro process member
    cases member
  · intro process member
    cases member
  · intro first second one two port used
    cases used
  · intro process member
    cases member
  · intro process member
    cases member

theorem ServerHost.Orderly.step {host : ServerHost} (orderly : host.Orderly)
    (event : ServiceEvent) : (host.step event).Orderly := by
  have wired := ServerHost.forall_step ServerProcess.wired_launched ServerProcess.wired_act
    orderly.wired event
  cases event with
  | launch posixlyCorrect args inherited =>
      exact ⟨wired, orderly.lineage.launch rfl, orderly.sockets.launch posixlyCorrect args inherited⟩
  | act pid action =>
      cases found : host.processes[pid]? with
      | none =>
          rw [ServerHost.step_absent found]
          exact orderly
      | some acting =>
          have here := orderly.wired acting (List.mem_of_getElem? found)
          have acts := @ServerProcess.act_acts acting host.shared host.inUse here action
          rw [ServerHost.step_act found] at wired ⊢
          exact ⟨wired, orderly.lineage.act found acts.succeeds, orderly.sockets.act here found acts⟩

theorem orderly_run (events : List ServiceEvent) : (ServerHost.booted.run events).Orderly := by
  induction events using List.reverseRecOn with
  | nil => exact orderly_booted
  | append_singleton before event ih =>
      rw [ServerHost.run, List.foldl_append]
      exact ih.step event

def ServerHost.Serves (host : ServerHost) (pid : Nat) (port : UInt16) : Prop :=
  ∃ process id socket, host.processes[pid]? = some process ∧ process.phase = .accepting ∧
    process.socketId = some id ∧ host.shared.sockets[id]? = some socket ∧
    socket.listening = true ∧ socket.port = some port

/-- A port is served once, a launch is one server or none, a server listens where its
command line says, and a launch that has failed leaves nobody behind. -/
theorem one_server_per_port (events : List ServiceEvent) :
    let host := ServerHost.booted.run events
    (∀ first second port, host.Serves first port → host.Serves second port → first = second) ∧
      (∀ (first second : Nat) (process other : ServerProcess),
        host.processes[first]? = some process → host.processes[second]? = some other →
        process.phase = .accepting → other.phase = .accepting → other.launch = process.launch →
        second = first) ∧
      (∀ (pid : Nat) (process : ServerProcess), host.processes[pid]? = some process →
        process.phase = .accepting → process.socketId ≠ none →
        ∃ port, host.Serves pid port ∧ process.AskedFor port) ∧
      ∀ (launch : Nat) (process : ServerProcess), host.processes[launch]? = some process →
        process.phase = .exited .failure ∨ process.phase = .left .failure ∨
          process.phase = .crashed →
        ∀ (pid : Nat) (other : ServerProcess), host.processes[pid]? = some other →
          other.launch = launch → pid = launch := by
  intro host
  obtain ⟨_, lineage, sockets⟩ := orderly_run events
  have apart : ∀ (first second : Nat) (process other : ServerProcess),
      host.processes[first]? = some process → host.processes[second]? = some other →
      process.phase = .accepting → other.phase = .accepting → other.launch = process.launch →
      second = first := by
    intro first second process other found foundOther accepting acceptingOther same
    by_contra differ
    rcases lineage.single first second process other found foundOther same differ with gone | gone
    · rw [accepting] at gone
      cases gone
    · rw [acceptingOther] at gone
      cases gone
  refine ⟨?_, apart, ?_, ?_⟩
  · rintro first second port ⟨process, id, socket, found, accepting, atFd, there, listening, bound⟩
      ⟨other, idOther, socketOther, foundOther, acceptingOther, atFdOther, thereOther,
        listeningOther, boundOther⟩
    have member := List.mem_of_getElem? found
    have memberOther := List.mem_of_getElem? foundOther
    have holds := ServerProcess.socketId_mem atFd
    have holdsOther := ServerProcess.socketId_mem atFdOther
    have same : id = idOther := sockets.ports id idOther socket socketOther port
      ((host.inUse_iff id).mpr ⟨process, member, holds⟩)
      ((host.inUse_iff idOther).mpr ⟨other, memberOther, holdsOther⟩)
      there thereOther listening listeningOther bound boundOther
    subst same
    have line := sockets.family process member other memberOther id holds holdsOther
    exact (apart first second process other found foundOther accepting acceptingOther line.1).symm
  · intro pid process found accepting kept
    obtain ⟨id, atFd⟩ := Option.ne_none_iff_exists'.mp kept
    have member := List.mem_of_getElem? found
    have holds := ServerProcess.socketId_mem atFd
    obtain ⟨socket, there, listening, bound⟩ :=
      sockets.ready process member (by rw [accepting]; rfl) id holds
    obtain ⟨port, atPort⟩ := Option.ne_none_iff_exists'.mp bound
    exact ⟨port, ⟨process, id, socket, found, accepting, atFd, there, listening, atPort⟩,
      sockets.asked process member id socket port holds there atPort⟩
  · intro launch process found failed pid other foundOther line
    by_contra differ
    obtain ⟨first, foundFirst, forked⟩ :=
      lineage.forked pid other foundOther (fun same => differ (same.symm.trans line))
    rw [line, found] at foundFirst
    cases foundFirst
    rcases failed with here | here | here
    all_goals
      rw [here] at forked
      cases forked

def twoLaunches : List ServiceEvent :=
  .launch false [] [true, true, true] :: List.replicate 9 (.act 0 (.main true 0)) ++
    .launch false [[45, 112, 57, 48, 48, 48]] [true, true, true] ::
      List.replicate 6 (.act 1 (.main true 0))

def firstServer : ServerProcess :=
  { launch := 0
    posixlyCorrect := false
    args := []
    inherited := [true, true, true]
    options := { port := 9000, daemonize := false }
    serverFd := 0
    fileFd := 4
    mainServerFd := 5
    fds := [some .inherited, some .inherited, some .inherited, some .log, some (.file .device),
      some (.socket 0)]
    logged := true
    logFd := some 3
    opened := some .device
    sigintCaught := true
    sigtermCaught := true
    calls := []
    phase := .accepting }

theorem one_server_per_port_twoLaunches :
    (ServerHost.booted.run twoLaunches).Serves 0 9000 ∧
      ∀ pid, (ServerHost.booted.run twoLaunches).Serves pid 9000 → pid = 0 := by
  have serves : (ServerHost.booted.run twoLaunches).Serves 0 9000 := by
    refine ⟨firstServer, 0, { reuse := true, port := some 9000, listening := true }, ?_, rfl, rfl, ?_,
      rfl, rfl⟩
    · decide +kernel
    · decide +kernel
  refine ⟨serves, ?_⟩
  intro pid other
  exact (one_server_per_port twoLaunches).1 pid 0 9000 other serves

end Aesd.Server
