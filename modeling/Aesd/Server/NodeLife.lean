/-
The nodes of the list of connections (aesdsocket.c).

`main` makes a node for each connection, the thread of the connection uses it,
and whoever walks the list under `connections_lock` frees it. A node is used
only while it is in the list or still in the hand of `main`; what is freed is
not used again, not even when a signal arrives in the middle of a walk.
-/

import Aesd.Server.ShutdownProgress

namespace Aesd.Server

open Driver

/-! ### Code under the lock -/

/-- What code under `connections_lock` has still to do with the list. -/
inductive Hold where
  | walk (nodes : List Nat)
  | removing (conn : Nat) (rest : List Nat)
  | inserting (conn : Nat)
  deriving DecidableEq, Repr

def Collect.hold : Collect → Option Hold
  | .lock => none
  | .visit rest => some (.walk rest)
  | .join conn rest => some (.walk (conn :: rest))
  | .remove conn rest => some (.removing conn rest)
  | .unlock => some (.walk [])

def CleanUp.hold : CleanUp → Option Hold
  | .collect place => place.hold
  | _ => none

def MainPlace.hold : MainPlace → Option Hold
  | .insert conn => some (.inserting conn)
  | .insertUnlock => some (.walk [])
  | .collect place => place.hold
  | .cleanUp place => place.hold
  | _ => none

def Program.hold : Program → Option Hold
  | .main place => place.hold
  | _ => none

def Thread.holds (thread : Thread) : List Hold :=
  thread.handlers.filterMap (fun handler => handler.place.hold) ++ thread.program.hold.toList

/-- The node that `main` has made and not inserted yet. -/
def MainPlace.hand : MainPlace → Option Nat
  | .insertLock conn => some conn
  | .insert conn => some conn
  | _ => none

def Program.hand : Program → Option Nat
  | .main place => place.hand
  | _ => none

/-- The part of a process that the nodes depend on. -/
structure NodeState where
  lock : Option Nat
  connections : List Nat
  hand : Option Nat
  created : Nat

def Process.nodes (process : Process) : NodeState :=
  { lock := process.connectionsLock
    connections := process.connections
    hand := (process.thread mainThread).program.hand
    created := process.created }

def NodeState.Live (state : NodeState) (conn : Nat) : Prop :=
  conn ∈ state.connections ∨ state.hand = some conn

def Thread.Over (thread : Thread) : Prop :=
  thread.program.terminates = true ∨ thread.handlers ≠ []

def Thread.Serves (thread : Thread) : Prop :=
  thread.handlers = [] ∧ ∃ atLoop conn, thread.program = .connection atLoop conn

/-! ### What a step does to the nodes -/

/-- A step of thread `tid` from a place with the first hold to one with the second. -/
inductive NodeMove (process : Process) (tid : Nat) :
    NodeState → Option Hold → NodeState → Option Hold → Prop where
  | stays (state : NodeState) (hold : Option Hold) : NodeMove process tid state hold state hold
  | passes (state : NodeState) {nodes later : List Nat} (fewer : later.Sublist nodes) :
      NodeMove process tid state (some (.walk nodes)) state (some (.walk later))
  | takes (state : NodeState) (free : state.lock = none) :
      NodeMove process tid state none { state with lock := some tid }
        (some (.walk state.connections))
  | grabs (state : NodeState) (conn : Nat) (free : state.lock = none) :
      NodeMove process tid state none { state with lock := some tid } (some (.inserting conn))
  | joins (state : NodeState) (conn : Nat) (rest : List Nat)
      (returns : (process.thread (connectionThread conn)).program.terminates = true ∨
        connectionThread conn = tid) :
      NodeMove process tid state (some (.walk (conn :: rest))) state (some (.removing conn rest))
  | removes (state : NodeState) (conn : Nat) (rest : List Nat) :
      NodeMove process tid state (some (.removing conn rest))
        { state with connections := state.connections.erase conn } (some (.walk rest))
  | inserts (state : NodeState) (conn : Nat) (made : state.hand = some conn) :
      NodeMove process tid state (some (.inserting conn))
        { state with connections := conn :: state.connections, hand := none } (some (.walk []))
  | releases (state : NodeState) :
      NodeMove process tid state (some (.walk [])) { state with lock := none } none
  | creates (state : NodeState) (idle : state.hand = none) :
      NodeMove process tid state none
        { state with hand := some state.created, created := state.created + 1 } none

def holdBehind : Option Collect → Option Hold
  | none => none
  | some place => place.hold

theorem CleanUp.hold_behind (behind : Option Collect) :
    (behind.elim CleanUp.exit CleanUp.collect).hold = holdBehind behind := by
  cases behind <;> rfl

theorem MainPlace.hold_behind (behind : Option Collect) :
    (behind.elim MainPlace.loop MainPlace.collect).hold = holdBehind behind := by
  cases behind <;> rfl

theorem MainPlace.hand_behind (behind : Option Collect) :
    (behind.elim MainPlace.loop MainPlace.collect).hand = none := by
  cases behind <;> rfl

def Process.nodesWith (process : Process) (hand : Option Nat) : NodeState :=
  { process.nodes with hand := hand }

section Moves

variable (process : Process) (tid : Nat)

theorem collectCompleteThreads_moves (place : Collect) (hand : Option Nat) :
    NodeMove process tid (process.nodesWith hand) place.hold
      ((process.collectCompleteThreads tid place).1.nodesWith hand)
      (holdBehind (process.collectCompleteThreads tid place).2) := by
  cases place with
  | lock =>
      by_cases free : process.connectionsLock = none
      · simp only [Process.collectCompleteThreads, if_pos free]
        exact NodeMove.takes (process.nodesWith hand) free
      · simp only [Process.collectCompleteThreads, if_neg free]
        exact NodeMove.stays _ _
  | visit rest =>
      cases rest with
      | nil => exact NodeMove.stays _ _
      | cons conn rest =>
          by_cases complete : process.threadComplete conn = true
          · simp only [Process.collectCompleteThreads, if_pos complete]
            exact NodeMove.stays _ _
          · simp only [Process.collectCompleteThreads, if_neg complete]
            exact NodeMove.passes _ (List.sublist_cons_self conn rest)
  | join conn rest =>
      by_cases returns : (process.thread (connectionThread conn)).program.terminates = true ∨
          connectionThread conn = tid
      · simp only [Process.collectCompleteThreads, if_pos returns]
        exact NodeMove.joins _ conn rest returns
      · simp only [Process.collectCompleteThreads, if_neg returns]
        exact NodeMove.stays _ _
  | remove conn rest => exact NodeMove.removes (process.nodesWith hand) conn rest
  | unlock => exact NodeMove.releases (process.nodesWith hand)

theorem cleanUpAndExit_moves (place : CleanUp) (hand : Option Nat) :
    NodeMove process tid (process.nodesWith hand) place.hold
      ((process.cleanUpAndExit tid place).1.nodesWith hand)
      (process.cleanUpAndExit tid place).2.hold := by
  cases place with
  | enter => exact NodeMove.stays _ _
  | collect place =>
      simp only [Process.cleanUpAndExit, CleanUp.hold_behind]
      exact collectCompleteThreads_moves process tid place hand
  | exit => exact NodeMove.stays _ _

theorem mainStep_moves (ret : Ret) (place : MainPlace) :
    NodeMove process tid (process.nodesWith place.hand) place.hold
      ((process.mainStep tid ret place).1.nodesWith (process.mainStep tid ret place).2.hand)
      (process.mainStep tid ret place).2.hold := by
  cases place with
  | loop =>
      unfold Process.mainStep
      dsimp only
      split <;> exact NodeMove.stays _ _
  | accept =>
      unfold Process.mainStep
      dsimp only
      split <;> exact NodeMove.stays _ _
  | create =>
      by_cases success : ret.value = 0
      · simp only [Process.mainStep, success, ne_eq, not_true_eq_false, if_false]
        exact NodeMove.creates (process.nodesWith none) rfl
      · simp only [Process.mainStep, ne_eq, success, not_false_eq_true, if_true]
        exact NodeMove.stays _ _
  | insertLock conn =>
      by_cases free : process.connectionsLock = none
      · simp only [Process.mainStep, if_pos free]
        exact NodeMove.grabs (process.nodesWith (some conn)) conn free
      · simp only [Process.mainStep, if_neg free]
        exact NodeMove.stays _ _
  | insert conn => exact NodeMove.inserts (process.nodesWith (some conn)) conn rfl
  | insertUnlock => exact NodeMove.releases (process.nodesWith none)
  | collect place =>
      simp only [Process.mainStep, MainPlace.hold_behind, MainPlace.hand_behind]
      exact collectCompleteThreads_moves process tid place none
  | cleanUp place => exact cleanUpAndExit_moves process tid place none

end Moves

/-! ### The lock and the holds -/

def Allows (state : NodeState) (ended : Nat → Prop) : Hold → Prop
  | .walk nodes => nodes.Sublist state.connections
  | .removing conn rest => (conn :: rest).Sublist state.connections ∧ ended conn
  | .inserting _ => True

/-- One place has a hold, in the thread that has the lock. -/
structure Locking (state : NodeState) (ended : Nat → Prop) (holds : Nat → List Hold) : Prop where
  owner : ∀ tid, state.lock = some tid → ∃ hold, holds tid = [hold] ∧ Allows state ended hold
  others : ∀ tid, state.lock ≠ some tid → holds tid = []

section Holds

variable {process : Process} {state next : NodeState} {ended later : Nat → Prop}
  {holds moved : Nat → List Hold} {tid : Nat} {before after : Option Hold} {below : List Hold}

theorem Allows.mono {hold : Hold} (allows : Allows state ended hold)
    (connections : next.connections = state.connections)
    (grows : ∀ conn, ended conn → later conn) : Allows next later hold := by
  cases hold with
  | walk nodes =>
      change nodes.Sublist next.connections
      rw [connections]
      exact allows
  | removing conn rest =>
      change (conn :: rest).Sublist next.connections ∧ later conn
      rw [connections]
      exact ⟨allows.1, grows conn allows.2⟩
  | inserting conn => trivial

theorem Locking.held (locking : Locking state ended holds) {hold : Hold}
    (own : holds tid = (some hold).toList ++ below) :
    state.lock = some tid ∧ below = [] ∧ Allows state ended hold := by
  by_cases held : state.lock = some tid
  · obtain ⟨only, single, allows⟩ := locking.owner tid held
    rw [own] at single
    obtain ⟨same, rest⟩ := List.cons.inj single
    rw [same]
    exact ⟨held, rest, allows⟩
  · rw [locking.others tid held] at own
    cases own

theorem Locking.keeps (locking : Locking state ended holds) (lock : next.lock = state.lock)
    (connections : next.connections = state.connections)
    (grows : ∀ conn, ended conn → later conn) (same : moved = holds) :
    Locking next later moved := by
  rw [same]
  constructor
  · intro owner held
    rw [lock] at held
    obtain ⟨hold, single, allows⟩ := locking.owner owner held
    exact ⟨hold, single, allows.mono connections grows⟩
  · intro other free
    rw [lock] at free
    exact locking.others other free

theorem Locking.passes (locking : Locking state ended holds)
    (alone : ∀ other, other ≠ tid → state.lock ≠ some other)
    (others : ∀ other, other ≠ tid → moved other = holds other)
    (outcome : (next.lock = none ∧ moved tid = []) ∨
      (next.lock = some tid ∧ ∃ hold, moved tid = [hold] ∧ Allows next later hold)) :
    Locking next later moved := by
  rcases outcome with ⟨lock, released⟩ | ⟨lock, holding⟩
  · constructor
    · intro owner held
      rw [lock] at held
      cases held
    · intro other _free
      by_cases same : other = tid
      · rw [same]
        exact released
      · rw [others other same]
        exact locking.others other (alone other same)
  · constructor
    · intro owner held
      rw [lock] at held
      cases held
      exact holding
    · intro other free
      have same : other ≠ tid := by
        intro same
        rw [same] at free
        exact free lock
      rw [others other same]
      exact locking.others other (alone other same)

theorem moved_eq (others : ∀ other, other ≠ tid → moved other = holds other)
    (own : moved tid = holds tid) : moved = holds := by
  funext other
  by_cases same : other = tid
  · rw [same, own]
  · exact others other same

theorem NodeMove.locking (move : NodeMove process tid state before next after)
    (locking : Locking state ended holds) (own : holds tid = before.toList ++ below)
    (ownNext : moved tid = after.toList ++ below)
    (others : ∀ other, other ≠ tid → moved other = holds other)
    (grows : ∀ conn, ended conn → later conn)
    (joined : ∀ conn, before ≠ none →
      ((process.thread (connectionThread conn)).program.terminates = true ∨
        connectionThread conn = tid) → later conn) :
    Locking next later moved := by
  have alone : ∀ hold : Hold, holds tid = (some hold).toList ++ below → ∀ other, other ≠ tid →
      state.lock ≠ some other := by
    intro hold holding other different held
    rw [(locking.held holding).1] at held
    exact different (Option.some.inj held).symm
  have free : state.lock = none → ∀ other, other ≠ tid → state.lock ≠ some other := by
    intro unlocked other _different held
    rw [unlocked] at held
    cases held
  cases move with
  | stays =>
      apply locking.keeps rfl rfl grows
      exact moved_eq others (ownNext.trans own.symm)
  | passes fewer =>
      obtain ⟨lock, nothing, allows⟩ := locking.held own
      apply locking.passes (alone _ own) others
      rw [nothing] at ownNext
      exact Or.inr ⟨lock, _, ownNext, fewer.trans allows⟩
  | takes unlocked =>
      have nothing : below = [] := own.symm.trans (locking.others tid (by rw [unlocked]; simp))
      apply locking.passes (free unlocked) others
      rw [nothing] at ownNext
      exact Or.inr ⟨rfl, _, ownNext, List.Sublist.refl _⟩
  | grabs conn unlocked =>
      have nothing : below = [] := own.symm.trans (locking.others tid (by rw [unlocked]; simp))
      apply locking.passes (free unlocked) others
      rw [nothing] at ownNext
      exact Or.inr ⟨rfl, _, ownNext, trivial⟩
  | joins conn rest returns =>
      obtain ⟨lock, nothing, allows⟩ := locking.held own
      apply locking.passes (alone _ own) others
      rw [nothing] at ownNext
      exact Or.inr ⟨lock, _, ownNext, allows, joined conn (Option.some_ne_none _) returns⟩
  | removes conn rest =>
      obtain ⟨lock, nothing, allows⟩ := locking.held own
      apply locking.passes (alone _ own) others
      rw [nothing] at ownNext
      refine Or.inr ⟨lock, _, ownNext, ?_⟩
      have shorter := allows.1.erase conn
      rw [List.erase_cons_head] at shorter
      exact shorter
  | inserts conn made =>
      obtain ⟨lock, nothing, _allows⟩ := locking.held own
      apply locking.passes (alone _ own) others
      rw [nothing] at ownNext
      exact Or.inr ⟨lock, _, ownNext, List.nil_sublist _⟩
  | releases =>
      obtain ⟨_lock, nothing, _allows⟩ := locking.held own
      apply locking.passes (alone _ own) others
      rw [nothing] at ownNext
      exact Or.inl ⟨rfl, ownNext⟩
  | creates idle =>
      have same := moved_eq others (ownNext.trans own.symm)
      exact locking.keeps rfl rfl grows same

/-! ### Nodes are made once -/

/-- Nodes in use have been made, and none is twice in use. -/
structure NodeState.Distinct (state : NodeState) : Prop where
  made : ∀ conn, state.Live conn → conn < state.created
  nodup : state.connections.Nodup
  apart : ∀ conn, state.hand = some conn → conn ∉ state.connections

theorem NodeMove.distinct (move : NodeMove process tid state before next after)
    (distinct : state.Distinct) : next.Distinct := by
  cases move with
  | stays | passes | joins => exact distinct
  | takes | grabs | releases => exact ⟨distinct.made, distinct.nodup, distinct.apart⟩
  | removes conn rest =>
      constructor
      · intro other live
        apply distinct.made
        exact live.imp_left List.mem_of_mem_erase
      · exact distinct.nodup.erase conn
      · exact fun other hand member => distinct.apart other hand (List.mem_of_mem_erase member)
  | inserts conn made =>
      constructor
      · intro other live
        apply distinct.made
        rcases live with member | impossible
        · rcases List.mem_cons.mp member with same | member
          · rw [same]
            exact Or.inr made
          · exact Or.inl member
        · cases impossible
      · exact List.nodup_cons.mpr ⟨distinct.apart conn made, distinct.nodup⟩
      · intro other impossible
        cases impossible
  | creates idle =>
      constructor
      · intro other live
        rcases live with member | new
        · exact Nat.lt_succ_of_lt (distinct.made other (Or.inl member))
        · cases new
          exact Nat.lt_succ_self _
      · exact distinct.nodup
      · intro other new member
        cases new
        exact Nat.lt_irrefl _ (distinct.made _ (Or.inl member))

/-- A node that is in use stays in use, unless the step removes it. -/
theorem NodeMove.live (move : NodeMove process tid state before next after) {conn : Nat}
    (live : state.Live conn) :
    next.Live conn ∨ ∃ rest, before = some (.removing conn rest) := by
  cases move with
  | stays | passes | joins | takes | grabs | releases => exact Or.inl live
  | removes removed rest =>
      by_cases same : conn = removed
      · rw [same]
        exact Or.inr ⟨rest, rfl⟩
      · left
        exact live.imp_left (List.mem_erase_of_ne same).mpr
  | inserts inserted made =>
      left
      left
      rcases live with member | hand
      · exact List.mem_cons_of_mem inserted member
      · change state.hand = some conn at hand
        rw [made] at hand
        cases hand
        exact List.mem_cons_self
  | creates idle =>
      left
      rcases live with member | hand
      · exact Or.inl member
      · rw [idle] at hand
        cases hand

theorem NodeMove.fresh (move : NodeMove process tid state before next after) {conn : Nat}
    (live : next.Live conn) : state.Live conn ∨ conn = state.created := by
  cases move with
  | stays | passes | joins | takes | grabs | releases => exact Or.inl live
  | removes removed rest => exact Or.inl (live.imp_left List.mem_of_mem_erase)
  | inserts inserted made =>
      left
      rcases live with member | impossible
      · rcases List.mem_cons.mp member with same | member
        · rw [same]
          exact Or.inr made
        · exact Or.inl member
      · cases impossible
  | creates idle =>
      rcases live with member | new
      · exact Or.inl (Or.inl member)
      · cases new
        exact Or.inr rfl

theorem NodeMove.created_le (move : NodeMove process tid state before next after) :
    state.created ≤ next.created := by
  cases move with
  | creates idle => exact Nat.le_succ _
  | _ => exact Nat.le_refl _

end Holds

/-! ### Steps of a thread -/

section Threads

variable {process : Process} {tid : Nat}

theorem Thread.holds_quiet {thread : Thread} (quiet : thread.handlers = []) :
    thread.holds = thread.program.hold.toList ++ [] := by
  rw [Thread.holds, quiet, List.append_nil]
  rfl

theorem Thread.holds_top {thread : Thread} {handler : Handler} {below : List Handler}
    (top : thread.handlers = handler :: below) :
    thread.holds = handler.place.hold.toList ++
      (below.filterMap (fun handler => handler.place.hold) ++ thread.program.hold.toList) := by
  rw [Thread.holds, top, ← List.append_assoc]
  congr 1
  rw [List.filterMap_cons]
  cases handler.place.hold <;> rfl

theorem Program.apart {program : Program} (other : ∀ place, program ≠ .main place) :
    program.hold = none ∧ program.hand = none := by
  cases program with
  | main place => exact absurd rfl (other place)
  | _ => exact ⟨rfl, rfl⟩

theorem programStep_apart (process : Process) (tid : Nat) (ret : Ret) {program : Program}
    (other : ∀ place, program ≠ .main place) :
    (process.programStep tid ret program).1.nodes = process.nodes ∧
      ∀ place, (process.programStep tid ret program).2 ≠ .main place := by
  cases program with
  | absent => exact ⟨rfl, fun place impossible => by cases impossible⟩
  | main place => exact absurd rfl (other place)
  | timer place =>
      unfold Process.programStep Process.timerStep
      dsimp only
      split
      · dsimp only
        split <;> exact ⟨rfl, fun place impossible => by cases impossible⟩
      · split <;> exact ⟨rfl, fun place impossible => by cases impossible⟩
      · exact ⟨rfl, fun place impossible => by cases impossible⟩
      · exact ⟨rfl, fun place impossible => by cases impossible⟩
  | connection atLoop conn =>
      cases atLoop with
      | true => exact ⟨rfl, fun place impossible => by cases impossible⟩
      | false =>
          unfold Process.programStep Process.connectionStep
          dsimp only
          split <;> exact ⟨rfl, fun place impossible => by cases impossible⟩
  | terminated threadComplete => exact ⟨rfl, fun place impossible => by cases impossible⟩

theorem nodes_put_hand (next : Process) (thread : Thread)
    (same : thread.program.hand = (next.thread tid).program.hand) :
    (next.put tid thread).nodes = next.nodes := by
  have hand : ((next.put tid thread).thread mainThread).program.hand =
      (next.thread mainThread).program.hand := by
    by_cases here : mainThread = tid
    · rw [here, Proceeds.thread_self]
      exact same
    · change (Function.update next.thread tid thread mainThread).program.hand = _
      rw [Function.update_of_ne here]
  unfold Process.nodes
  rw [hand]
  rfl

theorem nodes_put_main (next : Process) (thread : Thread) :
    (next.put mainThread thread).nodes = next.nodesWith thread.program.hand := by
  unfold Process.nodesWith Process.nodes
  rw [Proceeds.thread_self]
  rfl

theorem goOn_quiet (quiet : (process.thread tid).handlers = []) (ret : Ret) :
    process.goOn tid ret =
      (process.programStep tid ret (process.thread tid).program).1.put tid
        { program := (process.programStep tid ret (process.thread tid).program).2
          handlers := [] } := by
  unfold Process.goOn
  simp only [quiet]

theorem goOn_top {handler : Handler} {below : List Handler}
    (top : (process.thread tid).handlers = handler :: below) (ret : Ret) :
    process.goOn tid ret =
      (process.cleanUpAndExit tid handler.place).1.put tid
        { program := (process.thread tid).program
          handlers :=
            { handler with place := (process.cleanUpAndExit tid handler.place).2 } :: below } := by
  unfold Process.goOn
  simp only [top]

def Process.OneMain (process : Process) : Prop :=
  ∀ tid place, (process.thread tid).program = .main place → tid = mainThread

/-- Every step of a thread is one of the moves. -/
theorem goOn_moves (one : process.OneMain) (tid : Nat) (ret : Ret) :
    ∃ before after below,
      (process.thread tid).holds = before.toList ++ below ∧
      ((process.goOn tid ret).thread tid).holds = after.toList ++ below ∧
      NodeMove process tid process.nodes before (process.goOn tid ret).nodes after := by
  cases stack : (process.thread tid).handlers with
  | cons handler below =>
      refine ⟨handler.place.hold, (process.cleanUpAndExit tid handler.place).2.hold, _,
        Thread.holds_top stack, ?_, ?_⟩
      · rw [goOn_top stack, Proceeds.thread_self]
        exact @Thread.holds_top _
          { handler with place := (process.cleanUpAndExit tid handler.place).2 } below rfl
      · have threads := (cleanUpAndExit_regrips process tid handler.place).threads
        rw [goOn_top stack, nodes_put_hand]
        · have moves := cleanUpAndExit_moves process tid handler.place process.nodes.hand
          have same : (process.cleanUpAndExit tid handler.place).1.nodes =
              (process.cleanUpAndExit tid handler.place).1.nodesWith process.nodes.hand := by
            unfold Process.nodesWith Process.nodes
            rw [threads]
          rw [same]
          exact moves
        · rw [threads]
  | nil =>
      refine ⟨(process.thread tid).program.hold,
        (process.programStep tid ret (process.thread tid).program).2.hold, [],
        Thread.holds_quiet stack, ?_, ?_⟩
      · rw [goOn_quiet stack, Proceeds.thread_self]
        apply Thread.holds_quiet
        rfl
      · rw [goOn_quiet stack]
        by_cases runs : ∃ place, (process.thread tid).program = .main place
        · obtain ⟨place, program⟩ := runs
          have here := one tid place program
          subst here
          have own : process.nodes = process.nodesWith place.hand := by
            unfold Process.nodesWith Process.nodes
            rw [program]
            rfl
          rw [nodes_put_main, own, program]
          exact mainStep_moves process mainThread ret place
        · have other : ∀ place, (process.thread tid).program ≠ .main place :=
            fun place program => runs ⟨place, program⟩
          obtain ⟨nodes, next⟩ := programStep_apart process tid ret other
          have threads : (process.programStep tid ret (process.thread tid).program).1.thread =
              process.thread := by
            apply (programStep_regrips process tid _).threads
            exact fun creates => other .create creates.1
          rw [nodes_put_hand]
          · rw [nodes, (Program.apart other).1, (Program.apart next).1]
            exact NodeMove.stays _ _
          · rw [threads, (Program.apart other).2, (Program.apart next).2]

/-! ### Threads that are over, and threads that serve -/

theorem over_goOn (fresh : process.thread (connectionThread process.created) = Thread.absent)
    (tid : Nat) (ret : Ret) {other : Nat} (ended : (process.thread other).Over) :
    ((process.goOn tid ret).thread other).Over := by
  by_cases same : other = tid
  · subst same
    cases stack : (process.thread other).handlers with
    | nil =>
        have terminated := ended.resolve_right (fun interrupted => interrupted stack)
        left
        rw [goOn_quiet stack, Proceeds.thread_self]
        cases program : (process.thread other).program with
        | terminated threadComplete => rfl
        | _ =>
            rw [program] at terminated
            cases terminated
    | cons handler below =>
        right
        rw [goOn_top stack, Proceeds.thread_self]
        exact List.cons_ne_nil _ _
  · rcases goOn_threads process tid ret same with
      unchanged | ⟨_place, _quiet, _success, new, _created⟩
    · rw [unchanged]
      exact ended
    · rw [new, fresh] at ended
      rcases ended with impossible | impossible
      · cases impossible
      · exact absurd rfl impossible

theorem serves_programStep (process : Process) (tid : Nat) (ret : Ret) {program : Program}
    {atLoop : Bool} {conn : Connection}
    (serves : (process.programStep tid ret program).2 = .connection atLoop conn) :
    ∃ atLoop conn, program = .connection atLoop conn := by
  cases program with
  | connection atLoop conn => exact ⟨atLoop, conn, rfl⟩
  | absent | main place | terminated threadComplete => cases serves
  | timer place =>
      unfold Process.programStep Process.timerStep at serves
      dsimp only at serves
      split at serves
      · dsimp only at serves
        split at serves <;> cases serves
      · split at serves <;> cases serves
      · cases serves
      · cases serves

theorem serves_goOn (tid : Nat) (ret : Ret) {other : Nat}
    (serves : ((process.goOn tid ret).thread other).Serves) :
    (process.thread other).Serves ∨
      ((process.thread tid).program = .main .create ∧ (process.thread tid).handlers = [] ∧
        ret.value = 0 ∧ other = connectionThread process.created) := by
  by_cases same : other = tid
  · subst same
    left
    cases stack : (process.thread other).handlers with
    | nil =>
        rw [goOn_quiet stack, Proceeds.thread_self] at serves
        obtain ⟨_quiet, atLoop, conn, program⟩ := serves
        exact ⟨stack, serves_programStep process other ret program⟩
    | cons handler below =>
        rw [goOn_top stack, Proceeds.thread_self] at serves
        cases serves.1
  · rcases goOn_threads process tid ret same with
      unchanged | ⟨place, quiet, success, new, _created⟩
    · rw [unchanged] at serves
      exact Or.inl serves
    · exact Or.inr ⟨place, quiet, success, new⟩

theorem Process.OneMain.goOn (one : process.OneMain) (tid : Nat) (ret : Ret) :
    (process.goOn tid ret).OneMain := by
  intro other place program
  by_cases same : other = tid
  · subst same
    cases stack : (process.thread other).handlers with
    | nil =>
        rw [goOn_quiet stack, Proceeds.thread_self] at program
        apply Classical.byContradiction
        intro notMain
        have different : ∀ place, (process.thread other).program ≠ .main place :=
          fun place runs => notMain (one other place runs)
        exact (programStep_apart process other ret different).2 place program
    | cons handler below =>
        rw [goOn_top stack, Proceeds.thread_self] at program
        exact one other place program
  · rcases goOn_threads process tid ret same with
      unchanged | ⟨_place, _quiet, _success, _new, created⟩
    · rw [unchanged] at program
      exact one other place program
    · rw [created] at program
      cases program

theorem goOn_creates (ret : Ret) (program : (process.thread tid).program = .main .create)
    (quiet : (process.thread tid).handlers = []) (success : ret.value = 0) :
    process.goOn tid ret =
      process.spawn.put tid
        { program := .main (.insertLock process.created), handlers := [] } := by
  rw [goOn_quiet quiet, program]
  simp only [Process.programStep, Process.mainStep, success, ne_eq, not_true_eq_false, if_false]

/-! ### The invariant -/

structure NodeInv (process : Process) : Prop where
  one : process.OneMain
  fresh : ∀ conn, process.created ≤ conn → process.thread (connectionThread conn) = Thread.absent
  distinct : process.nodes.Distinct
  locking : Locking process.nodes
    (fun conn => (process.thread (connectionThread conn)).Over)
    (fun tid => (process.thread tid).holds)
  serves : ∀ conn, (process.thread (connectionThread conn)).Serves → process.nodes.Live conn

theorem start_nodeInv (useAesdCharDevice : Bool) : NodeInv (Process.start useAesdCharDevice) := by
  have idle : ∀ tid, ((Process.start useAesdCharDevice).thread tid).holds = [] := by
    intro tid
    unfold Process.start
    dsimp only
    split
    · rfl
    · split <;> rfl
  have absent := (start_lockInv useAesdCharDevice).fresh
  constructor
  · intro tid place program
    unfold Process.start at program
    dsimp only at program
    split at program
    · assumption
    · split at program <;> cases program
  · exact absent
  · constructor
    · rintro conn (member | hand)
      · cases member
      · cases hand
    · exact List.nodup_nil
    · intro conn hand
      cases hand
  · constructor
    · intro tid held
      cases held
    · exact fun tid _free => idle tid
  · intro conn serves
    rw [absent conn (Nat.zero_le conn)] at serves
    obtain ⟨_quiet, _atLoop, _conn, impossible⟩ := serves
    cases impossible

theorem NodeInv.holder (inv : NodeInv process) {conn : Nat}
    (holds : (process.thread (connectionThread conn)).holds ≠ []) :
    (process.thread (connectionThread conn)).Over := by
  right
  intro quiet
  rw [Thread.holds_quiet quiet] at holds
  cases program : (process.thread (connectionThread conn)).program with
  | main place => cases inv.one _ place program
  | _ =>
      rw [program] at holds
      exact holds rfl

theorem NodeInv.goOn (inv : NodeInv process) (tid : Nat) (ret : Ret) :
    NodeInv (process.goOn tid ret) := by
  obtain ⟨before, after, below, own, ownNext, move⟩ := goOn_moves inv.one tid ret
  have absent := inv.fresh process.created (Nat.le_refl _)
  have ended : ∀ conn, (process.thread (connectionThread conn)).Over →
      ((process.goOn tid ret).thread (connectionThread conn)).Over :=
    fun _conn finished => over_goOn absent tid ret finished
  constructor
  · exact inv.one.goOn tid ret
  · intro conn uncreated
    have earlier : process.created ≤ conn := move.created_le.trans uncreated
    by_cases same : connectionThread conn = tid
    · have gone := inv.fresh conn earlier
      rw [same] at gone ⊢
      have quiet : (process.thread tid).handlers = [] := by
        rw [gone]
        rfl
      rw [goOn_quiet quiet, Proceeds.thread_self, gone]
      rfl
    · rcases goOn_threads process tid ret same with
        unchanged | ⟨program, quiet, success, new, _created⟩
      · rw [unchanged]
        exact inv.fresh conn earlier
      · rw [goOn_creates ret program quiet success] at uncreated
        change process.created + 1 ≤ conn at uncreated
        unfold connectionThread at new
        omega
  · exact move.distinct inv.distinct
  · apply move.locking inv.locking own ownNext
    · intro other different
      rcases goOn_threads process tid ret different with
        unchanged | ⟨_program, _quiet, _success, new, created⟩
      · rw [unchanged]
      · rw [created, new, absent]
        rfl
    · exact ended
    · rintro conn holding (terminates | here)
      · exact ended conn (Or.inl terminates)
      · apply ended conn
        apply inv.holder
        rw [here, own]
        cases before with
        | none => exact absurd rfl holding
        | some hold => exact List.cons_ne_nil _ _
  · intro conn serves
    rcases serves_goOn tid ret serves with served | ⟨program, quiet, success, new⟩
    · rcases move.live (inv.serves conn served) with live | ⟨rest, removing⟩
      · exact live
      · rw [removing] at own
        obtain ⟨_lock, _nothing, _nodes, finished⟩ := inv.locking.held own
        obtain ⟨quiet, atLoop, serving, program⟩ := served
        rcases finished with terminates | interrupted
        · rw [program] at terminates
          cases terminates
        · exact absurd quiet interrupted
    · have here := inv.one tid .create program
      subst here
      right
      rw [goOn_creates ret program quiet success, nodes_put_main]
      change some process.created = some conn
      unfold connectionThread at new
      congr
      omega

theorem interrupt_nodes (process : Process) (tid : Nat) (signal : Signal) :
    (process.interrupt tid signal).nodes = process.nodes :=
  nodes_put_hand process _ rfl

theorem interrupt_thread (process : Process) (tid : Nat) (signal : Signal) (other : Nat) :
    (process.interrupt tid signal).thread other = process.thread other ∨
      (other = tid ∧
        (process.interrupt tid signal).thread other =
          { program := (process.thread other).program
            handlers :=
              { signal := signal, place := .enter } :: (process.thread other).handlers }) := by
  by_cases same : other = tid
  · right
    refine ⟨same, ?_⟩
    rw [same, Process.interrupt, Proceeds.thread_self]
  · left
    change Function.update process.thread tid _ other = _
    rw [Function.update_of_ne same]

theorem NodeInv.interrupt (inv : NodeInv process) {signal : Signal}
    (delivers : process.Delivers tid signal) : NodeInv (process.interrupt tid signal) := by
  constructor
  · intro other place program
    apply inv.one other place
    rcases interrupt_thread process tid signal other with same | ⟨_here, same⟩
    · rw [← same]
      exact program
    · rw [same] at program
      exact program
  · intro conn uncreated
    have absent := inv.fresh conn uncreated
    rcases interrupt_thread process tid signal (connectionThread conn) with same | ⟨here, _same⟩
    · rw [same]
      exact absent
    · have alive := delivers.2.1
      rw [← here, absent] at alive
      cases alive
  · rw [interrupt_nodes]
    exact inv.distinct
  · rw [interrupt_nodes]
    apply inv.locking.keeps rfl rfl
    · intro conn ended
      rcases interrupt_thread process tid signal (connectionThread conn) with same | ⟨_here, same⟩
      · rw [same]
        exact ended
      · rw [same]
        exact Or.inr (List.cons_ne_nil _ _)
    · funext other
      rcases interrupt_thread process tid signal other with same | ⟨_here, same⟩
      · rw [same]
      · rw [same]
        rfl
  · intro conn serves
    rw [interrupt_nodes]
    rcases interrupt_thread process tid signal (connectionThread conn) with same | ⟨_here, same⟩
    · rw [same] at serves
      exact inv.serves conn serves
    · rw [same] at serves
      cases serves.1

theorem NodeInv.step (inv : NodeInv process) (event : ShutdownEvent) :
    NodeInv (process.step event) := by
  cases event with
  | go tid ret =>
      unfold Process.step
      dsimp only
      split
      · exact inv
      · exact inv.goOn tid ret
  | signal tid signal =>
      unfold Process.step
      dsimp only
      split
      · exact inv.interrupt ‹_›
      · exact inv

theorem NodeInv.run (inv : NodeInv process) (events : List ShutdownEvent) :
    NodeInv (process.run events) := by
  induction events generalizing process with
  | nil => exact inv
  | cons event events ih => exact ih (inv.step event)

/-! ### Uses of a node -/

/-- The node that the next step of `collect_complete_threads` looks at or frees. -/
def Collect.looksAt : Collect → Option Nat
  | .visit (conn :: _) => some conn
  | .join conn _ => some conn
  | .remove conn _ => some conn
  | _ => none

/-- The next step of thread `tid` uses the node of a connection: in a walk, for
its insertion, or because the thread serves the connection. -/
inductive Process.Touches (process : Process) (tid conn : Nat) : Prop where
  | collects (place : Collect) (runs : (process.thread tid).Collects place)
      (looks : place.looksAt = some conn)
  | inserts (stands : process.thread tid = { program := .main (.insert conn), handlers := [] })
  | serves (own : tid = connectionThread conn) (serving : (process.thread tid).Serves)

theorem Thread.Collects.holds {thread : Thread} {place : Collect} {hold : Hold}
    (collects : thread.Collects place) (some_hold : place.hold = some hold) :
    ∃ below, thread.holds = (some hold).toList ++ below := by
  rw [← some_hold]
  cases collects with
  | handler program signal place below =>
      exact ⟨_, @Thread.holds_top _ { signal := signal, place := .collect place } below rfl⟩
  | main place => exact ⟨[], Thread.holds_quiet rfl⟩
  | cleanUp place => exact ⟨[], Thread.holds_quiet rfl⟩

theorem NodeInv.looks (inv : NodeInv process) {place : Collect} {conn : Nat}
    (collects : (process.thread tid).Collects place) (looks : place.looksAt = some conn) :
    conn ∈ process.connections := by
  cases place with
  | lock => cases looks
  | visit rest =>
      cases rest with
      | nil => cases looks
      | cons first rest =>
          cases looks
          obtain ⟨below, holds⟩ := collects.holds rfl
          obtain ⟨_lock, _nothing, nodes⟩ := inv.locking.held holds
          exact nodes.subset List.mem_cons_self
  | join joined rest =>
      cases looks
      obtain ⟨below, holds⟩ := collects.holds rfl
      obtain ⟨_lock, _nothing, nodes⟩ := inv.locking.held holds
      exact nodes.subset List.mem_cons_self
  | remove removed rest =>
      cases looks
      obtain ⟨below, holds⟩ := collects.holds rfl
      obtain ⟨_lock, _nothing, nodes, _ended⟩ := inv.locking.held holds
      exact nodes.subset List.mem_cons_self
  | unlock => cases looks

theorem NodeInv.touches (inv : NodeInv process) {conn : Nat} (touches : process.Touches tid conn) :
    process.nodes.Live conn := by
  cases touches with
  | collects place runs looks => exact Or.inl (inv.looks runs looks)
  | inserts stands =>
      right
      have program : (process.thread tid).program = .main (.insert conn) := by
        rw [stands]
      have here := inv.one tid _ program
      subst here
      change (process.thread mainThread).program.hand = _
      rw [program]
      rfl
  | serves own serving =>
      subst own
      exact inv.serves conn serving

def Process.Freed (process : Process) (conn : Nat) : Prop :=
  conn < process.created ∧ ¬ process.nodes.Live conn

theorem NodeInv.freed_step (inv : NodeInv process) {conn : Nat} (freed : process.Freed conn)
    (event : ShutdownEvent) : (process.step event).Freed conn := by
  cases event with
  | go tid ret =>
      unfold Process.step
      dsimp only
      split
      · exact freed
      · obtain ⟨before, after, below, _own, _ownNext, move⟩ := goOn_moves inv.one tid ret
        refine ⟨Nat.lt_of_lt_of_le freed.1 move.created_le, ?_⟩
        intro live
        rcases move.fresh live with earlier | new
        · exact freed.2 earlier
        · exact Nat.ne_of_lt freed.1 new
  | signal tid signal =>
      unfold Process.step
      dsimp only
      split
      · refine ⟨freed.1, ?_⟩
        rw [interrupt_nodes]
        exact freed.2
      · exact freed

theorem NodeInv.freed_run (inv : NodeInv process) {conn : Nat} (freed : process.Freed conn)
    (events : List ShutdownEvent) : (process.run events).Freed conn := by
  induction events generalizing process with
  | nil => exact freed
  | cons event events ih => exact ih (inv.step event) (inv.freed_step freed event)

end Threads

/-- Whatever threads run and signals arrive: every step uses only nodes in the
list or in the hand of `main`, and a node that has been freed is never used again. -/
theorem freed_nodes_unused (useAesdCharDevice : Bool) (events : List ShutdownEvent) :
    (∀ tid conn, ((Process.start useAesdCharDevice).run events).Touches tid conn →
      ((Process.start useAesdCharDevice).run events).nodes.Live conn) ∧
    ∀ conn, ((Process.start useAesdCharDevice).run events).Freed conn →
      ∀ later tid,
        ¬ ((Process.start useAesdCharDevice).run (events ++ later)).Touches tid conn := by
  have inv := (start_nodeInv useAesdCharDevice).run events
  refine ⟨fun tid conn touches => inv.touches touches, ?_⟩
  intro conn freed later tid touches
  rw [Process.run_append] at touches
  exact (inv.freed_run freed later).2 ((inv.run later).touches touches)

/-- SIGINT arrives while `main` walks the list, after it has freed the node of a
connection. -/
def interruptedWalk : List ShutdownEvent :=
  joiningMain ++
    [ .go (connectionThread 0) Ret.zero, .go mainThread Ret.zero, .go mainThread Ret.zero,
      .signal mainThread .sigint, .go mainThread Ret.zero ]

theorem freed_nodes_unused_interruptedWalk :
    ((Process.start false).run interruptedWalk).Freed 0 ∧
      ((Process.start false).run interruptedWalk).connectionsLock = some mainThread ∧
      ∀ later tid, ¬ ((Process.start false).run (interruptedWalk ++ later)).Touches tid 0 := by
  have freed : ((Process.start false).run interruptedWalk).Freed 0 := by
    refine ⟨by decide, ?_⟩
    rintro (member | hand)
    · revert member
      decide
    · revert hand
      decide
  exact ⟨freed, by decide, (freed_nodes_unused false interruptedWalk).2 0 freed⟩

end Aesd.Server
