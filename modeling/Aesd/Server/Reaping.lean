/-
`collect_complete_threads` on nodes in memory (aesdsocket.c, queue.h).

The connections are nodes of a store, joined by their `sle_next` links, and
`free` takes a node out of the store. A field read through NULL or of a node
that is not in the store is a fault. The function runs under
`connections_lock`, so nobody else changes the list meanwhile, and a thread
whose flag is set can be joined.
-/

import Aesd.Lib.Chain

namespace Aesd.Server

open Chain

structure ConnectionNode where
  threadId : Nat
  threadComplete : Bool
  sleNext : Option Nat
  deriving DecidableEq, Repr

/-- The store and the head of the list, with the threads joined and the nodes
freed so far. -/
structure Reaper where
  store : Nat → Option ConnectionNode
  slhFirst : Option Nat
  joined : List Nat
  freed : List Nat

inductive Fault where
  | dangling (address : Nat) (state : Reaper)
  | null
  | unfinished

namespace Reaper

def node (state : Reaper) (address : Nat) : Except Fault ConnectionNode :=
  match state.store address with
  | some node => .ok node
  | none => .error (.dangling address state)

def pthreadJoin (state : Reaper) (threadId : Nat) : Reaper :=
  { state with joined := state.joined ++ [threadId] }

def free (state : Reaper) (conn : Nat) : Reaper :=
  { state with
    store := Function.update state.store conn none
    freed := state.freed ++ [conn] }

/-! ### The macros of queue.h -/

def slistRemoveHead (state : Reaper) : Except Fault Reaper :=
  match state.slhFirst with
  | none => .error .null
  | some first => do
      let node ← state.node first
      .ok { state with slhFirst := node.sleNext }

def slistRemoveAfter (state : Reaper) (elm : Nat) : Except Fault Reaper := do
  let node ← state.node elm
  match node.sleNext with
  | none => .error .null
  | some behind => do
      let removed ← state.node behind
      .ok
        { state with
          store := Function.update state.store elm (some { node with sleNext := removed.sleNext }) }

/-- The loop of `SLIST_REMOVE` that looks for the node before `elm`. -/
def slistBefore (state : Reaper) (elm : Nat) : (fuel : Nat) → Option Nat → Except Fault Nat
  | 0, _ => .error .unfinished
  | _ + 1, none => .error .null
  | fuel + 1, some curelm => do
      let node ← state.node curelm
      if node.sleNext = some elm then .ok curelm else state.slistBefore elm fuel node.sleNext

def slistRemove (state : Reaper) (fuel elm : Nat) : Except Fault Reaper :=
  if state.slhFirst = some elm then state.slistRemoveHead
  else do
    let curelm ← state.slistBefore elm fuel state.slhFirst
    state.slistRemoveAfter curelm

/-! ### The walk -/

def visit (state : Reaper) (fuel conn : Nat) : Except Fault Reaper := do
  let node ← state.node conn
  if node.threadComplete then
    let removed ← (state.pthreadJoin node.threadId).slistRemove fuel conn
    .ok (removed.free conn)
  else .ok state

/-- `SLIST_FOREACH`; the advance reads the link of the node just visited. -/
def collectLoop (fuel : Nat) : (rounds : Nat) → Reaper → Option Nat → Except Fault Reaper
  | _, state, none => .ok state
  | 0, _, some _ => .error .unfinished
  | rounds + 1, state, some conn => do
      let visited ← state.visit fuel conn
      let node ← visited.node conn
      collectLoop fuel rounds visited node.sleNext

def collectCompleteThreads (state : Reaper) (fuel : Nat) : Except Fault Reaper :=
  collectLoop fuel fuel state state.slhFirst

theorem node_of_live {state : Reaper} {address : Nat} {node : ConnectionNode}
    (live : state.store address = some node) : state.node address = .ok node := by
  rw [Reaper.node, live]

theorem node_of_freed (state : Reaper) (conn : Nat) :
    (state.free conn).node conn = .error (.dangling conn (state.free conn)) := by
  have gone : (state.free conn).store conn = none := by
    rw [free]
    exact Function.update_self _ _ _
  rw [Reaper.node, gone]

theorem collectLoop_unflagged {state : Reaper} {conn : Nat} {node : ConnectionNode}
    (fuel rounds : Nat) (live : state.store conn = some node)
    (unflagged : node.threadComplete = false) :
    collectLoop fuel (rounds + 1) state (some conn) =
      collectLoop fuel rounds state node.sleNext := by
  have passed : state.visit fuel conn = .ok state := by
    rw [visit, node_of_live live]
    apply if_neg
    rw [unflagged]
    exact Bool.false_ne_true
  rw [collectLoop, passed]
  change (state.node conn >>= _) = _
  rw [node_of_live live]
  rfl

/-! ### Removal -/

theorem slistBefore_eq {state : Reaper} {start : Option Nat} {before after : List Nat}
    {previous elm : Nat} (fuel : Nat)
    (linked : Linked ConnectionNode.sleNext state.store start (before ++ previous :: elm :: after)) :
    state.slistBefore elm fuel start =
      if before.length < fuel then .ok previous else .error .unfinished := by
  induction before generalizing start fuel with
  | nil =>
      cases fuel with
      | zero => rfl
      | succ fuel =>
          obtain ⟨node, live⟩ := linked.live_of_mem List.mem_cons_self
          have link := (linked.tail_of_cons live).start_of_cons
          rw [linked.start_of_cons, slistBefore, node_of_live live]
          exact if_pos link
  | cons first before ih =>
      cases fuel with
      | zero => rfl
      | succ fuel =>
          obtain ⟨node, live⟩ := linked.live_of_mem List.mem_cons_self
          have tail := linked.tail_of_cons live
          have further : node.sleNext ≠ some elm := by
            intro reached
            have distinct := tail.nodup
            cases before with
            | nil =>
                have same := Option.some.inj (reached.symm.trans tail.start_of_cons)
                subst same
                exact (List.nodup_cons.mp distinct).1 List.mem_cons_self
            | cons second before =>
                have same := Option.some.inj (reached.symm.trans tail.start_of_cons)
                subst same
                apply (List.nodup_cons.mp distinct).1
                exact List.mem_append_right before (List.mem_cons_of_mem previous List.mem_cons_self)
          have rest := ih fuel tail
          rw [linked.start_of_cons, slistBefore, node_of_live live]
          simp only [List.length_cons, Nat.add_lt_add_iff_right]
          rw [← rest]
          exact if_neg further

theorem slistRemoveAfter_eq {state : Reaper} {elm behind : Nat} {node removed : ConnectionNode}
    (live : state.store elm = some node) (link : node.sleNext = some behind)
    (behindLive : state.store behind = some removed) :
    state.slistRemoveAfter elm =
      .ok
        { state with
          store := Function.update state.store elm (some { node with sleNext := removed.sleNext }) } := by
  simp only [slistRemoveAfter, node_of_live live, bind, Except.bind, link,
    node_of_live behindLive]

structure Removed (state removed : Reaper) (addresses : List Nat) : Prop where
  linked : Linked ConnectionNode.sleNext removed.store removed.slhFirst addresses
  joined_eq : removed.joined = state.joined
  freed_eq : removed.freed = state.freed

/-- `SLIST_REMOVE` takes a node of the list out of it, wherever it stands. -/
theorem slistRemove_cases {state : Reaper} {before after : List Nat} {elm : Nat} (fuel : Nat)
    (linked : Linked ConnectionNode.sleNext state.store state.slhFirst (before ++ elm :: after)) :
    (state.slistRemove fuel elm = .error .unfinished ∧ fuel < before.length) ∨
      ∃ removed, state.slistRemove fuel elm = .ok removed ∧
        Removed state removed (before ++ after) := by
  obtain ⟨gone, goneLive⟩ := linked.live_of_mem (List.mem_append_right before List.mem_cons_self)
  rcases List.eq_nil_or_concat before with none | ⟨initial, previous, shape⟩
  · subst none
    right
    have first := linked.start_of_cons
    refine ⟨{ state with slhFirst := gone.sleNext }, ?_, ?_⟩
    · rw [slistRemove, if_pos first, slistRemoveHead, first]
      dsimp only
      rw [node_of_live goneLive]
      rfl
    · exact ⟨linked.tail_of_cons goneLive, rfl, rfl⟩
  · subst shape
    rw [List.concat_eq_append, List.append_assoc, List.singleton_append] at linked
    obtain ⟨node, live⟩ :=
      linked.live_of_mem (List.mem_append_right initial List.mem_cons_self)
    obtain ⟨middle, behind⟩ := linked.of_append
    have link : node.sleNext = some elm := (behind.tail_of_cons live).start_of_cons
    have later : state.slhFirst ≠ some elm := by
      have split := linked
      rw [List.append_cons] at split
      exact split.start_ne_of_append (by simp)
    rw [slistRemove, if_neg later, slistBefore_eq fuel linked, List.concat_eq_append]
    by_cases enough : initial.length < fuel
    · right
      refine ⟨{ state with
        store := Function.update state.store previous
          (some { node with sleNext := gone.sleNext }) }, ?_, ?_, rfl, rfl⟩
      · rw [if_pos enough]
        exact slistRemoveAfter_eq live link goneLive
      · rw [List.append_assoc, List.singleton_append]
        exact linked.unlink live goneLive rfl
    · left
      rw [if_neg enough]
      refine ⟨rfl, ?_⟩
      rw [List.length_append, List.length_singleton]
      omega

/-! ### A walk without a flag -/

theorem collectLoop_clean {state : Reaper} {start : Option Nat} {addresses : List Nat}
    (fuel rounds : Nat) (linked : Linked ConnectionNode.sleNext state.store start addresses)
    (clean : ∀ address ∈ addresses, ∀ node, state.store address = some node →
      node.threadComplete = false)
    (enough : addresses.length ≤ rounds) :
    collectLoop fuel rounds state start = .ok state := by
  induction addresses generalizing start rounds with
  | nil =>
      cases linked
      rw [collectLoop]
  | cons conn later ih =>
      obtain ⟨node, live⟩ := linked.live_of_mem List.mem_cons_self
      obtain ⟨rounds, rfl⟩ : ∃ more, rounds = more + 1 := by
        rw [List.length_cons] at enough
        exact ⟨rounds - 1, by omega⟩
      have unflagged := clean conn List.mem_cons_self node live
      rw [linked.start_of_cons, collectLoop_unflagged fuel rounds live unflagged]
      apply ih rounds (linked.tail_of_cons live)
      · intro address member
        exact clean address (List.mem_cons_of_mem conn member)
      · rw [List.length_cons] at enough
        omega

/-! ### A walk that meets a flag -/

/-- What has happened when the walk reads the link of the node it has freed. -/
structure Crashed (state crashed : Reaper) (conn threadId : Nat) (left : List Nat) : Prop where
  linked : Linked ConnectionNode.sleNext crashed.store crashed.slhFirst left
  joined_eq : crashed.joined = state.joined ++ [threadId]
  freed_eq : crashed.freed = state.freed ++ [conn]

/-- The thread is joined, the node is unlinked and freed, and the advance reads it. -/
theorem collectLoop_at_flag {state : Reaper} {before after : List Nat} {conn : Nat}
    {node : ConnectionNode} (fuel rounds : Nat)
    (linked : Linked ConnectionNode.sleNext state.store state.slhFirst (before ++ conn :: after))
    (live : state.store conn = some node) (flagged : node.threadComplete = true) :
    (collectLoop fuel rounds state (some conn) = .error .unfinished ∧
        (fuel < before.length ∨ rounds = 0)) ∨
      ∃ crashed, collectLoop fuel rounds state (some conn) = .error (.dangling conn crashed) ∧
        Crashed state crashed conn node.threadId (before ++ after) := by
  cases rounds with
  | zero =>
      left
      exact ⟨rfl, Or.inr rfl⟩
  | succ rounds =>
      have entered : state.visit fuel conn =
          ((state.pthreadJoin node.threadId).slistRemove fuel conn >>=
            fun removed => .ok (removed.free conn)) := by
        rw [visit, node_of_live live]
        exact if_pos flagged
      have joined : Linked ConnectionNode.sleNext (state.pthreadJoin node.threadId).store
          (state.pthreadJoin node.threadId).slhFirst (before ++ conn :: after) := linked
      rw [collectLoop, entered]
      rcases slistRemove_cases fuel joined with ⟨unfinished, short⟩ | ⟨removed, done, effect⟩
      · left
        rw [unfinished]
        exact ⟨rfl, Or.inl short⟩
      · right
        have absent : conn ∉ before ++ after := by
          have distinct := linked.nodup
          rw [List.nodup_middle] at distinct
          exact (List.nodup_cons.mp distinct).1
        refine ⟨removed.free conn, ?_, ?_⟩
        · rw [done]
          change ((removed.free conn).node conn >>= _) = _
          rw [node_of_freed]
          rfl
        · constructor
          · exact effect.linked.delete absent
          · exact effect.joined_eq
          · exact congrArg (· ++ [conn]) effect.freed_eq

theorem collectLoop_to_flag {state : Reaper} {start : Option Nat} {ahead before after : List Nat}
    {conn : Nat} {node : ConnectionNode} (fuel rounds : Nat)
    (whole : Linked ConnectionNode.sleNext state.store state.slhFirst (before ++ conn :: after))
    (linked : Linked ConnectionNode.sleNext state.store start (ahead ++ conn :: after))
    (clean : ∀ address ∈ ahead, ∀ node, state.store address = some node →
      node.threadComplete = false)
    (live : state.store conn = some node) (flagged : node.threadComplete = true) :
    (collectLoop fuel rounds state start = .error .unfinished ∧
        (fuel < before.length ∨ rounds ≤ ahead.length)) ∨
      ∃ crashed, collectLoop fuel rounds state start = .error (.dangling conn crashed) ∧
        Crashed state crashed conn node.threadId (before ++ after) := by
  induction ahead generalizing start rounds with
  | nil =>
      rw [linked.start_of_cons]
      rcases collectLoop_at_flag fuel rounds whole live flagged with ⟨unfinished, short⟩ | crash
      · left
        refine ⟨unfinished, ?_⟩
        rw [List.length_nil]
        omega
      · right
        exact crash
  | cons first ahead ih =>
      rw [linked.start_of_cons]
      cases rounds with
      | zero =>
          left
          exact ⟨rfl, Or.inr (Nat.zero_le _)⟩
      | succ rounds =>
          obtain ⟨head, headLive⟩ := linked.live_of_mem List.mem_cons_self
          have unflagged := clean first List.mem_cons_self head headLive
          have later := ih rounds (linked.tail_of_cons headLive)
            (fun address member => clean address (List.mem_cons_of_mem first member))
          rw [collectLoop_unflagged fuel rounds headLive unflagged, List.length_cons]
          rcases later with ⟨unfinished, short⟩ | crash
          · left
            exact ⟨unfinished, by omega⟩
          · right
            exact crash

end Reaper

/-! ### Lists of connections -/

/-- A list of connections in memory; the addresses are those that its links meet. -/
structure ConnectionList where
  store : Nat → Option ConnectionNode
  slhFirst : Option Nat
  addresses : List Nat
  linked : Linked ConnectionNode.sleNext store slhFirst addresses

namespace ConnectionList

def reaper (connections : ConnectionList) : Reaper :=
  { store := connections.store
    slhFirst := connections.slhFirst
    joined := []
    freed := [] }

def threadComplete (connections : ConnectionList) (address : Nat) : Bool :=
  (connections.store address).elim false ConnectionNode.threadComplete

def threadId (connections : ConnectionList) (address : Nat) : Nat :=
  (connections.store address).elim 0 ConnectionNode.threadId

def flagged (connections : ConnectionList) : List Nat :=
  connections.addresses.filter connections.threadComplete

def unflagged (connections : ConnectionList) : List Nat :=
  connections.addresses.filter (fun address => !connections.threadComplete address)

/-- Each flagged node has been joined and freed once, and the others are linked
in their order. -/
structure Reaped (connections : ConnectionList) (final : Reaper) : Prop where
  joined_once : final.joined.Perm (connections.flagged.map connections.threadId)
  freed_once : final.freed.Perm connections.flagged
  gone : ∀ address ∈ connections.flagged, final.store address = none
  kept : Linked ConnectionNode.sleNext final.store final.slhFirst connections.unflagged

/-- The function returns, so without a read of a freed node, and has done its work. -/
def ReapsExactly (connections : ConnectionList) : Prop :=
  ∃ fuel final, connections.reaper.collectCompleteThreads fuel = .ok final ∧
    connections.Reaped final

theorem threadComplete_of_live {connections : ConnectionList} {address : Nat}
    {node : ConnectionNode} (live : connections.store address = some node) :
    connections.threadComplete address = node.threadComplete := by
  rw [threadComplete, live]
  rfl

/-- The first flagged node is joined, unlinked and freed, and then its link is
read. Every run that is long enough ends there. -/
theorem collectCompleteThreads_crashes {connections : ConnectionList} {before after : List Nat}
    {conn : Nat} (split : connections.addresses = before ++ conn :: after)
    (clean : ∀ address ∈ before, connections.threadComplete address = false)
    (flag : connections.threadComplete conn = true) (fuel : Nat) :
    (connections.reaper.collectCompleteThreads fuel = .error .unfinished ∧
        fuel ≤ before.length) ∨
      ∃ crashed,
        connections.reaper.collectCompleteThreads fuel = .error (.dangling conn crashed) ∧
          Reaper.Crashed connections.reaper crashed conn (connections.threadId conn)
            (before ++ after) := by
  have linked : Linked ConnectionNode.sleNext connections.reaper.store connections.reaper.slhFirst
      (before ++ conn :: after) := by
    rw [← split]
    exact connections.linked
  obtain ⟨node, live⟩ := linked.live_of_mem (List.mem_append_right before List.mem_cons_self)
  have id : connections.threadId conn = node.threadId := by
    have same : connections.store conn = some node := live
    rw [threadId, same]
    rfl
  have passed : ∀ address ∈ before, ∀ node, connections.reaper.store address = some node →
      node.threadComplete = false := by
    intro address member node live
    rw [← threadComplete_of_live live]
    exact clean address member
  rw [threadComplete_of_live live] at flag
  rw [id]
  rcases Reaper.collectLoop_to_flag fuel fuel linked linked passed live flag with ⟨unfinished, short⟩ | crash
  · left
    exact ⟨unfinished, by omega⟩
  · right
    exact crash

theorem reapsExactly_of_clean {connections : ConnectionList}
    (clean : ∀ address ∈ connections.addresses, connections.threadComplete address = false) :
    connections.ReapsExactly := by
  have returned : connections.reaper.collectCompleteThreads connections.addresses.length =
      .ok connections.reaper := by
    apply Reaper.collectLoop_clean _ _ connections.linked _ (Nat.le_refl _)
    intro address member node live
    rw [← threadComplete_of_live live]
    exact clean address member
  have noFlag : connections.flagged = [] := by
    rw [flagged, List.filter_eq_nil_iff]
    intro address member
    rw [clean address member]
    exact Bool.false_ne_true
  have all : connections.unflagged = connections.addresses := by
    rw [unflagged, List.filter_eq_self]
    intro address member
    rw [clean address member]
    rfl
  refine ⟨_, _, returned, ?_⟩
  constructor
  · rw [noFlag]
    exact List.Perm.refl []
  · rw [noFlag]
    exact List.Perm.refl []
  · rw [noFlag]
    intro address absent
    cases absent
  · rw [all]
    exact connections.linked

theorem not_reapsExactly_of_flag {connections : ConnectionList} (address : Nat)
    (member : address ∈ connections.addresses)
    (flag : connections.threadComplete address = true) : ¬ connections.ReapsExactly := by
  rintro ⟨fuel, final, returned, _reaped⟩
  cases found : connections.addresses.find? connections.threadComplete with
  | none => exact List.find?_eq_none.mp found address member flag
  | some conn =>
      obtain ⟨first, before, after, split, unset⟩ := List.find?_eq_some_iff_append.mp found
      have clean : ∀ address ∈ before, connections.threadComplete address = false := by
        intro address earlier
        have negated := unset address earlier
        rw [Bool.not_eq_true'] at negated
        exact negated
      have crashes := collectCompleteThreads_crashes split clean first fuel
      rw [returned] at crashes
      rcases crashes with ⟨impossible, _short⟩ | ⟨crashed, impossible, _effect⟩
      · cases impossible
      · cases impossible

/-- The function is exact and safe on the lists on which it has nothing to do,
and on no other. -/
theorem reapsExactly_iff (connections : ConnectionList) :
    connections.ReapsExactly ↔
      ∀ address ∈ connections.addresses, connections.threadComplete address = false := by
  constructor
  · intro exactly address member
    cases flag : connections.threadComplete address with
    | false => rfl
    | true => exact absurd exactly (not_reapsExactly_of_flag address member flag)
  · exact reapsExactly_of_clean

def oneComplete : ConnectionList :=
  { store := fun address =>
      if address = 1 then some { threadId := 7, threadComplete := true, sleNext := none } else none
    slhFirst := some 1
    addresses := [1]
    linked := .cons rfl .nil }

theorem oneComplete_not_reaped : ¬ oneComplete.ReapsExactly := by
  apply not_reapsExactly_of_flag 1
  · exact List.mem_cons_self
  · rfl

end ConnectionList

end Aesd.Server
