/-
Clients are served under every fair schedule.

`file_lock` is not given to the waiting threads in any order, so a client may be
overtaken. It is not overtaken for ever: the clients send finitely many chunks
in all, and whoever has the lock gives it back.
-/

import Mathlib.Algebra.BigOperators.Group.Finset.Basic
import Mathlib.Algebra.Order.BigOperators.Group.Finset
import Aesd.Lib.Fairness
import Aesd.Server.ResponseContract

namespace Aesd.Server

open Driver Fairness

/-! ### How far a client is -/

/-- The parts of a round that a client has still before it. -/
def Pc.stage : Pc → Nat
  | .receive => 0
  | .returned => 0
  | .lock _ => 2
  | _ => 1

def Client.stage (client : Client) : Nat := 3 * client.reads.length + client.conn.pc.stage

theorem Pc.stage_inside {pc : Pc} (inside : pc.inSection = true) : pc.stage = 1 := by
  cases pc with
  | receive | returned | lock inBytesRead => cases inside
  | _ => rfl

namespace Session

theorem resume_leaves {conn : Connection} (inside : conn.pc.inSection = true) (ret : Ret) :
    (conn.resume ret).pc.inSection = true ∨ (conn.resume ret).pc.stage = 0 := by
  have resumed := resume_cases conn ret
  generalize conn.resume ret = next at resumed ⊢
  cases resumed with
  | hangsUp place | waits place | fills place | stays place | enters place =>
      rw [place] at inside
      cases inside
  | finishes place => exact Or.inl (nextLine_inSection _)
  | refused | sought | stores | stored | rewound | reads | responds | responded => exact Or.inl rfl
  | breaks | unlocks | leaves => exact Or.inr rfl

inductive Moves (session : Session charDevice) : Prop where
  | idle (same : session.step = session)
  | works (inside : session.conn.pc.inSection = true)
      (after : session.step.conn.pc.inSection = true)
  | advances (less : session.step.toClient.stage < session.toClient.stage)

theorem step_moves (session : Session charDevice) : session.Moves := by
  cases inside : session.conn.pc.inSection with
  | true =>
      have receiving : session.conn.pc ≠ .receive := by
        intro place
        rw [place] at inside
        cases inside
      have reads := step_reads receiving
      have after : session.step.conn.pc.inSection = true ∨ session.step.conn.pc.stage = 0 := by
        rcases step_conn session with same | ⟨ret, resumed⟩
        · rw [same]
          exact Or.inl inside
        · rw [resumed]
          exact resume_leaves inside ret
      rcases after with stays | leaves
      · exact Moves.works inside stays
      · apply Moves.advances
        unfold Client.stage
        rw [reads, leaves, Pc.stage_inside inside]
        exact Nat.lt_succ_self _
  | false =>
      cases place : session.conn.pc with
      | receive =>
          cases reads : session.reads with
          | nil => exact Moves.idle (step_finished (Or.inr ⟨place, reads⟩))
          | cons result later =>
              apply Moves.advances
              have least : (session.conn.received result.ret).pc.stage ≤ 2 := by
                unfold Pc.stage
                split <;> omega
              rw [step_receive place reads]
              change 3 * later.length + (session.conn.received result.ret).pc.stage <
                3 * session.reads.length + session.conn.pc.stage
              rw [reads, List.length_cons]
              omega
      | lock inBytesRead =>
          by_cases free : session.fileLock = none
          · apply Moves.advances
            rw [step_lock place free]
            unfold Client.stage
            rw [place]
            change _ + (session.conn.locked inBytesRead).pc.stage < _
            rw [Connection.locked, Pc.stage_inside (nextLine_inSection _)]
            exact Nat.lt_succ_self _
          · apply Moves.idle
            have calls : session.conn.call = some .lock := by rw [Connection.call, place]
            simp [step, calls, returns, advance, free]
      | returned => exact Moves.idle (step_finished (Or.inl place))
      | _ =>
          rw [place] at inside
          cases inside

theorem finished_of_idle {session : Session charDevice} (free : session.fileLock = none)
    (outside : session.conn.pc.inSection = false) (same : session.step = session) :
    session.Finished := by
  cases place : session.conn.pc with
  | receive =>
      cases reads : session.reads with
      | nil => exact Or.inr ⟨place, reads⟩
      | cons result later =>
          rw [step_receive place reads] at same
          have shorter := congrArg (fun other : Session charDevice => other.reads.length) same
          dsimp only at shorter
          rw [reads, List.length_cons] at shorter
          omega
  | lock inBytesRead =>
      rw [step_lock place free] at same
      have taken := congrArg Session.fileLock same
      rw [free] at taken
      cases taken
  | returned => exact Or.inl place
  | _ =>
      rw [place] at outside
      cases outside

end Session

/-! ### The world -/

namespace World

def stage (clients : Nat) (world : World charDevice) : Nat :=
  ∑ tid ∈ Finset.range clients, (world.client tid).stage

variable {stored : List Bytes} {world : World charDevice} {tid : Nat}

theorem step_idle (same : (world.session tid).step = world.session tid) :
    world.step tid = world := by
  have client : Function.update world.client tid (world.client tid) = world.client :=
    Function.update_eq_self tid world.client
  unfold step put
  rw [same]
  change World.mk world.file world.fileLock world.operations
    (Function.update world.client tid (world.client tid))
    (world.answered ++ (newAnswers (world.client tid).conn (world.client tid).conn).map _) = world
  rw [client, newAnswers, List.drop_length, List.map_nil, List.append_nil]

theorem stage_step_eq {clients : Nat}
    (same : ((world.step tid).client tid).stage = (world.client tid).stage) :
    (world.step tid).stage clients = world.stage clients := by
  apply Finset.sum_congr rfl
  intro other _member
  by_cases here : other = tid
  · rw [here, same]
  · rw [step_client_other world here]

theorem stage_step_lt {clients : Nat} (member : tid < clients)
    (less : ((world.step tid).client tid).stage < (world.client tid).stage) :
    (world.step tid).stage clients < world.stage clients := by
  apply Finset.sum_lt_sum
  · intro other _member
    by_cases here : other = tid
    · rw [here]
      exact Nat.le_of_lt less
    · rw [step_client_other world here]
  · exact ⟨tid, Finset.mem_range.mpr member, less⟩

def Silent (clients : Nat) (world : World charDevice) : Prop :=
  ∀ tid, clients ≤ tid → (world.session tid).conn.pc = .receive ∧ (world.session tid).reads = []

theorem Silent.step {clients : Nat} (silent : world.Silent clients) (tid : Nat) :
    (world.step tid).Silent clients := by
  intro other behind
  by_cases same : other = tid
  · subst same
    rw [step_idle (Session.step_finished (Or.inr (silent other behind)))]
    exact silent other behind
  · change ((world.step tid).client other).conn.pc = _ ∧ ((world.step tid).client other).reads = _
    rw [step_client_other world same]
    exact silent other behind

inductive Moves (clients : Nat) (world : World charDevice) (tid : Nat) : Prop where
  | idle (same : world.step tid = world) (still : (world.session tid).step = world.session tid)
  | works (held : world.fileLock = some tid) (holds : (world.step tid).fileLock = some tid)
      (same : (world.step tid).stage clients = world.stage clients)
  | advances (less : (world.step tid).stage clients < world.stage clients)

theorem WorldInv.moves (inv : WorldInv stored world) {clients : Nat}
    (silent : world.Silent clients) (tid : Nat) : world.Moves clients tid := by
  cases Session.step_moves (world.session tid) with
  | idle same => exact Moves.idle (step_idle same) same
  | works inside after =>
      apply Moves.works
      · exact (inv.owned tid).mpr inside
      · apply (inv.owned_step tid tid).mpr
        rw [step_client_self]
        exact after
      · apply stage_step_eq
        have receiving : (world.session tid).conn.pc ≠ .receive := by
          intro place
          rw [place] at inside
          cases inside
        have reads := Session.step_reads receiving
        rw [step_client_self]
        unfold Client.stage
        rw [reads, Pc.stage_inside after]
        have before := Pc.stage_inside inside
        change _ = _ + (world.session tid).conn.pc.stage
        rw [before]
        rfl
  | advances less =>
      apply Moves.advances
      apply stage_step_lt
      · by_contra behind
        have finished := Session.step_finished (Or.inr (silent tid (Nat.le_of_not_lt behind)))
        rw [finished] at less
        exact Nat.lt_irrefl _ less
      · rw [step_client_self]
        exact less

/-! ### Fair schedules -/

section Schedules

variable {clients : Nat} (schedule : Nat → Nat)

theorem along_inv (inv : WorldInv stored world) (time : Nat) :
    WorldInv stored (along step world schedule time) := by
  induction time with
  | zero => exact inv
  | succ time ih => exact ih.step (schedule time)

theorem along_silent (silent : world.Silent clients) (time : Nat) :
    (along step world schedule time).Silent clients := by
  induction time with
  | zero => exact silent
  | succ time ih => exact ih.step (schedule time)

theorem along_moves (inv : WorldInv stored world) (silent : world.Silent clients) (time : Nat) :
    (along step world schedule time).Moves clients (schedule time) :=
  (along_inv schedule inv time).moves (along_silent schedule silent time) (schedule time)

theorem along_stage_le (inv : WorldInv stored world) (silent : world.Silent clients)
    (time gap : Nat) :
    (along step world schedule (time + gap)).stage clients ≤
      (along step world schedule time).stage clients := by
  induction gap with
  | zero => exact Nat.le_refl _
  | succ gap ih =>
      apply Nat.le_trans _ ih
      change ((along step world schedule (time + gap)).step (schedule (time + gap))).stage clients ≤ _
      cases along_moves schedule inv silent (time + gap) with
      | idle same _still => rw [same]
      | works _held _holds same => rw [same]
      | advances less => exact Nat.le_of_lt less

variable {schedule}

/-- From `time` on nobody comes any further. -/
def Level (clients : Nat) (world : World charDevice) (schedule : Nat → Nat) (time : Nat) : Prop :=
  ∀ gap, ¬ ((along step world schedule (time + gap)).step (schedule (time + gap))).stage clients <
    (along step world schedule (time + gap)).stage clients

theorem Level.of_stage (inv : WorldInv stored world) (silent : world.Silent clients) {time : Nat}
    (least : ∀ later, ¬ (along step world schedule later).stage clients <
      (along step world schedule time).stage clients) :
    Level clients world schedule time := by
  intro gap less
  apply least (time + gap + 1)
  exact Nat.lt_of_lt_of_le less (along_stage_le schedule inv silent time gap)

theorem Level.or_falls (inv : WorldInv stored world) (silent : world.Silent clients) {time : Nat} :
    Level clients world schedule time ∨
      ∃ later, (along step world schedule later).stage clients <
        (along step world schedule time).stage clients := by
  by_cases falls : ∃ later, (along step world schedule later).stage clients <
      (along step world schedule time).stage clients
  · exact Or.inr falls
  · exact Or.inl (Level.of_stage inv silent fun later less => falls ⟨later, less⟩)

theorem Level.later {time : Nat} (level : Level clients world schedule time) (gap : Nat) :
    Level clients world schedule (time + gap) := by
  intro more
  rw [Nat.add_assoc]
  exact level (gap + more)

/-- The owner of the lock keeps it, and everybody else stands still. -/
theorem Level.held (inv : WorldInv stored world) (silent : world.Silent clients) {time : Nat}
    (level : Level clients world schedule time) {owner : Nat}
    (lock : (along step world schedule time).fileLock = some owner) (gap : Nat) :
    (along step world schedule (time + gap)).fileLock = some owner := by
  induction gap with
  | zero => exact lock
  | succ gap ih =>
      change ((along step world schedule (time + gap)).step (schedule (time + gap))).fileLock = _
      cases along_moves schedule inv silent (time + gap) with
      | idle same _still =>
          rw [same]
          exact ih
      | works held holds _same =>
          rw [holds, ← held]
          exact ih
      | advances less => exact absurd less (level gap)

theorem Level.unlocked (inv : WorldInv stored world) (silent : world.Silent clients)
    (fair : ∀ tid, tid < clients → Fair schedule tid) {time : Nat}
    (level : Level clients world schedule time) :
    (along step world schedule time).fileLock = none := by
  cases lock : (along step world schedule time).fileLock with
  | none => rfl
  | some owner =>
      exfalso
      have held := level.held inv silent lock
      have now := along_inv schedule inv time
      have inside := (now.owned owner).mp lock
      have member : owner < clients := by
        by_contra behind
        have place := (along_silent schedule silent time owner (Nat.le_of_not_lt behind)).1
        change ((along step world schedule time).client owner).conn.pc = .receive at place
        rw [place] at inside
        cases inside
      obtain ⟨final, ⟨rounds, reached⟩, free⟩ := Session.section_unlocks (now.ready owner)
        (now.busy owner lock).place inside
      have own : ∀ later, time ≤ later → schedule later = owner →
          (along step world schedule (later + 1)).session owner =
            ((along step world schedule later).session owner).step := by
        intro later _after turn
        change ((along step world schedule later).step (schedule later)).session owner = _
        rw [turn, step_session]
      have others : ∀ later, time ≤ later → schedule later ≠ owner →
          (along step world schedule (later + 1)).session owner =
            (along step world schedule later).session owner := by
        intro later after missed
        obtain ⟨gap, rfl⟩ := Nat.exists_eq_add_of_le after
        change ((along step world schedule (time + gap)).step
          (schedule (time + gap))).session owner = _
        cases along_moves schedule inv silent (time + gap) with
        | idle same _still => rw [same]
        | works holds _holds _same =>
            rw [held gap] at holds
            exact absurd (Option.some.inj holds).symm missed
        | advances less => exact absurd less (level gap)
      obtain ⟨later, after, same⟩ :=
        (fair owner member).iterates (fun time => (along step world schedule time).session owner)
          Session.step time own others rounds
      rw [reached] at same
      obtain ⟨gap, rfl⟩ := Nat.exists_eq_add_of_le after
      have taken : ((along step world schedule (time + gap)).session owner).fileLock = some owner :=
        held gap
      rw [same, free] at taken
      cases taken

theorem Level.finished (inv : WorldInv stored world) (silent : world.Silent clients)
    (fair : ∀ tid, tid < clients → Fair schedule tid) {time : Nat}
    (level : Level clients world schedule time) (tid : Nat) :
    ((along step world schedule time).session tid).Finished := by
  have unlocked := level.unlocked inv silent fair
  have outside : ∀ owner,
      ¬ (along step world schedule time).fileLock = some owner := by
    intro owner held
    rw [unlocked] at held
    cases held
  have settled : ∀ gap, along step world schedule (time + gap) = along step world schedule time := by
    intro gap
    induction gap with
    | zero => rfl
    | succ gap ih =>
        change (along step world schedule (time + gap)).step (schedule (time + gap)) = _
        cases along_moves schedule inv silent (time + gap) with
        | idle same _still => rw [same, ih]
        | works held _holds _same =>
            rw [ih] at held
            exact absurd held (outside _)
        | advances less => exact absurd less (level gap)
  by_cases member : tid < clients
  · obtain ⟨later, after, turn⟩ := fair tid member time
    obtain ⟨gap, rfl⟩ := Nat.exists_eq_add_of_le after
    have moves := along_moves schedule inv silent (time + gap)
    rw [turn, settled gap] at moves
    cases moves with
    | idle _same still =>
        apply Session.finished_of_idle unlocked _ still
        rw [← Bool.not_eq_true]
        exact fun inside => outside tid (((along_inv schedule inv time).owned tid).mpr inside)
    | works held _holds _same => exact absurd held (outside tid)
    | advances less =>
        have no := level gap
        rw [turn, settled gap] at no
        exact absurd less no
  · exact Or.inr (along_silent schedule silent time tid (Nat.le_of_not_lt member))

end Schedules

/-- Nobody has the lock, every thread has returned or waits for a peer that sends
nothing more, and whoever waits has had all its data lines answered in order. -/
structure Served (reads : Nat → List SockRead) (world : World charDevice) : Prop where
  unlocked : world.fileLock = none
  finished : ∀ tid, (world.session tid).Finished
  answered : ∀ tid, (world.client tid).conn.pc = .receive →
    ((world.answersTo tid).filter Answer.isData).map Answer.line =
      (reads tid).flatMap SockRead.seenData

theorem ClientInv.served {reads : Nat → List SockRead} (inv : ClientInv reads world tid)
    (waits : (world.client tid).conn.pc = .receive) (finished : (world.session tid).Finished) :
    ((world.answersTo tid).filter Answer.isData).map Answer.line =
      (reads tid).flatMap SockRead.seenData := by
  have place : (world.session tid).conn.pc = .receive := waits
  have used : (world.client tid).reads = [] := by
    rcases finished with returned | ⟨_place, used⟩
    · rw [place] at returned
      cases returned
    · exact used
  have order := inv.order
  rw [used, List.append_nil] at order
  rw [order]
  exact inv.answered_data waits

/-- The clients that send something are the first `clients`. When each of them is
scheduled again and again there comes a time from which on all are served. -/
theorem fair_schedules_serve (file : OpenFile) (clean : file.kernel.dev.pending = [])
    (reads : Nat → List SockRead) (taken : Nat → Nat → Nat) (clients : Nat)
    (silent : ∀ tid, clients ≤ tid → reads tid = []) (schedule : Nat → Nat)
    (fair : ∀ tid, tid < clients → Fair schedule tid) :
    ∃ time, ∀ later, time ≤ later →
      Served reads
        ((start file reads taken : World charDevice).run ((List.range later).map schedule)) := by
  have inv := start_inv clean reads taken
  have quiet : (start file reads taken : World charDevice).Silent clients :=
    fun tid behind => ⟨rfl, silent tid behind⟩
  obtain ⟨time, level⟩ := eventually_done
    (fun time =>
      (along step (start file reads taken : World charDevice) schedule time).stage clients)
    (fun time => Level clients (start file reads taken) schedule time)
    (fun _time => Level.or_falls inv quiet)
  refine ⟨time, ?_⟩
  intro later after
  obtain ⟨gap, rfl⟩ := Nat.exists_eq_add_of_le after
  have reached := along_eq_foldl step (start file reads taken : World charDevice) schedule
    (time + gap)
  change _ = (start file reads taken : World charDevice).run _ at reached
  have still := level.later gap
  have unlocked := still.unlocked inv quiet fair
  have finished := still.finished inv quiet fair
  rw [reached] at unlocked finished
  constructor
  · exact unlocked
  · exact finished
  · intro tid waits
    exact (run_client file reads taken _ tid).served waits (finished tid)

theorem fair_schedules_serve_two_clients :
    OpenFile.init.kernel.dev.pending = [] ∧
      ∃ time, ∀ later, time ≤ later →
        Served (fun tid => if tid < 2 then [.chunk Session.oneLine] else [])
          ((start OpenFile.init (fun tid => if tid < 2 then [.chunk Session.oneLine] else [])
            (fun _ _ => 0) : World charDevice).run ((List.range later).map (fun time => time % 2))) := by
  refine ⟨rfl, fair_schedules_serve OpenFile.init rfl _ _ 2 ?_ _ ?_⟩
  · intro tid behind
    exact if_neg (Nat.not_lt.mpr behind)
  · intro tid member time
    refine ⟨2 * time + tid, ?_, ?_⟩
    · omega
    · dsimp only
      omega

end World

end Aesd.Server
