/-
The response contract, for every interleaving of the clients.
-/

import Aesd.Server.ClientLines
import Aesd.Server.Responses

namespace Aesd.Server

open Driver CircularBuffer AesdCircularBuffer LineStream

/-! ### Steps and the lock -/

namespace Session

theorem step_owned {device : FileModel} {session : Session device}
    (owned : session.fileLock = some session.tid ↔ session.conn.pc.inSection = true)
    (ready : session.writes 0 ≠ .notReady) :
    (session.step.fileLock = some session.tid ↔ session.step.conn.pc.inSection = true) ∧
      ∀ other, other ≠ session.tid →
        (session.step.fileLock = some other ↔ session.fileLock = some other) := by
  unfold step
  split
  · exact ⟨owned, fun _ _ => Iff.rfl⟩
  · next calls =>
      split
      · exact ⟨owned, fun _ _ => Iff.rfl⟩
      · apply advance_owned _ owned
        rintro ⟨written, place⟩
        rw [Connection.call, place] at calls
        cases calls
  · next calls =>
      apply advance_owned _ owned
      rintro ⟨written, place⟩
      rw [Connection.call, place] at calls
      cases calls
  · apply advance_owned _ owned
    intro _
    cases result : session.writes 0 with
    | notReady => exact absurd result ready
    | accepts extra => exact Int.natCast_nonneg _
  · exact advance_owned _ owned fun _ => Int.le_refl 0

/-- A thread that does not hold the lock and does not get it changes only its
own locals, and answers nothing. -/
structure Unnoticed (session next : Session charDevice) : Prop where
  file : next.file = session.file
  fileLock : next.fileLock = session.fileLock
  operations : next.operations = session.operations
  answers : next.conn.answers = session.conn.answers
  sent : next.conn.sent = session.conn.sent

theorem Unnoticed.refl (session : Session charDevice) : Unnoticed session session :=
  ⟨rfl, rfl, rfl, rfl, rfl⟩

theorem step_unnoticed {session : Session charDevice}
    (outside : session.conn.pc.inSection = false)
    (waits : session.conn.call = some .lock → session.fileLock ≠ none) :
    Unnoticed session session.step := by
  cases place : session.conn.pc with
  | receive =>
      cases reads : session.reads with
      | nil =>
          rw [step_finished (Or.inr ⟨place, reads⟩)]
          exact Unnoticed.refl session
      | cons result later =>
          rw [step_receive place reads]
          cases result with
          | chunk chunk =>
              rw [received_chunk]
              exact ⟨rfl, rfl, rfl, rfl, rfl⟩
          | notReady => exact ⟨rfl, rfl, rfl, rfl, rfl⟩
          | closed => exact ⟨rfl, rfl, rfl, rfl, rfl⟩
  | lock inBytesRead =>
      have calls : session.conn.call = some .lock := by rw [Connection.call, place]
      have stays : session.step = session := by
        simp [step, calls, returns, advance, waits calls]
      rw [stays]
      exact Unnoticed.refl session
  | returned =>
      rw [step_finished (Or.inl place)]
      exact Unnoticed.refl session
  | _ =>
      rw [place] at outside
      cases outside

end Session

/-! ### The world -/

namespace World

def dataAnswers (world : World charDevice) : List Answer :=
  (world.answered.map Prod.snd).filter Answer.isData

structure WorldInv (stored : List Bytes) (world : World charDevice) : Prop where
  owned : ∀ tid, world.fileLock = some tid ↔ (world.client tid).conn.pc.inSection = true
  free : world.fileLock = none →
    DeviceInv stored world.dataAnswers [] world.file world.operations
  busy : ∀ tid, world.fileLock = some tid →
    SectionInv stored world.dataAnswers (world.session tid)
  idle : ∀ tid, (world.client tid).conn.pc.inSection = false →
    (world.client tid).conn.pc ≠ .returned → (world.client tid).conn.sent = []
  ready : ∀ tid, (world.session tid).Accepting

theorem dataAnswers_step {world : World charDevice} {tid : Nat} {added : List Answer}
    (answers : (world.session tid).step.conn.answers =
      (world.session tid).conn.answers ++ added) :
    (world.step tid).dataAnswers = world.dataAnswers ++ added.filter Answer.isData := by
  have fresh : newAnswers (world.client tid).conn (world.session tid).step.conn = added := by
    unfold newAnswers
    rw [answers]
    exact List.drop_left
  unfold dataAnswers
  rw [step_answered, fresh, List.map_append, List.map_map, List.filter_append]
  congr 2
  exact List.map_id added

theorem dataAnswers_same {world : World charDevice} {tid : Nat}
    (answers : (world.session tid).step.conn.answers = (world.session tid).conn.answers) :
    (world.step tid).dataAnswers = world.dataAnswers := by
  rw [← List.append_nil (world.session tid).conn.answers] at answers
  rw [dataAnswers_step answers, List.filter_nil, List.append_nil]

theorem start_inv {file : OpenFile} (clean : file.kernel.dev.pending = [])
    (reads : Nat → List SockRead) (taken : Nat → Nat → Nat) :
    WorldInv file.lines (start file reads taken : World charDevice) := by
  constructor
  · intro tid
    simp [start, Connection.accepted, Pc.inSection]
  · intro _
    refine ⟨clean, AtEachStep.nil _, ?_, rfl⟩
    exact (retain_nil (ringLines_length_le file.kernel.dev.circularBuffer)).symm
  · intro tid held
    cases held
  · intro tid _ _
    rfl
  · exact fun tid => ⟨fun index impossible => (by cases impossible), rfl⟩

variable {stored : List Bytes} {world : World charDevice} {tid : Nat}

theorem WorldInv.owned_step (inv : WorldInv stored world) (tid other : Nat) :
    (world.step tid).fileLock = some other ↔
      ((world.step tid).client other).conn.pc.inSection = true := by
  have owned : (world.session tid).fileLock = some (world.session tid).tid ↔
      (world.session tid).conn.pc.inSection = true := inv.owned tid
  obtain ⟨self, others⟩ := Session.step_owned owned ((inv.ready tid).1 0)
  by_cases same : other = tid
  · subst same
    rw [step_client_self]
    exact self
  · rw [step_client_other world same, ← inv.owned other]
    exact others other same

theorem WorldInv.ready_step (inv : WorldInv stored world) (tid other : Nat) :
    ((world.step tid).session other).Accepting := by
  by_cases same : other = tid
  · subst same
    rw [step_session]
    exact Session.accepting_step (inv.ready other)
  · have unchanged := step_client_other world same
    change (∀ index, ((world.step tid).client other).writes index ≠ .notReady) ∧
      ((world.step tid).client other).writeNotReady = false
    rw [unchanged]
    exact inv.ready other

theorem WorldInv.inside (inv : WorldInv stored world)
    (inside : (world.client tid).conn.pc.inSection = true) : WorldInv stored (world.step tid) := by
  have held := (inv.owned tid).mpr inside
  obtain ⟨added, answers, after⟩ := (inv.busy tid held).step inside ((inv.ready tid).1 0)
  rw [← dataAnswers_step answers] at after
  constructor
  · exact inv.owned_step tid
  · intro free
    have outside : (world.session tid).step.conn.pc.inSection = false := by
      have owned := inv.owned_step tid tid
      rw [free, step_client_self] at owned
      simpa using owned
    have device := after.device
    rw [storedLine_outside outside] at device
    exact device
  · intro other holds
    have same : other = tid := by
      by_contra different
      have before := (inv.owned_step tid other).mp holds
      rw [step_client_other world different, ← inv.owned other, held] at before
      exact different (Option.some.inj before).symm
    subst same
    rw [step_session]
    exact after
  · intro other outside stays
    by_cases same : other = tid
    · subst same
      rw [step_client_self] at outside stays ⊢
      exact after.place.idle outside stays
    · rw [step_client_other world same] at outside stays ⊢
      exact inv.idle other outside stays
  · exact inv.ready_step tid

theorem WorldInv.outside (inv : WorldInv stored world)
    (unnoticed : Session.Unnoticed (world.session tid) (world.session tid).step)
    (outside : (world.client tid).conn.pc.inSection = false) :
    WorldInv stored (world.step tid) := by
  have sameData := dataAnswers_same unnoticed.answers
  have sameFile : (world.step tid).file = world.file := unnoticed.file
  have sameLock : (world.step tid).fileLock = world.fileLock := unnoticed.fileLock
  have sameOperations : (world.step tid).operations = world.operations := unnoticed.operations
  constructor
  · exact inv.owned_step tid
  · rw [sameLock, sameData, sameFile, sameOperations]
    exact inv.free
  · intro other holds
    rw [sameLock] at holds
    have different : other ≠ tid := by
      rintro rfl
      have inside := (inv.owned other).mp holds
      rw [outside] at inside
      cases inside
    have sameSession : (world.step tid).session other = world.session other := by
      unfold session
      rw [step_client_other world different, sameFile, sameLock, sameOperations]
    rw [sameData, sameSession]
    exact inv.busy other holds
  · intro other outsideAfter stays
    by_cases same : other = tid
    · subst same
      rw [step_client_self] at stays ⊢
      have stayed : (world.client other).conn.pc ≠ .returned := by
        intro place
        have finished : (world.session other).step = world.session other :=
          Session.step_finished (Or.inl place)
        rw [finished] at stays
        exact stays place
      rw [unnoticed.sent]
      exact inv.idle other outside stayed
    · rw [step_client_other world same] at outsideAfter stays ⊢
      exact inv.idle other outsideAfter stays
  · exact inv.ready_step tid

theorem WorldInv.enter (inv : WorldInv stored world) (free : world.fileLock = none)
    {inBytesRead : Int} (place : (world.client tid).conn.pc = .lock inBytesRead) :
    WorldInv stored (world.step tid) := by
  have fresh : (world.client tid).conn.sent = [] :=
    inv.idle tid (by rw [place]; rfl) (by rw [place]; simp)
  have enters : (world.session tid).step =
      { world.session tid with
        fileLock := some tid
        conn := (world.client tid).conn.locked inBytesRead } := Session.step_lock place free
  have sameData : (world.step tid).dataAnswers = world.dataAnswers := by
    apply dataAnswers_same
    rw [enters]
    exact (nextLine_sent _).1
  have after : SectionInv stored world.dataAnswers (world.session tid).step := by
    rw [enters]
    exact SectionInv.nextLine { world.session tid with fileLock := some tid } _ (inv.free free)
      fresh
  have taken : (world.step tid).fileLock = some tid := by
    rw [step_fileLock, enters]
  constructor
  · exact inv.owned_step tid
  · intro released
    rw [taken] at released
    cases released
  · intro other holds
    rw [taken] at holds
    cases holds
    rw [sameData, step_session]
    exact after
  · intro other outside stays
    by_cases same : other = tid
    · subst same
      rw [← Bool.not_eq_true, ← inv.owned_step other other, taken] at outside
      exact absurd rfl outside
    · rw [step_client_other world same] at outside stays ⊢
      exact inv.idle other outside stays
  · exact inv.ready_step tid

theorem WorldInv.step (inv : WorldInv stored world) (tid : Nat) :
    WorldInv stored (world.step tid) := by
  cases inside : (world.client tid).conn.pc.inSection with
  | true => exact inv.inside inside
  | false =>
      by_cases enters : (world.client tid).conn.call = some .lock ∧ world.fileLock = none
      · obtain ⟨inBytesRead, place⟩ := call_lock.mp enters.1
        exact inv.enter enters.2 place
      · apply inv.outside _ inside
        apply Session.step_unnoticed inside
        intro asks free
        exact enters ⟨asks, free⟩

theorem run_inv {file : OpenFile} (clean : file.kernel.dev.pending = [])
    (reads : Nat → List SockRead) (taken : Nat → Nat → Nat) (schedule : List Nat) :
    WorldInv file.lines ((start file reads taken : World charDevice).run schedule) := by
  induction schedule using List.reverseRecOn with
  | nil => exact start_inv clean reads taken
  | append_singleton earlier tid ih =>
      unfold run at ih ⊢
      rw [List.foldl_append]
      exact ih.step tid

/-- The holder of the lock gives it back when it is scheduled long enough. -/
theorem WorldInv.finishes (inv : WorldInv stored world) (held : world.fileLock = some tid) :
    ∃ rounds, (world.run (List.replicate rounds tid)).fileLock = none := by
  obtain ⟨final, ⟨rounds, reached⟩, free⟩ := Session.section_unlocks (inv.ready tid)
    (inv.busy tid held).place ((inv.owned tid).mp held)
  have alone := run_replicate world tid rounds
  rw [reached] at alone
  have lock : (world.run (List.replicate rounds tid)).fileLock = final.fileLock :=
    congrArg Session.fileLock alone
  exact ⟨rounds, lock.trans free⟩

end World

/-! ### Each client -/

namespace World

def answersTo (world : World charDevice) (tid : Nat) : List Answer :=
  (world.answered.filter fun entry => entry.1 == tid).map Prod.snd

def received (reads : Nat → List SockRead) (world : World charDevice) (tid : Nat) :
    List SockRead :=
  (reads tid).take ((reads tid).length - (world.client tid).reads.length)

structure ClientInv (reads : Nat → List SockRead) (world : World charDevice) (tid : Nat) :
    Prop where
  own : world.answersTo tid = (world.client tid).conn.answers
  order : reads tid = world.received reads tid ++ (world.client tid).reads
  progress : Progress ((world.received reads tid).flatMap SockRead.lines) (world.client tid).conn

variable {reads : Nat → List SockRead} {world : World charDevice} {tid : Nat}

theorem received_eq {earlier : List SockRead}
    (order : reads tid = earlier ++ (world.client tid).reads) :
    world.received reads tid = earlier := by
  unfold received
  rw [order, List.length_append, Nat.add_sub_cancel, List.take_left]

theorem start_client (file : OpenFile) (reads : Nat → List SockRead) (taken : Nat → Nat → Nat)
    (tid : Nat) : ClientInv reads (start file reads taken : World charDevice) tid := by
  have nothing : (start file reads taken : World charDevice).received reads tid = [] :=
    received_eq rfl
  constructor
  · rfl
  · rw [nothing]
    rfl
  · rw [nothing]
    rfl

theorem answersTo_self (world : World charDevice) (tid : Nat) :
    (world.step tid).answersTo tid =
      world.answersTo tid ++ newAnswers (world.client tid).conn (world.session tid).step.conn := by
  unfold answersTo
  rw [step_answered, List.filter_append, List.map_append]
  congr 1
  simp [List.filter_map, Function.comp_def]

theorem answersTo_other (world : World charDevice) {tid other : Nat} (different : other ≠ tid) :
    (world.step tid).answersTo other = world.answersTo other := by
  unfold answersTo
  rw [step_answered, List.filter_append, List.map_append]
  simp [List.filter_map, Function.comp_def, different.symm]

theorem ClientInv.own_self (inv : ClientInv reads world tid) :
    (world.step tid).answersTo tid = (world.session tid).step.conn.answers := by
  have grows : (world.client tid).conn.answers <+: (world.session tid).step.conn.answers :=
    (world.session tid).step_grows.answers
  rw [answersTo_self, inv.own, newAnswers]
  exact (List.prefix_append_drop grows).symm

theorem ClientInv.step_self (inv : ClientInv reads world tid) :
    ClientInv reads (world.step tid) tid := by
  have advances {earlier : List SockRead}
      (order : reads tid = earlier ++ (world.session tid).step.reads)
      (progress : Progress (earlier.flatMap SockRead.lines) (world.session tid).step.conn) :
      ClientInv reads (world.step tid) tid := by
    have sameClient := step_client_self world tid
    have made : (world.step tid).received reads tid = earlier := by
      apply received_eq
      rw [sameClient]
      exact order
    constructor
    · rw [sameClient]
      exact inv.own_self
    · rw [made, sameClient]
      exact order
    · rw [made, sameClient]
      exact progress
  by_cases place : (world.session tid).conn.pc = .receive
  · cases arrives : (world.session tid).reads with
    | nil =>
        have stays : (world.session tid).step = world.session tid :=
          Session.step_finished (Or.inr ⟨place, arrives⟩)
        apply advances
        · rw [stays]
          exact inv.order
        · rw [stays]
          exact inv.progress
    | cons result later =>
        have order : reads tid =
            (world.received reads tid ++ [result]) ++ (world.session tid).step.reads := by
          rw [Session.step_receive place arrives, List.append_assoc]
          change reads tid = world.received reads tid ++ result :: later
          rw [← arrives]
          exact inv.order
        apply advances order
        have more := Session.progress_receive inv.progress place arrives
        rw [List.flatMap_append]
        simpa using more
  · apply advances
    · rw [Session.step_reads place]
      exact inv.order
    · exact Session.progress_step inv.progress place

theorem ClientInv.step (inv : ClientInv reads world tid) (mover : Nat) :
    ClientInv reads (world.step mover) tid := by
  by_cases other : tid ≠ mover
  · have unchanged := step_client_other world other
    have sameReceived : (world.step mover).received reads tid = world.received reads tid := by
      unfold received
      rw [unchanged]
    constructor
    · rw [answersTo_other world other, unchanged]
      exact inv.own
    · rw [sameReceived, unchanged]
      exact inv.order
    · rw [sameReceived, unchanged]
      exact inv.progress
  · obtain rfl : tid = mover := not_not.mp other
    exact inv.step_self

theorem run_client (file : OpenFile) (reads : Nat → List SockRead) (taken : Nat → Nat → Nat)
    (schedule : List Nat) (tid : Nat) :
    ClientInv reads ((start file reads taken : World charDevice).run schedule) tid := by
  induction schedule using List.reverseRecOn with
  | nil => exact start_client file reads taken tid
  | append_singleton earlier mover ih =>
      unfold run at ih ⊢
      rw [List.foldl_append]
      exact ih.step mover

theorem ClientInv.answered_data (inv : ClientInv reads world tid)
    (waits : (world.client tid).conn.pc = .receive) :
    ((world.answersTo tid).filter Answer.isData).map Answer.line =
      (world.received reads tid).flatMap SockRead.seenData := by
  have progress := inv.progress
  simp only [Progress, waits] at progress
  have kinds : (fun answer : Answer => answer.isData) =
      (fun line : Bytes => !decide (IsSeek line)) ∘ Answer.line := rfl
  calc ((world.answersTo tid).filter Answer.isData).map Answer.line
      = ((world.client tid).conn.answers.filter Answer.isData).map Answer.line := by rw [inv.own]
    _ = ((world.client tid).conn.answers.map Answer.line).filter
          fun line => !decide (IsSeek line) := by rw [List.filter_map, ← kinds]
    _ = (world.received reads tid).flatMap SockRead.seenData := by
          rw [progress, List.filter_flatMap]
          rfl

/-! ### The contract -/

/-- What holds in a world when `dataLines` are the data lines of a read. The
answers to data lines stand in the order in which the lines were dispatched, and
each is the last lines of the device after its line; a client that waits for its
next chunk has had all its data lines answered. -/
structure ResponseContract (stored : List Bytes) (reads : Nat → List SockRead)
    (dataLines : SockRead → List Bytes) (world : World charDevice) : Prop where
  answers : AnswersRight stored world.dataAnswers
  device : world.fileLock = none →
    world.file.lines = retain maxWriteOperationsSupported stored
        (world.dataAnswers.map Answer.line) ∧
      world.operations.filterMap FileCall.written = world.dataAnswers.map Answer.line
  own : ∀ tid, world.answersTo tid = (world.client tid).conn.answers
  complete : ∀ tid, (world.client tid).conn.pc = .receive →
    ((world.answersTo tid).filter Answer.isData).map Answer.line =
      (world.received reads tid).flatMap dataLines
  finishes : ∀ tid, world.fileLock = some tid →
    ∃ rounds, (world.run (List.replicate rounds tid)).fileLock = none

theorem contract_iff_seen {file : OpenFile} (clean : file.kernel.dev.pending = [])
    (reads : Nat → List SockRead) (taken : Nat → Nat → Nat) (schedule : List Nat)
    (dataLines : SockRead → List Bytes) :
    ResponseContract file.lines reads dataLines
        ((start file reads taken : World charDevice).run schedule) ↔
      ∀ tid, (((start file reads taken : World charDevice).run schedule).client tid).conn.pc =
          .receive →
        (((start file reads taken : World charDevice).run schedule).received reads tid).flatMap
            SockRead.seenData =
          (((start file reads taken : World charDevice).run schedule).received reads tid).flatMap
            dataLines := by
  have inv := run_inv clean reads taken schedule
  have clients := run_client file reads taken schedule
  constructor
  · intro contract tid waits
    rw [← (clients tid).answered_data waits]
    exact contract.complete tid waits
  · intro seen
    constructor
    · cases lock : ((start file reads taken : World charDevice).run schedule).fileLock with
      | none => exact (inv.free lock).right
      | some tid => exact (inv.busy tid lock).device.right
    · intro free
      have device := inv.free free
      have held := device.held
      have writes := device.writes
      rw [List.append_nil] at held writes
      exact ⟨held, writes⟩
    · exact fun tid => (clients tid).own
    · intro tid waits
      rw [(clients tid).answered_data waits]
      exact seen tid waits
    · exact fun tid held => inv.finishes held

/-- After every run the contract holds for the data lines in front of the first
NUL of their chunk. -/
theorem response_contract (file : OpenFile) (clean : file.kernel.dev.pending = [])
    (reads : Nat → List SockRead) (taken : Nat → Nat → Nat) (schedule : List Nat) :
    ResponseContract file.lines reads SockRead.seenData
      ((start file reads taken : World charDevice).run schedule) :=
  (contract_iff_seen clean reads taken schedule SockRead.seenData).mpr fun _ _ => rfl

theorem response_contract_two_clients :
    OpenFile.init.kernel.dev.pending = [] ∧
      ResponseContract OpenFile.init.lines (fun _ => [.chunk Session.oneLine]) SockRead.seenData
        ((start OpenFile.init (fun _ => [.chunk Session.oneLine]) (fun _ _ => 0) :
          World charDevice).run (List.replicate 10 0 ++ List.replicate 12 1)) :=
  ⟨rfl, response_contract OpenFile.init rfl (fun _ => [.chunk Session.oneLine]) (fun _ _ => 0)
    (List.replicate 10 0 ++ List.replicate 12 1)⟩

def nulThenData : Chunk :=
  { bytes := [0, 10, 97, 98, 99, 10], nonempty := by decide, fits := by decide }

/-- The data line of `nulThenData` is neither stored nor answered. -/
theorem data_behind_nul_unanswered :
    ¬ ∀ (file : OpenFile), file.kernel.dev.pending = [] →
      ∀ (reads : Nat → List SockRead) (taken : Nat → Nat → Nat) (schedule : List Nat),
        ResponseContract file.lines reads SockRead.dataLines
          ((start file reads taken : World charDevice).run schedule) := by
  intro every
  have contract := every OpenFile.init rfl (fun _ => [.chunk nulThenData]) (fun _ _ => 0) [0, 0, 0]
  exact absurd (contract.complete 0 (by decide)) (by decide)

theorem seenData_complete_iff (results : List SockRead) :
    results.flatMap SockRead.seenData = results.flatMap SockRead.dataLines ↔
      ∀ chunk, SockRead.chunk chunk ∈ results → chunk.DataBeforeNul := by
  rw [flatMap_eq_iff_pieces seenData_prefix]
  constructor
  · intro same chunk member
    exact (seenData_eq_iff chunk).mp (same _ member)
  · intro ordered result member
    cases result with
    | chunk chunk => exact (seenData_eq_iff chunk).mpr (ordered chunk member)
    | notReady => rfl
    | closed => rfl

/-- The contract holds for all data lines exactly when no waiting client has
sent a line with a NUL before a data line of the same chunk. -/
theorem contract_all_data_iff {file : OpenFile} (clean : file.kernel.dev.pending = [])
    (reads : Nat → List SockRead) (taken : Nat → Nat → Nat) (schedule : List Nat) :
    ResponseContract file.lines reads SockRead.dataLines
        ((start file reads taken : World charDevice).run schedule) ↔
      ∀ tid, (((start file reads taken : World charDevice).run schedule).client tid).conn.pc =
          .receive →
        ∀ chunk, SockRead.chunk chunk ∈
            ((start file reads taken : World charDevice).run schedule).received reads tid →
          chunk.DataBeforeNul := by
  rw [contract_iff_seen clean]
  constructor
  · intro complete tid waits
    exact (seenData_complete_iff _).mp (complete tid waits)
  · intro ordered tid waits
    exact (seenData_complete_iff _).mpr (ordered tid waits)

end World

end Aesd.Server
