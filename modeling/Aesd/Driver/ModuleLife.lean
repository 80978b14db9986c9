/-
The module from one load to the next (main.c).

A host loads the module, opens and closes its device, calls it and unloads the
module again, any number of times; a load may fail. The kernel refuses to load a
module twice and to unload one whose device is open. Seen from outside every
load makes an empty device of lines, and nothing of an earlier load is left, save
the descriptors that are never freed.
-/

import Aesd.Driver.LineDevice
import Aesd.Driver.Ownership

namespace Aesd.Driver

open CircularBuffer LineStream AesdCircularBuffer

/-! ### The module -/

structure DevNumber where
  major : Nat
  minor : Nat
  deriving DecidableEq, Repr

/-- `MKDEV(major, aesd_minor)` -/
def devNumber (major : Nat) : DevNumber := { major := major, minor := 0 }

def enxio : Int := 6

def ebadf : Int := 9

def ewouldblock : Int := 11

def eexist : Int := 17

def enoent : Int := 2

/-- The variables of the loaded module, and the files open on its device. -/
structure LoadedModule where
  aesdMajor : Nat
  dev : AesdDev
  fPos : Nat → Int
  opened : List Nat

/-- `regions` are the numbers reserved by `alloc_chrdev_region`, `cdevs` those at
which `cdev_add` has put the device. -/
structure Host where
  slab : Slab
  regions : List DevNumber
  cdevs : List DevNumber
  loaded : Option LoadedModule

/-- A load with the results of `alloc_chrdev_region` and `cdev_add`, and what users
do. -/
inductive HostEvent where
  | load (region : Int) (major : Nat) (cdevAdd : Int)
  | unload
  | openFile (node : DevNumber) (file : Nat)
  | release (file : Nat)
  | call (op : Op)

namespace Host

def booted : Host := { slab := Slab.empty, regions := [], cdevs := [], loaded := none }

def aesdSetupCdev (host : Host) (devno : DevNumber) (err : Int) : Host × Int :=
  if err = 0 then ({ host with cdevs := devno :: host.cdevs }, err) else (host, err)

def aesdInitModule (host : Host) (region : Int) (major : Nat) (cdevAdd : Int) : Host × Int :=
  if region < 0 then (host, region)
  else
    let reserved := { host with regions := devNumber major :: host.regions }
    let added := reserved.aesdSetupCdev (devNumber major) cdevAdd
    if added.2 ≠ 0 then
      ({ added.1 with regions := added.1.regions.erase (devNumber major) }, added.2)
    else
      ({ added.1 with
          loaded := some
            { aesdMajor := major
              dev := Driver.aesdInitModule
              fPos := fun _ => 0
              opened := [] } },
        added.2)

/-- `cdev_del`, the frees and `unregister_chrdev_region`. -/
def aesdCleanupModule (host : Host) (loaded : LoadedModule) : Host :=
  { slab := (Driver.aesdCleanupModule { dev := loaded.dev, slab := host.slab }).slab
    regions := host.regions.erase (devNumber loaded.aesdMajor)
    cdevs := host.cdevs.erase (devNumber loaded.aesdMajor)
    loaded := none }

/-- `aesd_open` returns 0 and makes the device known to the file. -/
def aesdOpen (loaded : LoadedModule) (file : Nat) : LoadedModule :=
  { loaded with fPos := Function.update loaded.fPos file 0, opened := file :: loaded.opened }

def aesdRelease (loaded : LoadedModule) (file : Nat) : LoadedModule :=
  { loaded with opened := loaded.opened.erase file }

def device (host : Host) (loaded : LoadedModule) : OpenDevice :=
  { kernel := { dev := loaded.dev, slab := host.slab }, fPos := loaded.fPos }

def callFile (host : Host) (loaded : LoadedModule) (op : Op) : Host :=
  let next := (host.device loaded).step op
  { host with
    slab := next.kernel.slab
    loaded := some { loaded with dev := next.kernel.dev, fPos := next.fPos } }

end Host

def statusReply (retval : Int) : Reply := { outcome := .returned retval, data := [] }

def host : Machine Host HostEvent Reply :=
  { step := fun host event =>
      match event, host.loaded with
      | .load region major cdevAdd, none =>
          let inited := host.aesdInitModule region major cdevAdd
          (inited.1, statusReply inited.2)
      | .load _ _ _, some _ => (host, statusReply (-eexist))
      | .unload, none => (host, statusReply (-enoent))
      | .unload, some loaded =>
          if loaded.opened = [] then (host.aesdCleanupModule loaded, statusReply 0)
          else (host, statusReply (-ewouldblock))
      | .openFile node file, some loaded =>
          if node ∈ host.cdevs ∧ file ∉ loaded.opened then
            ({ host with loaded := some (Host.aesdOpen loaded file) }, statusReply 0)
          else (host, statusReply (-enxio))
      | .openFile _ _, none => (host, statusReply (-enxio))
      | .release file, some loaded =>
          if file ∈ loaded.opened then
            ({ host with loaded := some (Host.aesdRelease loaded file) }, statusReply 0)
          else (host, statusReply (-ebadf))
      | .release _, none => (host, statusReply (-ebadf))
      | .call op, some loaded =>
          if op.file ∈ loaded.opened then
            (host.callFile loaded op, ((host.device loaded).call op).reply)
          else (host, statusReply (-ebadf))
      | .call _, none => (host, statusReply (-ebadf)) }

/-! ### What users see -/

/-- A device of lines that may be there, at some number. -/
structure PresentLines where
  major : Nat
  lines : LineDevice
  opened : List Nat

def lineHost : Machine (Option PresentLines) HostEvent Reply :=
  { step := fun present event =>
      match event, present with
      | .load region major cdevAdd, none =>
          if region < 0 then (none, statusReply region)
          else if cdevAdd ≠ 0 then (none, statusReply cdevAdd)
          else (some { major := major, lines := LineDevice.init, opened := [] }, statusReply 0)
      | .load _ _ _, some present => (some present, statusReply (-eexist))
      | .unload, none => (none, statusReply (-enoent))
      | .unload, some present =>
          if present.opened = [] then (none, statusReply 0)
          else (some present, statusReply (-ewouldblock))
      | .openFile node file, some present =>
          if node = devNumber present.major ∧ file ∉ present.opened then
            (some
              { present with
                lines :=
                  { present.lines with fPos := Function.update present.lines.fPos file 0 }
                opened := file :: present.opened },
              statusReply 0)
          else (some present, statusReply (-enxio))
      | .openFile _ _, none => (none, statusReply (-enxio))
      | .release file, some present =>
          if file ∈ present.opened then
            (some { present with opened := present.opened.erase file }, statusReply 0)
          else (some present, statusReply (-ebadf))
      | .release _, none => (none, statusReply (-ebadf))
      | .call op, some present =>
          if op.file ∈ present.opened then
            let next := lineDevice.step present.lines op
            (some { present with lines := next.1 }, next.2)
          else (some present, statusReply (-ebadf))
      | .call _, none => (none, statusReply (-ebadf)) }

/-! ### The host stands for the device of lines -/

/-- Numbers are reserved and the device is in place exactly while the module is
loaded, and then the device shows the lines. -/
inductive Stands : Host → Option PresentLines → Prop where
  | absent (slab : Slab) :
      Stands { slab := slab, regions := [], cdevs := [], loaded := none } none
  | present (slab : Slab) (loaded : LoadedModule) (lines : LineDevice)
      (shows : Shows { kernel := { dev := loaded.dev, slab := slab }, fPos := loaded.fPos } lines) :
      Stands
        { slab := slab
          regions := [devNumber loaded.aesdMajor]
          cdevs := [devNumber loaded.aesdMajor]
          loaded := some loaded }
        (some { major := loaded.aesdMajor, lines := lines, opened := loaded.opened })

theorem shows_fresh (slab : Slab) :
    Shows { kernel := { dev := aesdInitModule, slab := slab }, fPos := fun _ => 0 }
      LineDevice.init := by
  have journal := journal_init
  refine ⟨devInv_init, ?_, ?_, rfl⟩
  · exact congrArg Journal.records journal
  · exact congrArg Journal.unfinished journal

def HostEvent.DescriptorsAllocated : HostEvent → Prop
  | .call op => op.DescriptorsAllocated
  | _ => True

/-- A load that fails leaves nothing behind. -/
theorem aesdInitModule_eq (state : Host) (region : Int) (major : Nat) (cdevAdd : Int) :
    state.aesdInitModule region major cdevAdd =
      if region < 0 then (state, region)
      else if cdevAdd ≠ 0 then (state, cdevAdd)
      else
        ({ state with
            regions := devNumber major :: state.regions
            cdevs := devNumber major :: state.cdevs
            loaded := some
              { aesdMajor := major
                dev := aesdInitModule
                fPos := fun _ => 0
                opened := [] } },
          0) := by
  unfold Host.aesdInitModule Host.aesdSetupCdev
  dsimp only
  by_cases reserved : region < 0
  · rw [if_pos reserved, if_pos reserved]
  · rw [if_neg reserved, if_neg reserved]
    by_cases added : cdevAdd = 0
    · rw [if_pos added, if_neg (fun failed => failed added), if_neg (fun failed => failed added),
        added]
    · rw [if_neg added, if_pos added, if_pos added]
      dsimp only
      rw [List.erase_cons_head]

theorem Stands.load (slab : Slab) (region : Int) (major : Nat) (cdevAdd : Int) :
    let before : Host := { slab := slab, regions := [], cdevs := [], loaded := none }
    (host.step before (.load region major cdevAdd)).2 =
        (lineHost.step none (.load region major cdevAdd)).2 ∧
      Stands (host.step before (.load region major cdevAdd)).1
        (lineHost.step none (.load region major cdevAdd)).1 := by
  simp only [host, lineHost, aesdInitModule_eq]
  by_cases reserved : region < 0
  · rw [if_pos reserved, if_pos reserved]
    exact ⟨rfl, Stands.absent slab⟩
  · rw [if_neg reserved, if_neg reserved]
    by_cases failed : cdevAdd ≠ 0
    · rw [if_pos failed, if_pos failed]
      exact ⟨rfl, Stands.absent slab⟩
    · rw [if_neg failed, if_neg failed]
      refine ⟨rfl, ?_⟩
      exact Stands.present slab
        { aesdMajor := major, dev := aesdInitModule, fPos := fun _ => 0, opened := [] }
        LineDevice.init (shows_fresh slab)

section Present

variable {slab : Slab} {loaded : LoadedModule} {lines : LineDevice}

def Host.running (slab : Slab) (loaded : LoadedModule) : Host :=
  { slab := slab
    regions := [devNumber loaded.aesdMajor]
    cdevs := [devNumber loaded.aesdMajor]
    loaded := some loaded }

theorem Stands.step_present (shows : Shows ((Host.running slab loaded).device loaded) lines)
    {event : HostEvent} (allocated : event.DescriptorsAllocated) :
    let present : PresentLines :=
      { major := loaded.aesdMajor, lines := lines, opened := loaded.opened }
    (host.step (Host.running slab loaded) event).2 = (lineHost.step (some present) event).2 ∧
      Stands (host.step (Host.running slab loaded) event).1
        (lineHost.step (some present) event).1 := by
  have stays := Stands.present slab loaded lines shows
  cases event with
  | load region major cdevAdd => exact ⟨rfl, stays⟩
  | unload =>
      simp only [host, lineHost, Host.running]
      by_cases closed : loaded.opened = []
      · simp only [if_pos closed, Host.aesdCleanupModule, List.erase_cons_head]
        exact ⟨trivial, Stands.absent _⟩
      · simp only [if_neg closed]
        exact ⟨trivial, stays⟩
  | openFile node file =>
      simp only [host, lineHost, Host.running, List.mem_singleton]
      by_cases opens : node = devNumber loaded.aesdMajor ∧ file ∉ loaded.opened
      · simp only [if_pos opens]
        refine ⟨trivial, Stands.present slab (Host.aesdOpen loaded file) _ ?_⟩
        refine ⟨shows.inv, shows.records, shows.unfinished, ?_⟩
        change Function.update loaded.fPos file 0 = Function.update lines.fPos file 0
        rw [show loaded.fPos = lines.fPos from shows.fPos]
      · simp only [if_neg opens]
        exact ⟨trivial, stays⟩
  | release file =>
      simp only [host, lineHost, Host.running]
      by_cases closes : file ∈ loaded.opened
      · simp only [if_pos closes]
        exact ⟨trivial, Stands.present slab (Host.aesdRelease loaded file) lines shows⟩
      · simp only [if_neg closes]
        exact ⟨trivial, stays⟩
  | call op =>
      simp only [host, lineHost, Host.running]
      by_cases known : op.file ∈ loaded.opened
      · simp only [if_pos known]
        obtain ⟨answer, next⟩ := shows.step allocated
        exact ⟨answer, Stands.present _ { loaded with dev := _, fPos := _ } _ next⟩
      · simp only [if_neg known]
        exact ⟨trivial, stays⟩

end Present

theorem Stands.step {state : Host} {present : Option PresentLines} (stands : Stands state present)
    {event : HostEvent} (allocated : event.DescriptorsAllocated) :
    (host.step state event).2 = (lineHost.step present event).2 ∧
      Stands (host.step state event).1 (lineHost.step present event).1 := by
  cases stands with
  | absent slab =>
      cases event with
      | load region major cdevAdd => exact Stands.load slab region major cdevAdd
      | unload | openFile | release | call => exact ⟨rfl, Stands.absent slab⟩
  | present slab loaded lines shows => exact Stands.step_present shows allocated

theorem host_simulates : host.Simulates lineHost HostEvent.DescriptorsAllocated Stands := by
  constructor
  · exact fun _state _present _event stands allocated => (stands.step allocated).1
  · exact fun _state _present _event stands allocated => (stands.step allocated).2

/-! ### Memory from load to load -/

namespace Host

def kernel (host : Host) : Kernel :=
  { dev := host.loaded.elim Driver.aesdInitModule LoadedModule.dev, slab := host.slab }

def stores (state : Host) : HostEvent → List Nat
  | .call op =>
      match state.loaded with
      | some loaded => if op.file ∈ loaded.opened then (state.device loaded).stores op else []
      | none => []
  | _ => []

def stored : Host → List HostEvent → List Nat
  | _, [] => []
  | state, event :: later => state.stores event ++ ((host.step state event).1).stored later

end Host

theorem owned_fresh : aesdInitModule.owned = [] := by decide

/-- The live allocations are those of the device and descriptors nobody knows. -/
def HostAccounts (state : Host) (stored : List Nat) : Prop :=
  ∃ leaked, Accounts state.slab state.kernel.dev.owned leaked stored

theorem HostAccounts.same {state next : Host} {stored : List Nat}
    (accounts : HostAccounts state stored) (kernel : next.kernel = state.kernel) :
    HostAccounts next (stored ++ []) := by
  obtain ⟨leaked, accounts⟩ := accounts
  refine ⟨leaked, ?_⟩
  rw [List.append_nil]
  have slab : next.slab = state.slab := congrArg Kernel.slab kernel
  rw [slab, kernel]
  exact accounts

theorem HostAccounts.call {slab : Slab} {loaded : LoadedModule} {lines : LineDevice}
    (shows : Shows ((Host.running slab loaded).device loaded) lines) {stored : List Nat}
    (accounts : HostAccounts (Host.running slab loaded) stored) {op : Op}
    (allocated : op.DescriptorsAllocated) :
    HostAccounts ((Host.running slab loaded).callFile loaded op)
      (stored ++ ((Host.running slab loaded).device loaded).stores op) := by
  obtain ⟨leaked, accounts⟩ := accounts
  have every : ∀ other ∈ [op], other.DescriptorsAllocated := by
    intro other member
    rw [List.mem_singleton.mp member]
    exact allocated
  obtain ⟨more, after, _leakless⟩ :=
    @run_accounts ((Host.running slab loaded).device loaded) shows.inv [op] every leaked stored accounts
  rw [OpenDevice.stored, OpenDevice.stored, List.append_nil] at after
  exact ⟨more ++ leaked, after⟩

theorem HostAccounts.unload {slab : Slab} {loaded : LoadedModule} {lines : LineDevice}
    (shows : Shows ((Host.running slab loaded).device loaded) lines) {stored : List Nat}
    (accounts : HostAccounts (Host.running slab loaded) stored) :
    HostAccounts ((Host.running slab loaded).aesdCleanupModule loaded) stored := by
  obtain ⟨leaked, accounts⟩ := accounts
  obtain ⟨freed, _emptied⟩ := @aesdCleanupModule_accounts { dev := loaded.dev, slab := slab }
    shows.inv leaked stored accounts
  have slab_eq : ((Host.running slab loaded).aesdCleanupModule loaded).slab =
      (aesdCleanupModule { dev := loaded.dev, slab := slab }).slab := by
    simp only [Host.aesdCleanupModule, Host.running]
  have owned_eq : ((Host.running slab loaded).aesdCleanupModule loaded).kernel.dev.owned = [] :=
    owned_fresh
  unfold HostAccounts
  rw [slab_eq, owned_eq]
  exact ⟨leaked, freed⟩

theorem HostAccounts.step {state : Host} {present : Option PresentLines}
    (stands : Stands state present) {stored : List Nat} (accounts : HostAccounts state stored)
    {event : HostEvent} (allocated : event.DescriptorsAllocated) :
    HostAccounts (host.step state event).1 (stored ++ state.stores event) := by
  cases stands with
  | absent slab =>
      cases event with
      | load region major cdevAdd =>
          apply accounts.same
          simp only [host, aesdInitModule_eq]
          by_cases reserved : region < 0
          · rw [if_pos reserved]
          · rw [if_neg reserved]
            by_cases failed : cdevAdd ≠ 0
            · rw [if_pos failed]
            · rw [if_neg failed]
              rfl
      | unload | openFile | release | call => exact accounts.same rfl
  | present slab loaded lines shows =>
      cases event with
      | load region major cdevAdd => exact accounts.same rfl
      | unload =>
          by_cases closed : loaded.opened = []
          · simp only [host, Host.stores, if_pos closed]
            exact (HostAccounts.unload shows accounts).same rfl
          · apply accounts.same
            simp only [host, if_neg closed]
      | openFile node file =>
          apply accounts.same
          simp only [host]
          split <;> rfl
      | release file =>
          apply accounts.same
          simp only [host]
          split <;> rfl
      | call op =>
          by_cases known : op.file ∈ loaded.opened
          · simp only [host, Host.stores, if_pos known]
            exact HostAccounts.call shows accounts allocated
          · simp only [host, Host.stores, if_neg known]
            exact accounts.same rfl

theorem run_accounts_host {state : Host} {present : Option PresentLines}
    (stands : Stands state present) {stored : List Nat} (accounts : HostAccounts state stored)
    (events : List HostEvent) (allocated : ∀ event ∈ events, event.DescriptorsAllocated) :
    HostAccounts (host.run state events) (stored ++ state.stored events) := by
  induction events generalizing state present stored with
  | nil => exact accounts.same rfl
  | cons event later ih =>
      have here := allocated event List.mem_cons_self
      have after := accounts.step stands here
      rw [Host.stored, ← List.append_assoc]
      exact ih (stands.step here).2 after
        (fun other member => allocated other (List.mem_cons_of_mem event member))

theorem booted_stands : Stands Host.booted none := Stands.absent Slab.empty

theorem booted_accounts : HostAccounts Host.booted [] := by
  refine ⟨[], ?_⟩
  change Accounts Slab.empty aesdInitModule.owned [] []
  rw [owned_fresh]
  exact Accounts.init

/-- However often the module is loaded, with or without success, used and
unloaded: users get what an empty device of lines, made by every load, answers; the
device numbers are reserved exactly while the module is loaded; and the buffers
of all loads are freed once, at the latest with their module. -/
theorem module_generations (events : List HostEvent)
    (allocated : ∀ event ∈ events, event.DescriptorsAllocated) :
    host.answers Host.booted events = lineHost.answers none events ∧
      Stands (host.run Host.booted events) (lineHost.run none events) ∧
      OwnsItsBuffers (host.run Host.booted events).kernel (Host.booted.stored events) ∧
      ((host.run Host.booted events).loaded = none →
        ∀ id ∈ Host.booted.stored events,
          (host.run Host.booted events).slab.freed.count id = 1) := by
  have stands := host_simulates.run_related booted_stands events allocated
  obtain ⟨leaked, accounts⟩ := run_accounts_host booted_stands booted_accounts events allocated
  have owns : OwnsItsBuffers (host.run Host.booted events).kernel (Host.booted.stored events) :=
    accounts.ownsItsBuffers
  refine ⟨host_simulates.answers_eq booted_stands events allocated, stands, owns, ?_⟩
  intro unloaded id member
  apply owns.released id member
  have empty : (host.run Host.booted events).kernel.dev = aesdInitModule := by
    rw [Host.kernel, unloaded]
    rfl
  rw [empty, owned_fresh]
  exact List.not_mem_nil

/-- A load that fails, a load under which a line is written, and a second load
that finds nothing of it at the number of the first. -/
def twoLoads : List HostEvent :=
  [ .load 0 240 (-12), .load 0 241 0, .openFile (devNumber 241) 7,
    .call (.write 7 [97, 10] WriteFaults.none), .unload, .release 7, .unload, .load 0 242 0,
    .openFile (devNumber 241) 7, .openFile (devNumber 242) 7,
    .call (.read 7 5 { lockInterrupted := false, copyToUser := false }) ]

theorem module_generations_twoLoads :
    (∀ event ∈ twoLoads, event.DescriptorsAllocated) ∧
      host.answers Host.booted twoLoads =
        [-12, 0, 0, 2, -11, 0, 0, 0, -6, 0, 0].map statusReply := by
  have allocated : ∀ event ∈ twoLoads, event.DescriptorsAllocated := by
    intro event member
    simp only [twoLoads, List.mem_cons, List.not_mem_nil, or_false] at member
    rcases member with rfl | rfl | rfl | rfl | rfl | rfl | rfl | rfl | rfl | rfl | rfl
    any_goals trivial
    exact fun _index => rfl
  exact ⟨allocated, (module_generations twoLoads allocated).1.trans (by decide)⟩

end Aesd.Driver
