import RrPython.Foundation.Ledger
import RrPython.Recorder.Steps

/-!
# Module — loading and unloading `record.ko`

`recorder_init` and `recorder_exit` of `main.c` with the init and remove functions they call.  Between
the two the hooks run.  What the module acquires from the kernel is kept in a ledger; its records are in
the kernel heap, which outlives it.
-/

namespace RrPython

open Foundation

/-- What the init functions acquire.  `register_kretprobes` registers all probes of its array or none. -/
inductive Resource
  /-- The buffer of `recorded_syscalls`. -/
  | fifo
  | syscallKretprobe
  | copyKretprobes
  | putUserKretprobes
  | syscallWrappers
  /-- `/proc/syscall_dumper`. -/
  | procSyscallDumper
  /-- `/proc/recorded_process`. -/
  | procRecordedProcess
  deriving DecidableEq, Repr

/-- Which acquisitions succeed when the module is loaded. -/
structure Acquisitions where
  kfifoAlloc : Bool
  registerSyscall : Bool
  registerCopy : Bool
  registerPutUser : Bool
  registerWrappers : Bool
  createDumper : Bool
  createLoader : Bool
  deriving DecidableEq, Repr

namespace Recorder

def initSyscallHook (l : Ledger Resource) (o : Acquisitions) : Ledger Resource × Int :=
  -- cleanup_unregister_kprobe
  if !o.kfifoAlloc then (l.release .syscallKretprobe, -1)
  else
    let l := l.acquire .fifo
    if !o.registerSyscall then (l, -1) else (l.acquire .syscallKretprobe, 0)

def removeSyscallHook (l : Ledger Resource) : Ledger Resource :=
  (l.release .syscallKretprobe).release .fifo

def initCopyHook (l : Ledger Resource) (o : Acquisitions) : Ledger Resource × Int :=
  if !o.registerCopy then (l, -1)
  else
    let l := l.acquire .copyKretprobes
    if !o.registerPutUser then (l, -1) else (l.acquire .putUserKretprobes, 0)

def removeCopyHook (l : Ledger Resource) : Ledger Resource :=
  (l.release .copyKretprobes).release .putUserKretprobes

/-- The init functions that acquire one resource. -/
def initOne (l : Ledger Resource) (r : Resource) (succeeds : Bool) : Ledger Resource × Int :=
  if !succeeds then (l, -1) else (l.acquire r, 0)

def initSyscallWrappers (l : Ledger Resource) (o : Acquisitions) : Ledger Resource × Int :=
  initOne l .syscallWrappers o.registerWrappers

def removeSyscallWrappers (l : Ledger Resource) : Ledger Resource :=
  l.release .syscallWrappers

def initSyscallDumper (l : Ledger Resource) (o : Acquisitions) : Ledger Resource × Int :=
  initOne l .procSyscallDumper o.createDumper

def removeSyscallDumper (l : Ledger Resource) : Ledger Resource :=
  l.release .procSyscallDumper

def initRecordedProcessesLoader (l : Ledger Resource) (o : Acquisitions) : Ledger Resource × Int :=
  initOne l .procRecordedProcess o.createLoader

def removeRecordedProcessesLoader (l : Ledger Resource) : Ledger Resource :=
  l.release .procRecordedProcess

/-- The cleanup labels of `recorder_init`, each of which falls through to the next. -/
def cleanupSyscallHook (l : Ledger Resource) : Ledger Resource :=
  removeSyscallHook l

def cleanupCopyHook (l : Ledger Resource) : Ledger Resource :=
  cleanupSyscallHook (removeCopyHook l)

def cleanupSyscallWrapper (l : Ledger Resource) : Ledger Resource :=
  cleanupCopyHook (removeSyscallWrappers l)

def cleanupSyscallDumper (l : Ledger Resource) : Ledger Resource :=
  cleanupSyscallWrapper (removeSyscallDumper l)

def recorderInit (l : Ledger Resource) (o : Acquisitions) : Ledger Resource × Int :=
  let (l, ret) := initSyscallHook l o
  if ret ≠ 0 then (l, -1)
  else
    let (l, ret) := initCopyHook l o
    if ret ≠ 0 then (cleanupSyscallHook l, -1)
    else
      let (l, ret) := initSyscallWrappers l o
      if ret ≠ 0 then (cleanupCopyHook l, -1)
      else
        let (l, ret) := initSyscallDumper l o
        if ret ≠ 0 then (cleanupSyscallWrapper l, -1)
        else
          let (l, ret) := initRecordedProcessesLoader l o
          if ret ≠ 0 then (cleanupSyscallDumper l, -1) else (l, 0)

def recorderExit (l : Ledger Resource) : Ledger Resource :=
  removeSyscallHook (removeCopyHook (removeRecordedProcessesLoader (removeSyscallWrappers
    (removeSyscallDumper l))))

/-! ## What is undone -/

variable {l : Ledger Resource} {o : Acquisitions}

/-- The ledger once `init_syscall_hook` has succeeded. -/
def syscallHooked (l : Ledger Resource) : Ledger Resource :=
  (l.acquire .fifo).acquire .syscallKretprobe

/-- The ledger once `init_copy_hook` has succeeded. -/
def copyHooked (l : Ledger Resource) : Ledger Resource :=
  (l.acquire .copyKretprobes).acquire .putUserKretprobes

/-- The ledger of the loaded module. -/
def full (l : Ledger Resource) : Ledger Resource :=
  (((copyHooked (syscallHooked l)).acquire .syscallWrappers).acquire .procSyscallDumper).acquire
    .procRecordedProcess

/-- Nothing is acquired. -/
def Free (l : Ledger Resource) : Prop :=
  ∀ r, l.acquired r = false

theorem removeSyscallHook_hooked (h : Free l) : removeSyscallHook (syscallHooked l) = l := by
  have hprobe : (l.acquire .fifo).acquired .syscallKretprobe = false := by
    rw [Ledger.acquired_acquire_of_ne (by decide), h]
  rw [removeSyscallHook, syscallHooked, Ledger.release_acquire hprobe, Ledger.release_acquire (h .fifo)]

/-- The two sets of probes are released in the order in which they were acquired. -/
theorem removeCopyHook_hooked (hcopy : l.acquired .copyKretprobes = false)
    (hput : l.acquired .putUserKretprobes = false) : removeCopyHook (copyHooked l) = l := by
  rw [removeCopyHook, copyHooked, Ledger.release_acquire_comm (by decide), Ledger.release_acquire hcopy,
    Ledger.release_acquire hput]

theorem acquired_copyHooked {r : Resource} (hcopy : r ≠ .copyKretprobes)
    (hput : r ≠ .putUserKretprobes) : (copyHooked l).acquired r = l.acquired r := by
  rw [copyHooked, Ledger.acquired_acquire_of_ne hput, Ledger.acquired_acquire_of_ne hcopy]

theorem acquired_syscallHooked {r : Resource} (hfifo : r ≠ .fifo) (hprobe : r ≠ .syscallKretprobe) :
    (syscallHooked l).acquired r = l.acquired r := by
  rw [syscallHooked, Ledger.acquired_acquire_of_ne hprobe, Ledger.acquired_acquire_of_ne hfifo]

theorem cleanupCopyHook_hooked (h : Free l) :
    cleanupCopyHook (copyHooked (syscallHooked l)) = l := by
  rw [cleanupCopyHook, cleanupSyscallHook, removeCopyHook_hooked, removeSyscallHook_hooked h]
  · rw [acquired_syscallHooked (by decide) (by decide), h]
  · rw [acquired_syscallHooked (by decide) (by decide), h]

theorem cleanupSyscallWrapper_hooked (h : Free l) :
    cleanupSyscallWrapper ((copyHooked (syscallHooked l)).acquire .syscallWrappers) = l := by
  rw [cleanupSyscallWrapper, removeSyscallWrappers, Ledger.release_acquire, cleanupCopyHook_hooked h]
  rw [acquired_copyHooked (by decide) (by decide), acquired_syscallHooked (by decide) (by decide), h]

theorem acquired_wrapped (h : Free l) {r : Resource} (hr : r = .procSyscallDumper ∨
    r = .procRecordedProcess) :
    ((copyHooked (syscallHooked l)).acquire .syscallWrappers).acquired r = false := by
  rcases hr with rfl | rfl
  · rw [Ledger.acquired_acquire_of_ne (by decide), acquired_copyHooked (by decide) (by decide),
      acquired_syscallHooked (by decide) (by decide), h]
  · rw [Ledger.acquired_acquire_of_ne (by decide), acquired_copyHooked (by decide) (by decide),
      acquired_syscallHooked (by decide) (by decide), h]

theorem cleanupSyscallDumper_hooked (h : Free l) :
    cleanupSyscallDumper (((copyHooked (syscallHooked l)).acquire .syscallWrappers).acquire
      .procSyscallDumper) = l := by
  rw [cleanupSyscallDumper, removeSyscallDumper, Ledger.release_acquire, cleanupSyscallWrapper_hooked h]
  exact acquired_wrapped h (Or.inl rfl)

/-- `recorder_exit` releases what the loaded module has acquired. -/
theorem recorderExit_full (h : Free l) : recorderExit (full l) = l := by
  have hdumper := acquired_wrapped h (Or.inl rfl)
  have hloader := acquired_wrapped h (Or.inr rfl)
  have hwrappers : (copyHooked (syscallHooked l)).acquired .syscallWrappers = false := by
    rw [acquired_copyHooked (by decide) (by decide), acquired_syscallHooked (by decide) (by decide), h]
  have hloader' : (copyHooked (syscallHooked l)).acquired .procRecordedProcess = false := by
    rwa [Ledger.acquired_acquire_of_ne (by decide)] at hloader
  calc
    recorderExit (full l)
        = removeSyscallHook (removeCopyHook ((copyHooked (syscallHooked l)))) := by
          rw [recorderExit, full, removeSyscallDumper, removeSyscallWrappers,
            removeRecordedProcessesLoader, Ledger.release_acquire_comm (by decide),
            Ledger.release_acquire hdumper, Ledger.release_acquire_comm (by decide),
            Ledger.release_acquire hwrappers, Ledger.release_acquire hloader']
    _ = l := cleanupCopyHook_hooked h

/-! ## The outcomes of `recorder_init` -/

/-- The acquisitions for which the cleanup is complete: a failure may come after the two of
`init_syscall_hook`, and not between the two of `init_copy_hook`. -/
def CleanlyUndone (o : Acquisitions) : Prop :=
  o.kfifoAlloc = true ∧ o.registerSyscall = true ∧
    (o.registerCopy = true → o.registerPutUser = true)

theorem recorderInit_cleanly (h : Free l) (ho : CleanlyUndone o) :
    recorderInit l o = (l, -1) ∨ recorderInit l o = (full l, 0) := by
  -- one case for each init function that fails, and the last one for a load
  obtain ⟨hkfifo, hsyscall, hput⟩ := ho
  have hsyscallHook : initSyscallHook l o = (syscallHooked l, 0) := by
    simp [initSyscallHook, hkfifo, hsyscall, syscallHooked]
  cases hcopy : o.registerCopy with
  | false =>
      left
      simp [recorderInit, hsyscallHook, initCopyHook, hcopy, cleanupSyscallHook,
        removeSyscallHook_hooked h]
  | true =>
      have hcopyHook : initCopyHook (syscallHooked l) o = (copyHooked (syscallHooked l), 0) := by
        simp [initCopyHook, hcopy, hput hcopy, copyHooked]
      cases hwrappers : o.registerWrappers with
      | false =>
          left
          simp [recorderInit, hsyscallHook, hcopyHook, initSyscallWrappers, initOne, hwrappers,
            cleanupCopyHook_hooked h]
      | true =>
          cases hdumper : o.createDumper with
          | false =>
              left
              simp [recorderInit, hsyscallHook, hcopyHook, initSyscallWrappers, initSyscallDumper,
                initOne, hwrappers, hdumper, cleanupSyscallWrapper_hooked h]
          | true =>
              cases hloader : o.createLoader with
              | false =>
                  left
                  simp [recorderInit, hsyscallHook, hcopyHook, initSyscallWrappers, initSyscallDumper,
                    initRecordedProcessesLoader, initOne, hwrappers, hdumper, hloader,
                    cleanupSyscallDumper_hooked h]
              | true =>
                  right
                  simp [recorderInit, hsyscallHook, hcopyHook, initSyscallWrappers, initSyscallDumper,
                    initRecordedProcessesLoader, initOne, hwrappers, hdumper, hloader, full]

/-- Otherwise the module is not loaded, and either something is left or a probe is unregistered that
was not registered. -/
theorem recorderInit_uncleanly (h : Free l) (ho : ¬CleanlyUndone o) :
    ∃ l', recorderInit l o = (l', -1) ∧ (¬Free l' ∨ l'.badReleases ≠ []) := by
  cases hkfifo : o.kfifoAlloc with
  | false =>
      -- without a buffer `init_syscall_hook` unregisters the probe that it has not registered
      refine ⟨l.release .syscallKretprobe, by simp [recorderInit, initSyscallHook, hkfifo],
        Or.inr ?_⟩
      rw [Ledger.badReleases_release_free (h .syscallKretprobe)]
      simp
  | true =>
      cases hsyscall : o.registerSyscall with
      | false =>
          -- without the probe the buffer stays allocated
          refine ⟨l.acquire .fifo, by simp [recorderInit, initSyscallHook, hkfifo, hsyscall],
            Or.inl fun hfree => ?_⟩
          have hfifo := hfree .fifo
          rw [Ledger.acquired_acquire_self] at hfifo
          cases hfifo
      | true =>
          have hcopy : o.registerCopy = true ∧ o.registerPutUser = false := by
            simpa [CleanlyUndone, hkfifo, hsyscall] using ho
          -- without the probes on `put_user` those on the copy functions stay registered
          refine ⟨l.acquire .copyKretprobes, ?_, Or.inl fun hfree => ?_⟩
          · have hremove : removeSyscallHook ((syscallHooked l).acquire .copyKretprobes) =
                l.acquire .copyKretprobes := by
              rw [removeSyscallHook, Ledger.release_acquire_comm (by decide),
                Ledger.release_acquire_comm (by decide)]
              exact congrArg (Ledger.acquire · .copyKretprobes) (removeSyscallHook_hooked h)
            simpa [recorderInit, initSyscallHook, initCopyHook, hkfifo, hsyscall, hcopy,
              cleanupSyscallHook, syscallHooked] using hremove
          · have hprobes := hfree .copyKretprobes
            rw [Ledger.acquired_acquire_self] at hprobes
            cases hprobes

end Recorder

/-! ## Loading and unloading -/

structure Recorder where
  ledger : Ledger Resource
  loaded : Bool
  /-- The state of the module while it is loaded, with the heap that it shares with earlier loads. -/
  sys : Sys

inductive LoadEvent
  | load (o : Acquisitions)
  | unload
  | hook (e : Event)

namespace Recorder

def init (taskPtRegs : Pid → PtRegs) : Recorder where
  ledger := Ledger.empty
  loaded := false
  sys := Sys.init 0 taskPtRegs

/-- The globals of a module that has just been loaded, and the heap as it is. -/
def fresh (s : Sys) : Sys :=
  { Sys.init 0 s.kernel.taskPtRegs with
    kernel := { (Sys.init 0 s.kernel.taskPtRegs).kernel with heap := s.kernel.heap } }

def step (s : Recorder) : LoadEvent → Except Fault Recorder
  | .load o =>
      if s.loaded then .error .impossible
      else
        let (ledger, ret) := recorderInit s.ledger o
        .ok { ledger, loaded := ret == 0, sys := fresh s.sys }
  | .unload =>
      if s.loaded then .ok { s with ledger := recorderExit s.ledger, loaded := false }
      else .error .impossible
  | .hook e =>
      if s.loaded then do
        let sys ← s.sys.step e
        pure { s with sys }
      else .error .impossible

/-- No record and no copy is allocated. -/
def NoRecords (s : Recorder) : Prop :=
  ∀ p, s.sys.kernel.heap p = none

/-- While the module is not loaded nothing of it is left, and nothing was released that was not
acquired. -/
structure LeavesNothing (s : Recorder) : Prop where
  resources : s.loaded = false → Free s.ledger
  records : s.loaded = false → s.NoRecords
  releases : s.ledger.badReleases = []

/-- A load acquires what it can undo, and an unload finds no record. -/
def Undoes (s : Recorder) : LoadEvent → Prop
  | .load o => s.loaded = false → CleanlyUndone o
  | .unload => s.loaded = true → s.NoRecords
  | .hook _ => True

/-! ## The invariant -/

/-- The loaded module holds what `recorder_init` acquires, and nothing else. -/
structure Inv (s : Recorder) : Prop where
  unloaded : s.loaded = false → Free s.ledger
  loaded : s.loaded = true → ∃ l, Free l ∧ l.badReleases = [] ∧ s.ledger = full l
  records : s.loaded = false → s.NoRecords
  releases : s.ledger.badReleases = []

theorem inv_init (taskPtRegs : Pid → PtRegs) : (init taskPtRegs).Inv :=
  ⟨fun _ _ => rfl, fun h => absurd h (by simp [init]), fun _ _ => rfl, rfl⟩

variable {s s' : Recorder}

theorem Inv.leavesNothing (h : s.Inv) : s.LeavesNothing :=
  ⟨h.unloaded, h.records, h.releases⟩

theorem Inv.load (h : s.Inv) (hloaded : s.loaded = false) (ho : CleanlyUndone o) :
    Inv { ledger := (recorderInit s.ledger o).1, loaded := (recorderInit s.ledger o).2 == 0,
          sys := fresh s.sys } := by
  have hfree := h.unloaded hloaded
  rcases recorderInit_cleanly hfree ho with hinit | hinit
  · rw [hinit]
    exact ⟨fun _ => hfree, fun hret => absurd hret (by simp), fun _ => h.records hloaded, h.releases⟩
  · rw [hinit]
    exact ⟨fun hret => absurd hret (by simp), fun _ => ⟨s.ledger, hfree, h.releases, rfl⟩,
      fun hret => absurd hret (by simp), h.releases⟩

theorem Inv.unload (h : s.Inv) (hloaded : s.loaded = true) (hrecords : s.NoRecords) :
    Inv { s with ledger := recorderExit s.ledger, loaded := false } := by
  rcases h.loaded hloaded with ⟨l, hfree, hreleases, hfull⟩
  have hexit : recorderExit s.ledger = l := by
    rw [hfull, recorderExit_full hfree]
  rw [hexit]
  exact ⟨fun _ => hfree, fun hload => absurd hload (by simp), fun _ => hrecords, hreleases⟩

theorem Inv.hook (h : s.Inv) (hloaded : s.loaded = true) (sys : Sys) : Inv { s with sys } := by
  refine ⟨h.unloaded, h.loaded, fun hunloaded => ?_, h.releases⟩
  rw [show s.loaded = false from hunloaded] at hloaded
  cases hloaded

theorem Inv.step (h : s.Inv) {e : LoadEvent} (hundoes : s.Undoes e) (hs : s.step e = .ok s') :
    s'.Inv := by
  cases e with
  | load o =>
      simp only [Recorder.step] at hs
      split_ifs at hs with hloaded
      cases hs
      have hunloaded : s.loaded = false := by
        simpa using hloaded
      exact h.load hunloaded (hundoes hunloaded)
  | unload =>
      simp only [Recorder.step] at hs
      split_ifs at hs with hloaded
      cases hs
      exact h.unload hloaded (hundoes hloaded)
  | hook e =>
      simp only [Recorder.step] at hs
      split_ifs at hs with hloaded
      cases hsys : s.sys.step e with
      | error f =>
          rw [hsys] at hs
          cases hs
      | ok sys =>
          rw [hsys] at hs
          cases hs
          exact h.hook hloaded sys

/-- A load that cannot undo what it has acquired, and an unload that finds a record, leave something. -/
theorem Inv.leaves (h : s.Inv) {e : LoadEvent} (hundoes : ¬s.Undoes e) :
    ∃ s', s.step e = .ok s' ∧ ¬s'.LeavesNothing := by
  cases e with
  | load o =>
      obtain ⟨hunloaded, ho⟩ : s.loaded = false ∧ ¬CleanlyUndone o := by
        simpa [Undoes] using hundoes
      rcases recorderInit_uncleanly (h.unloaded hunloaded) ho with ⟨l, hinit, hleft⟩
      refine ⟨{ ledger := l, loaded := false, sys := fresh s.sys }, ?_, fun hnothing => ?_⟩
      · simp [Recorder.step, hunloaded, hinit]
      · rcases hleft with hfree | hreleases
        · exact hfree (hnothing.resources rfl)
        · exact hreleases hnothing.releases
  | unload =>
      obtain ⟨hloaded, hrecords⟩ : s.loaded = true ∧ ¬s.NoRecords := by
        simpa [Undoes] using hundoes
      exact ⟨_, if_pos hloaded, fun hnothing => hrecords (hnothing.records rfl)⟩
  | hook e =>
      exact absurd trivial hundoes

/-! ## Every run -/

/-- A run leaves nothing behind exactly if every load acquires what it can undo and every unload finds
no record. -/
theorem leavesNothing_iff_undoes (taskPtRegs : Pid → PtRegs) (es : List LoadEvent) :
    Throughout step LeavesNothing (init taskPtRegs) es ↔ AllSteps step Undoes (init taskPtRegs) es :=
  throughout_iff_allSteps (I := Inv) (fun _ h => h.leavesNothing)
    (fun _ _ _ h hundoes hs => h.step hundoes hs) (fun _ _ h hundoes => h.leaves hundoes)
    (inv_init taskPtRegs)

/-- `register_kretprobe` fails once the FIFO is allocated. -/
def noSyscallProbe : Acquisitions where
  kfifoAlloc := true
  registerSyscall := false
  registerCopy := true
  registerPutUser := true
  registerWrappers := true
  createDumper := true
  createLoader := true

theorem not_leavesNothing_noSyscallProbe :
    ¬Throughout step LeavesNothing (init fun _ _ => 0) [.load noSyscallProbe] := by
  intro h
  have hfifo := (h.of_run rfl).resources rfl .fifo
  cases hfifo

end Recorder

end RrPython
