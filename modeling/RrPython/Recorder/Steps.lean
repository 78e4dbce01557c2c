import RrPython.Foundation.Lock
import RrPython.Recorder.Invariant

/-!
# Steps — the invariant of the whole system and what each event does

`Sys.Inv` ties the two global pointers to the stacks of the processes: each is set exactly while one
process is inside a function whose entry handler set it.  Under the invariant each event has a short
list of outcomes, one theorem per event.
-/

namespace RrPython

open Foundation

/-! ## Stacks -/

def Frame.isHookedWrite : Frame → Bool
  | .write _ hooked => hooked
  | _ => false

/-- How many recorded syscalls the process is inside. -/
def hookedSyscalls (fs : List Frame) : Nat :=
  fs.count (.syscall true)

/-- How many recorded writes the process is inside. -/
def hookedWrites (fs : List Frame) : Nat :=
  fs.countP Frame.isHookedWrite

@[simp] theorem hookedSyscalls_nil : hookedSyscalls [] = 0 := rfl

@[simp] theorem hookedSyscalls_syscall (hooked : Bool) (fs : List Frame) :
    hookedSyscalls (.syscall hooked :: fs) = hookedSyscalls fs + hooked.toNat := by
  cases hooked <;> simp [hookedSyscalls]

@[simp] theorem hookedSyscalls_write (fn : ProbedFn) (hooked : Bool) (fs : List Frame) :
    hookedSyscalls (.write fn hooked :: fs) = hookedSyscalls fs := by
  simp [hookedSyscalls]

@[simp] theorem hookedSyscalls_wrap (recorded : Option SyscallRecordedMem) (fs : List Frame) :
    hookedSyscalls (.wrap recorded :: fs) = hookedSyscalls fs := by
  simp [hookedSyscalls]

@[simp] theorem hookedWrites_nil : hookedWrites [] = 0 := rfl

@[simp] theorem hookedWrites_syscall (hooked : Bool) (fs : List Frame) :
    hookedWrites (.syscall hooked :: fs) = hookedWrites fs := by
  simp [hookedWrites, Frame.isHookedWrite]

@[simp] theorem hookedWrites_write (fn : ProbedFn) (hooked : Bool) (fs : List Frame) :
    hookedWrites (.write fn hooked :: fs) = hookedWrites fs + hooked.toNat := by
  cases hooked <;> simp [hookedWrites, Frame.isHookedWrite, List.countP_cons]

@[simp] theorem hookedWrites_wrap (recorded : Option SyscallRecordedMem) (fs : List Frame) :
    hookedWrites (.wrap recorded :: fs) = hookedWrites fs := by
  simp [hookedWrites, Frame.isHookedWrite]

theorem hookedSyscalls_pos {fs : List Frame} : 0 < hookedSyscalls fs ↔ .syscall true ∈ fs := by
  simp [hookedSyscalls, List.count_pos_iff]

theorem hookedWrites_pos {fs : List Frame} {fn : ProbedFn} (h : .write fn true ∈ fs) :
    0 < hookedWrites fs := by
  rw [hookedWrites, List.countP_pos_iff]
  exact ⟨_, h, rfl⟩

/-- A syscall is entered from user mode, so it is the outermost function of its process. -/
def SyscallsOutermost : List Frame → Prop
  | [] => True
  | f :: rest => (∀ hooked, f = .syscall hooked → rest = []) ∧ SyscallsOutermost rest

theorem counts_update {f : List Frame → Nat} {frames : Pid → List Frame} {p : Pid} {fs : List Frame}
    (h : f fs = f (frames p)) (q : Pid) : f (Function.update frames p fs q) = f (frames q) := by
  by_cases hq : q = p
  · subst hq
    rw [Function.update_self, h]
  · rw [Function.update_of_ne hq]

theorem counts_update_other {f : List Frame → Nat} (frames : Pid → List Frame) {p : Pid}
    (fs : List Frame) : ∀ q, q ≠ p → f (Function.update frames p fs q) = f (frames q) := by
  intro q hq
  rw [Function.update_of_ne hq]

/-! ## The invariant -/

namespace Sys

/-- The process is between a `pre_syscall` that answered 0 and its `post_syscall`. -/
def Recording (s : Sys) (p : Pid) : Prop :=
  .syscall true ∈ s.frames p

/-- The pending copy is the one that the entry handler of `fn` prepared. -/
def Pending (k : Kernel) (fn : ProbedFn) : Prop :=
  ∃ c regs, k.currentCopy = some c ∧ k.heap c = some (.copyRecord (fn.begun regs)) ∧
    (fn.begun regs).len.toNat + 40 ≤ kmallocMaxSize

structure Inv (s : Sys) : Prop where
  kernel : s.kernel.Inv
  record : Exclusive (s.kernel.currentSyscallRecord.isSome = true)
    (fun p => hookedSyscalls (s.frames p))
  copy : Exclusive (s.kernel.currentCopy.isSome = true) (fun p => hookedWrites (s.frames p))
  outermost : ∀ p, SyscallsOutermost (s.frames p)
  begun : ∀ p fn, .write fn true ∈ s.frames p → Pending s.kernel fn

theorem inv_init (pid : Int) (taskPtRegs : Pid → PtRegs) : (init pid taskPtRegs).Inv := by
  refine ⟨⟨⟨?_, ?_, ?_, ?_, ?_⟩, ?_, ?_, ?_⟩, ⟨?_, ?_⟩, ⟨?_, ?_⟩, ?_, ?_⟩ <;>
    simp [init, Kernel.owned, SyscallsOutermost]

/-- What may stop a run: no behaviour of the kernel, or a hook that reached the open record when
there is none. -/
def Stops (s : Sys) (f : Fault) : Prop :=
  f = .impossible ∨ (f = .nullDeref ∧ s.kernel.currentSyscallRecord = none)

theorem Pending.keeps {k k' : Kernel} {fn : ProbedFn} (h : Pending k fn) (hk : k.KeepsCopy k') :
    Pending k' fn := by
  obtain ⟨c, regs, hc, hblock, hlen⟩ := h
  exact ⟨c, regs, hk.pointer.trans hc, (hk.block c hc).trans hblock, hlen⟩

theorem Inv.isSome_of_recording {s : Sys} (h : s.Inv) {p : Pid} (hp : s.Recording p) :
    ∃ q, s.kernel.currentSyscallRecord = some q :=
  Option.isSome_iff_exists.1 (h.record.held_of_pos (hookedSyscalls_pos.2 hp))

theorem Inv.recording_unique {s : Sys} (h : s.Inv) {p q : Pid} (hp : s.Recording p)
    (hq : s.Recording q) : p = q :=
  h.record.unique (hookedSyscalls_pos.2 hp) (hookedSyscalls_pos.2 hq)

/-! ## What each event does -/

theorem inv_saveRegs {k : Kernel} (h : k.Inv) (p : Pid) (regs : PtRegs) : (k.saveRegs p regs).Inv :=
  h.of_same rfl rfl rfl rfl

theorem enterSyscall_cases (s : Sys) (p : Pid) (regs : PtRegs) (a : Option Ptr) :
    Meets (· = .impossible)
      (fun s' => s.frames p = [] ∧
        ((s' = s.move p [.syscall false] (s.kernel.saveRegs p regs) ∧
          (Kernel.neverReturns (regs .origRax) ∨ s.kernel.notRecorded p ∨
            s.kernel.currentSyscallRecord.isSome ∨ a = none)) ∨
        (∃ q, a = some q ∧
          s' = s.move p [.syscall true] ((s.kernel.saveRegs p regs).openRecord q
            ((s.kernel.saveRegs p regs).newRecord p)) ∧
          ¬Kernel.neverReturns (regs .origRax) ∧ ¬s.kernel.notRecorded p ∧
          s.kernel.currentSyscallRecord = none ∧ s.kernel.heap q = none)))
      (s.enterSyscall p regs a) := by
  unfold enterSyscall
  cases hframes : s.frames p with
  | cons f fs =>
      simp
  | nil =>
      refine Meets.bind
        (Kernel.preSyscall_cases (s.kernel.saveRegs p regs) p (regs .origRax) p a) ?_
      rintro x (⟨rfl, hreason⟩ | ⟨q, ha, rfl, hnr, hpid, hopen, hq⟩)
      · exact ⟨rfl, Or.inl ⟨rfl, hreason⟩⟩
      · exact ⟨rfl, Or.inr ⟨q, ha, rfl, hnr, hpid, hopen, hq⟩⟩

/-- `R` is the value of the open record, whose block is `r` at `q`. -/
structure Open (k : Kernel) (q : Ptr) (r : SyscallRecord Ptr) (R : Record) : Prop where
  current : k.currentSyscallRecord = some q
  block : k.heap q = some (.syscallRecord r)
  value : heapRecord k.heap q = some R

theorem exists_open {k : Kernel} (h : k.Inv) (hopen : k.currentSyscallRecord.isSome) :
    ∃ q r R, Open k q r R := by
  obtain ⟨q, hq⟩ := Option.isSome_iff_exists.1 hopen
  obtain ⟨r, hr⟩ := h.current_live hq
  obtain ⟨cs, _, _, hR⟩ := h.heap.heapRecord_eq hr
  exact ⟨q, r, _, hq, hr, hR⟩

/-- The record with value `R` as `post_syscall` completes it. -/
def completedValue (k : Kernel) (R : Record) : Record :=
  { R with ret := k.taskPtRegs R.userspaceRegsPtr .rax }

theorem newlyQueued_same {k k' : Kernel} (h : k'.recordedSyscalls = k.recordedSyscalls) :
    newlyQueued k k' = [] := by
  simp [newlyQueued, h]

theorem newlyQueued_push {k₀ k : Kernel} (h : k.Inv)
    (hfifo : k.recordedSyscalls = k₀.recordedSyscalls) {q : Ptr} {r : SyscallRecord Ptr} {R : Record}
    (hr : k.heap q = some (.syscallRecord r)) (hR : heapRecord k.heap q = some R) :
    newlyQueued k₀ (k.pushRecord q r) = [completedValue k R] := by
  have hvalue := h.pushRecord_value hr hR
  have hdrop : (k.pushRecord q r).recordedSyscalls.drop k₀.recordedSyscalls.length = [q] := by
    simp [Kernel.pushRecord, hfifo]
  rw [newlyQueued, hdrop]
  simp [hvalue, completedValue]

theorem exitSyscall_cases {s : Sys} (h : s.Inv) (p : Pid) (regs : PtRegs) :
    Meets (· = .impossible)
      (fun s' =>
        (s.frames p = [.syscall false] ∧ s' = s.move p [] (s.kernel.saveRegs p regs)) ∨
        (s.frames p = [.syscall true] ∧ ∃ q r R, Open s.kernel q r R ∧
          (((s.kernel.saveRegs p regs).hasRoom ∧
            s' = (s.move p [] ((s.kernel.saveRegs p regs).pushRecord q r)).log
              [completedValue (s.kernel.saveRegs p regs) R]) ∨
          (¬(s.kernel.saveRegs p regs).hasRoom ∧
            s' = s.move p [] ((s.kernel.saveRegs p regs).discardRecord q r)))))
      (s.exitSyscall p regs) := by
  have hout := h.outermost p
  unfold exitSyscall
  split
  · rename_i rest hframes
    -- a syscall is the outermost function, so its process is left outside
    rw [hframes] at hout
    have hrest : rest = [] := hout.1 true rfl
    subst hrest
    have hrec : s.Recording p := by
      simp [Recording, hframes]
    have hsome : s.kernel.currentSyscallRecord.isSome := by
      obtain ⟨q, hq⟩ := h.isSome_of_recording hrec
      simp [hq]
    obtain ⟨q, r, R, hopen⟩ := exists_open h.kernel hsome
    have hinv := inv_saveRegs h.kernel p regs
    rw [Kernel.postSyscall_some hinv.heap hopen.current hopen.block]
    refine Or.inr ⟨hframes, q, r, R, hopen, ?_⟩
    by_cases hroom : (s.kernel.saveRegs p regs).hasRoom
    · refine Or.inl ⟨hroom, ?_⟩
      have hnew : newlyQueued s.kernel ((s.kernel.saveRegs p regs).pushRecord q r) =
          [completedValue (s.kernel.saveRegs p regs) R] :=
        newlyQueued_push hinv rfl hopen.block hopen.value
      rw [if_pos hroom, hnew]
    · refine Or.inr ⟨hroom, ?_⟩
      have hnew : newlyQueued s.kernel ((s.kernel.saveRegs p regs).discardRecord q r) = [] :=
        newlyQueued_same rfl
      rw [if_neg hroom, hnew, log, List.append_nil]
  · rename_i rest hframes
    -- the entry was not recorded: only the saved registers change
    rw [hframes] at hout
    have hrest : rest = [] := hout.1 false rfl
    subst hrest
    exact Or.inl ⟨hframes, rfl⟩
  · rfl

theorem enterWrite_cases (s : Sys) (p : Pid) (fn : ProbedFn) (regs : PtRegs) (a : Option Ptr) :
    Meets (· = .impossible)
      (fun s' =>
        (s' = s.move p (.write fn false :: s.frames p) s.kernel ∧
          (s.kernel.notRecorded p ∨ s.kernel.currentSyscallRecord = none ∨
            s.kernel.currentCopy.isSome ∨ a = none)) ∨
        (∃ c, a = some c ∧
          s' = s.move p (.write fn true :: s.frames p) (s.kernel.openCopy c (fn.begun regs)) ∧
          ¬s.kernel.notRecorded p ∧ s.kernel.currentSyscallRecord.isSome ∧
          s.kernel.currentCopy = none ∧ s.kernel.heap c = none ∧
          (fn.begun regs).len.toNat + 40 ≤ kmallocMaxSize))
      (s.enterWrite p fn regs a) := by
  unfold enterWrite
  rw [fn.entryHandler_eq]
  apply Meets.bind (Kernel.beginCopy_cases s.kernel p a (fn.begun regs))
  rintro x (⟨rfl, hreason⟩ | ⟨c, ha, rfl, hpid, hopen, hcopy, hc, hlen⟩)
  · exact Or.inl ⟨rfl, hreason⟩
  · exact Or.inr ⟨c, ha, rfl, hpid, hopen, hcopy, hc, hlen⟩

theorem exitWrite_cases {s : Sys} (h : s.Inv) (p : Pid) (returnValue : Word) (mem : KernelMem) :
    Meets s.Stops
      (fun s' => ∃ fn hooked rest, s.frames p = .write fn hooked :: rest ∧
        ((hooked = false ∧ s' = s.move p rest s.kernel) ∨
        (hooked = true ∧ ∃ c regs, s.kernel.currentCopy = some c ∧
          s.kernel.heap c = some (.copyRecord (fn.begun regs)) ∧
          (fn.begun regs).len.toNat + 40 ≤ kmallocMaxSize ∧
          ((returnValue ≠ 0 ∧ s' = s.move p rest (s.kernel.dropCopy c)) ∨
          (returnValue = 0 ∧ ∃ q r R, Open s.kernel q r R ∧
            s' = s.move p rest { s.kernel.appendCopy q r c (fn.ended mem (fn.begun regs)) with
              currentCopy := none })))))
      (s.exitWrite p returnValue mem) := by
  unfold exitWrite
  split
  · rename_i fn rest hframes
    obtain ⟨c, regs, hcopy, hc, hlen⟩ := h.begun p fn (by simp [hframes])
    rw [fn.handler_eq]
    by_cases hret : returnValue = 0
    · subst hret
      cases hsome : s.kernel.currentSyscallRecord.isSome with
      | false =>
          -- `list_add_tail` follows a NULL record
          have hnone : s.kernel.currentSyscallRecord = none := by
            simpa using hsome
          rw [Kernel.endCopy_null hcopy hc hnone]
          exact Or.inr ⟨rfl, hnone⟩
      | true =>
          obtain ⟨q, r, R, hopen⟩ := exists_open h.kernel hsome
          rw [Kernel.endCopy_succeeded hcopy hc hopen.current hopen.block]
          exact ⟨fn, true, rest, hframes, Or.inr ⟨rfl, c, regs, hcopy, hc, hlen,
            Or.inr ⟨rfl, q, r, R, hopen, rfl⟩⟩⟩
    · rw [Kernel.endCopy_failed hret hcopy hc]
      exact ⟨fn, true, rest, hframes, Or.inr ⟨rfl, c, regs, hcopy, hc, hlen,
        Or.inl ⟨hret, rfl⟩⟩⟩
  · rename_i fn rest hframes
    exact ⟨fn, false, rest, hframes, Or.inl ⟨rfl, rfl⟩⟩
  · exact Or.inl rfl

/-- Several copies appended one after the other. -/
def addCopies (R : Record) (cs : List CopyRecord) : Record :=
  cs.foldl SyscallRecord.addTail R

theorem addCopies_append (R : Record) (cs : List CopyRecord) (d : CopyRecord) :
    addCopies R (cs ++ [d]) = SyscallRecord.addTail (addCopies R cs) d := by
  simp [addCopies]

/-- What `post_wrap_syscall` keeps of the state it starts in, having appended `cs`. -/
structure Wrapped (k : Kernel) (cs : List CopyRecord) (k' : Kernel) : Prop where
  inv : k'.Inv
  copy : k.KeepsCopy k'
  queue : k.KeepsQueue k'
  pid : k'.recordedProcessPid = k.recordedProcessPid
  regs : k'.taskPtRegs = k.taskPtRegs
  current : k'.currentSyscallRecord = k.currentSyscallRecord
  value : ∀ q R, k.currentSyscallRecord = some q → heapRecord k.heap q = some R →
    heapRecord k'.heap q = some (addCopies R cs)

theorem Wrapped.refl {k : Kernel} (h : k.Inv) : Wrapped k [] k :=
  ⟨h, Kernel.KeepsCopy.refl k, Kernel.KeepsQueue.refl k, rfl, rfl, rfl, fun _ _ _ hR => hR⟩

theorem Wrapped.append {k k' : Kernel} {cs : List CopyRecord} (h : Wrapped k cs k') {q c : Ptr}
    {r : SyscallRecord Ptr} {d : CopyRecord} (hopen : k'.currentSyscallRecord = some q)
    (hr : k'.heap q = some (.syscallRecord r)) (hc : k'.heap c = none) (hd : d.Sized) :
    Wrapped k (cs ++ [d]) (k'.appendCopy q r c d) := by
  obtain ⟨hinv, hcopy⟩ := h.inv.appendFresh hopen hr hc hd
  obtain ⟨_, _, hvalue, hqueue⟩ :=
    h.inv.appendCopy hopen hr (by simp [hc]) (h.inv.heap.unlisted_of_free hc) hd
  refine ⟨hinv, h.copy.trans hcopy, h.queue.trans hqueue, h.pid, h.regs, h.current, ?_⟩
  intro q' R hq' hR
  -- the record that grows is the one that was open at the start
  have hsame : q' = q := by
    have hcur := h.current
    rw [hopen, hq'] at hcur
    simpa using hcur.symm
  subst hsame
  rw [addCopies_append]
  exact hvalue _ (h.value q' R hq' hR)

/-- `post_wrap_syscall` appends its copies to the open record and keeps everything else. -/
theorem postWrapSyscall_wrapped {k : Kernel} (h : k.Inv) (recorded : SyscallRecordedMem)
    (mem : UserMem) (allocated : Bool) (allocs : List (Option Ptr)) :
    Meets (fun f => f = .impossible ∨ (f = .nullDeref ∧ k.currentSyscallRecord = none))
      (Wrapped k (wrapCopies (some recorded) mem allocated allocs))
      (k.postWrapSyscall recorded mem allocated allocs) := by
  have hloop := Kernel.postWrapSyscall_meets (I := fun k' cs => Wrapped k cs k')
    (fun hw hopen => hw.inv.current_live hopen)
    (fun {k' cs q r c d} hw hopen hr hc hlen hbytes =>
      hw.append hopen hr hc ⟨by rw [hlen, hbytes]; rfl, by rw [hbytes]; decide⟩)
    (Wrapped.refl h) recorded mem allocated allocs
  refine hloop.mono ?_ fun k' hk' => hk'
  rintro f (hf | ⟨hf, k', cs, hw, hnone⟩)
  · exact Or.inl hf
  · exact Or.inr ⟨hf, hw.current.symm.trans hnone⟩

theorem exitWrap_cases {s : Sys} (h : s.Inv) (p : Pid) (mem : UserMem) (allocated : Bool)
    (allocs : List (Option Ptr)) :
    Meets s.Stops
      (fun s' => ∃ recorded rest k', s.frames p = .wrap recorded :: rest ∧
        s' = s.move p rest k' ∧ Wrapped s.kernel (wrapCopies recorded mem allocated allocs) k')
      (s.exitWrap p mem allocated allocs) := by
  unfold exitWrap
  split
  · rename_i recorded rest hframes
    refine Meets.bind (postWrapSyscall_wrapped h.kernel recorded mem allocated allocs) ?_
    intro k' hk'
    exact ⟨some recorded, rest, k', hframes, rfl, hk'⟩
  · rename_i rest hframes
    exact ⟨none, rest, s.kernel, hframes, rfl, Wrapped.refl h.kernel⟩
  · exact Or.inl rfl

theorem read_cases {s : Sys} (h : s.Inv) (r : ReadArgs) :
    Meets (· = .impossible)
      (fun s' => ∃ k' u n, s.kernel.readProc r = .ok (k', u, n) ∧ r.size.toNat < 2 ^ 63 ∧
        s' = { s with kernel := k', reads := s.reads ++ [(n, u.stored)] } ∧
        k'.Inv ∧ s.kernel.KeepsCopy k' ∧ s.kernel.KeepsRecord k' ∧
        k'.recordedProcessPid = s.kernel.recordedProcessPid ∧ k'.taskPtRegs = s.kernel.taskPtRegs)
      (s.read r) := by
  unfold read
  split
  · rfl
  · rename_i hsize
    rcases h.kernel.readProc r with hread | ⟨k', u, n, hread, hinv, hcopy, hrecord, hpid, hregs⟩
    · rw [hread]
      rfl
    · rw [hread]
      exact ⟨k', u, n, rfl, by omega, rfl, hinv, hcopy, hrecord, hpid, hregs⟩

theorem writeProc_eq (k : Kernel) (ppos : Int) (count : Nat) (parsed : Option Int) :
    (k.writeProc ppos count parsed).1 = k ∨
      ∃ pid, parsed = some pid ∧
        (k.writeProc ppos count parsed).1 = { k with recordedProcessPid := pid } := by
  unfold Kernel.writeProc
  split
  · -- the write is too long or not the first
    exact Or.inl rfl
  · -- the number is stored if there is one
    cases parsed with
    | none =>
        exact Or.inl rfl
    | some pid =>
        exact Or.inr ⟨pid, rfl, rfl⟩

end Sys

end RrPython
