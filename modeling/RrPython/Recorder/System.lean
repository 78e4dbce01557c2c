import RrPython.Recorder.Dumper
import RrPython.Recorder.Effects

/-!
# System — the module among any number of processes

An event is one run of a hook, one write to `/proc/recorded_process` or one read of
`/proc/syscall_dumper`.  Each process has a stack of the probed functions it is inside; the return of
a function runs its return handler exactly when its entry handler asked for it.  Events of different
processes come in any order.
-/

namespace RrPython

open Foundation

/-! ## Probed functions -/

/-- The functions behind `copy_kretprobes` and `put_user_kretprobes`. -/
inductive ProbedFn
  | copyToUser
  | copyout
  | putUser1
  | putUser2
  | putUser4
  | putUser8
  deriving DecidableEq, Repr

namespace ProbedFn

/-- `data_size` of the `put_user` probes. -/
def dataSize : ProbedFn → Option Nat
  | .copyToUser => none
  | .copyout => none
  | .putUser1 => some 1
  | .putUser2 => some 2
  | .putUser4 => some 4
  | .putUser8 => some 8

def entryHandler (fn : ProbedFn) (k : Kernel) (current : Pid) (regs : PtRegs) (a : Option Ptr) :
    Except Fault (Kernel × Int) :=
  match fn.dataSize with
  | none => k.preCopy current regs a
  | some n => k.prePut current n regs a

def handler (fn : ProbedFn) (k : Kernel) (returnValue : Word) (mem : KernelMem) :
    Except Fault Kernel :=
  match fn.dataSize with
  | none => k.postCopy returnValue mem
  | some _ => k.postPut returnValue

/-- The copy that the entry handler prepares. -/
def begun (fn : ProbedFn) (regs : PtRegs) : CopyRecord :=
  match fn.dataSize with
  | none => Kernel.copyRecord regs
  | some n => Kernel.putRecord n regs

/-- The copy that the return handler makes of it. -/
def ended (fn : ProbedFn) (mem : KernelMem) (c : CopyRecord) : CopyRecord :=
  match fn.dataSize with
  | none => Kernel.fillBytes mem c
  | some _ => c

theorem entryHandler_eq (fn : ProbedFn) (k : Kernel) (current : Pid) (regs : PtRegs)
    (a : Option Ptr) : fn.entryHandler k current regs a = k.beginCopy current a (fn.begun regs) := by
  cases fn <;> rfl

theorem handler_eq (fn : ProbedFn) (k : Kernel) (returnValue : Word) (mem : KernelMem) :
    fn.handler k returnValue mem = k.endCopy returnValue (fn.ended mem) := by
  cases fn <;> rfl

theorem dataSize_le (fn : ProbedFn) {n : Nat} (h : fn.dataSize = some n) : n ≤ 8 := by
  cases fn <;> simp [dataSize] at h <;> omega

/-- The recorded write holds as many bytes as it says. -/
theorem ended_sized (fn : ProbedFn) {regs : PtRegs} (mem : KernelMem)
    (hlen : (fn.begun regs).len.toNat + 40 ≤ kmallocMaxSize) :
    (fn.ended mem (fn.begun regs)).Sized := by
  unfold kmallocMaxSize at hlen
  cases hsize : fn.dataSize with
  | none =>
      simp only [begun, ended, hsize, Kernel.fillBytes] at hlen ⊢
      split
      · exact ⟨by simp [KernelMem.read], by simp [KernelMem.read]; omega⟩
      · rename_i hzero
        exact ⟨by simp only [Kernel.copyRecord, List.length_nil] at hzero ⊢; omega,
          by simp [Kernel.copyRecord]⟩
  | some n =>
      have hn := fn.dataSize_le hsize
      simp only [begun, ended, hsize, Kernel.putRecord]
      refine ⟨?_, ?_⟩
      · simp only [BitVec.toNat_ofNat, length_leBytes]
        omega
      · simp only [length_leBytes]
        omega

end ProbedFn

/-! ## recorded_processes_loader.c -/

/-- `BUFFER_SIZE`. -/
def bufferSize : Nat := 100

/-- `write_proc`; `parsed` is the number that `kstrtoint_from_user` reads, if it reads one. -/
def Kernel.writeProc (k : Kernel) (ppos : Int) (count : Nat) (parsed : Option Int) : Kernel × Int :=
  if ppos > 0 ∨ count > bufferSize then (k, -Kernel.efault)
  else
    match parsed with
    | none => (k, -Kernel.efault)
    | some pid => ({ k with recordedProcessPid := pid }, count)

/-! ## States and events -/

/-- A probed function that a process is inside, and what its entry handler answered. -/
inductive Frame
  | syscall (hooked : Bool)
  | write (fn : ProbedFn) (hooked : Bool)
  | wrap (recorded : Option SyscallRecordedMem)
  deriving DecidableEq, Repr

structure Sys where
  kernel : Kernel
  /-- The probed functions each process is inside, innermost first. -/
  frames : Pid → List Frame
  /-- History: the records `post_syscall` has put into the FIFO, as they were then. -/
  appended : List Record
  /-- History: what each read returned and the bytes it stored. -/
  reads : List (Int × List Byte)

/-- No record and no copy is open, and no process is inside a probed function. -/
def Sys.init (pid : Int) (taskPtRegs : Pid → PtRegs) : Sys where
  kernel := {
    recordedProcessPid := pid
    currentSyscallRecord := none
    currentCopy := none
    recordedSyscalls := []
    heap := fun _ => none
    taskPtRegs }
  frames := fun _ => []
  appended := []
  reads := []

inductive Event
  /-- `do_syscall_64` is entered with the saved registers `regs`. -/
  | enterSyscall (p : Pid) (regs : PtRegs) (a : Option Ptr)
  /-- `do_syscall_64` returns with the saved registers `regs`. -/
  | exitSyscall (p : Pid) (regs : PtRegs)
  | enterWrite (p : Pid) (fn : ProbedFn) (regs : PtRegs) (a : Option Ptr)
  | exitWrite (p : Pid) (returnValue : Word) (mem : KernelMem)
  | enterWrap (p : Pid) (w : SyscallWrapper) (regs : PtRegs) (mem : UserMem) (allocated : Bool)
  | exitWrap (p : Pid) (mem : UserMem) (allocated : Bool) (allocs : List (Option Ptr))
  | writeProc (ppos : Int) (count : Nat) (parsed : Option Int)
  | read (r : ReadArgs)

/-- The process that an event belongs to. -/
def Event.process : Event → Option Pid
  | .enterSyscall p _ _ => some p
  | .exitSyscall p _ => some p
  | .enterWrite p _ _ _ => some p
  | .exitWrite p _ _ => some p
  | .enterWrap p _ _ _ _ => some p
  | .exitWrap p _ _ _ => some p
  | .writeProc _ _ _ => none
  | .read _ => none

/-- The kernel saves the user registers of `p`. -/
def Kernel.saveRegs (k : Kernel) (p : Pid) (regs : PtRegs) : Kernel :=
  { k with taskPtRegs := Function.update k.taskPtRegs p regs }

/-- The records in the FIFO of `k'` behind those of `k`. -/
def newlyQueued (k k' : Kernel) : List Record :=
  (k'.recordedSyscalls.drop k.recordedSyscalls.length).filterMap (heapRecord k'.heap)

namespace Sys

/-- The process `p` is inside `fs`, and the module is in state `k`. -/
def move (s : Sys) (p : Pid) (fs : List Frame) (k : Kernel) : Sys :=
  { s with kernel := k, frames := Function.update s.frames p fs }

/-- The records `rs` have just been put into the FIFO. -/
def log (s : Sys) (rs : List Record) : Sys :=
  { s with appended := s.appended ++ rs }

def enterSyscall (s : Sys) (p : Pid) (regs : PtRegs) (a : Option Ptr) : Except Fault Sys :=
  match s.frames p with
  | [] => do
      let (k, ret) ← (s.kernel.saveRegs p regs).preSyscall p (regs .origRax) p a
      pure (s.move p [.syscall (ret == 0)] k)
  | _ => .error .impossible

def exitSyscall (s : Sys) (p : Pid) (regs : PtRegs) : Except Fault Sys :=
  match s.frames p with
  | .syscall true :: rest => do
      let k ← (s.kernel.saveRegs p regs).postSyscall
      pure ((s.move p rest k).log (newlyQueued s.kernel k))
  | .syscall false :: rest => .ok (s.move p rest (s.kernel.saveRegs p regs))
  | _ => .error .impossible

def enterWrite (s : Sys) (p : Pid) (fn : ProbedFn) (regs : PtRegs) (a : Option Ptr) :
    Except Fault Sys := do
  let (k, ret) ← fn.entryHandler s.kernel p regs a
  pure (s.move p (.write fn (ret == 0) :: s.frames p) k)

def exitWrite (s : Sys) (p : Pid) (returnValue : Word) (mem : KernelMem) : Except Fault Sys :=
  match s.frames p with
  | .write fn true :: rest => do
      let k ← fn.handler s.kernel returnValue mem
      pure (s.move p rest k)
  | .write _ false :: rest => .ok (s.move p rest s.kernel)
  | _ => .error .impossible

def enterWrap (s : Sys) (p : Pid) (w : SyscallWrapper) (regs : PtRegs) (mem : UserMem)
    (allocated : Bool) : Sys :=
  s.move p (.wrap (s.kernel.preWrapSyscall p w regs mem allocated) :: s.frames p) s.kernel

def exitWrap (s : Sys) (p : Pid) (mem : UserMem) (allocated : Bool) (allocs : List (Option Ptr)) :
    Except Fault Sys :=
  match s.frames p with
  | .wrap (some recorded) :: rest => do
      let k ← s.kernel.postWrapSyscall recorded mem allocated allocs
      pure (s.move p rest k)
  | .wrap none :: rest => .ok (s.move p rest s.kernel)
  | _ => .error .impossible

def writePid (s : Sys) (ppos : Int) (count : Nat) (parsed : Option Int) : Sys :=
  { s with kernel := (s.kernel.writeProc ppos count parsed).1 }

def read (s : Sys) (r : ReadArgs) : Except Fault Sys :=
  -- the VFS turns away a size that is negative as a `ssize_t`
  if 2 ^ 63 ≤ r.size.toNat then .error .impossible
  else do
    let (k, u, ret) ← s.kernel.readProc r
    pure { s with kernel := k, reads := s.reads ++ [(ret, u.stored)] }

def step (s : Sys) : Event → Except Fault Sys
  | .enterSyscall p regs a => s.enterSyscall p regs a
  | .exitSyscall p regs => s.exitSyscall p regs
  | .enterWrite p fn regs a => s.enterWrite p fn regs a
  | .exitWrite p returnValue mem => s.exitWrite p returnValue mem
  | .enterWrap p w regs mem allocated => .ok (s.enterWrap p w regs mem allocated)
  | .exitWrap p mem allocated allocs => s.exitWrap p mem allocated allocs
  | .writeProc ppos count parsed => .ok (s.writePid ppos count parsed)
  | .read r => s.read r

end Sys

end RrPython
