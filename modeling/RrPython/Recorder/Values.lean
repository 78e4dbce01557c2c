import RrPython.Recorder.System

/-!
# Values — the module with its records as values

The same hooks and the same reads over a state without a heap: the open record, the pending copy and
the elements of the FIFO are the things themselves instead of pointers to them.  Nothing can be shared,
freed twice or used after it was freed here.  The state also remembers what became of each record that
a read took out of the FIFO.
-/

namespace RrPython

open Foundation

/-- What became of a record that has left the FIFO. -/
inductive Fate
  /-- Stored in the reader's buffer, and freed. -/
  | stored
  /-- A `copy_to_user` failed; freed. -/
  | failed
  /-- Too long for what was left of the buffer; neither stored nor freed. -/
  | lost
  deriving DecidableEq, Repr

/-! ## Reads -/

/-- `dump_single_record` of the record `R`. -/
def dumpOne (R : Record) (buf size : Word) (u : UserSpace) : Fate × UserSpace :=
  if size < getRecordLen R then (.lost, u)
  else
    let (u, ret) := dumpSyscallRecord R buf u
    if ret ≠ 0 then (.failed, u)
    else
      let (u, ret) := dumpCopyRecords R.copiesToUser (buf + sizeofSyscallDump) u
      if ret ≠ 0 then (.failed, u) else (.stored, u)

/-- How a call of `dump_records` goes. -/
structure Dumped where
  taken : List (Record × Fate)
  left : List Record
  user : UserSpace
  ret : Int

/-- The loop of `dump_records` over a FIFO that starts with `R`. -/
def dumpValues (R : Record) : List Record → Word → Word → UserSpace → Int → Bool → Dumped
  | rest, buf, size, u, sizeWritten, didDoFirstWrite =>
      match dumpOne R buf size u, rest with
      | (.lost, user), rest =>
          { taken := [(R, .lost)], left := rest, user
            ret := if didDoFirstWrite then sizeWritten else -Kernel.einval }
      | (.failed, user), rest =>
          { taken := [(R, .failed)], left := rest, user, ret := -Kernel.efault }
      | (.stored, user), [] =>
          { taken := [(R, .stored)], left := [], user
            ret := sizeWritten + (getRecordLen R).toNat }
      | (.stored, user), R' :: rest =>
          let d := dumpValues R' rest (buf + getRecordLen R) (size - getRecordLen R) user
            (sizeWritten + (getRecordLen R).toNat) true
          { d with taken := (R, .stored) :: d.taken }

/-! ## The state -/

structure ValueSys where
  recordedProcessPid : Int
  currentSyscallRecord : Option Record
  currentCopy : Option CopyRecord
  recordedSyscalls : List Record
  taskPtRegs : Pid → PtRegs
  frames : Pid → List Frame
  /-- History: the records that reads have taken out of the FIFO, oldest first. -/
  taken : List (Record × Fate)
  /-- History: what each read returned and the bytes it stored. -/
  reads : List (Int × List Byte)

namespace ValueSys

def init (pid : Int) (taskPtRegs : Pid → PtRegs) : ValueSys where
  recordedProcessPid := pid
  currentSyscallRecord := none
  currentCopy := none
  recordedSyscalls := []
  taskPtRegs
  frames := fun _ => []
  taken := []
  reads := []

/-- All records that were ever put into the FIFO. -/
def appended (v : ValueSys) : List Record :=
  v.taken.map Prod.fst ++ v.recordedSyscalls

/-- The records of a fate, oldest first. -/
def withFate (v : ValueSys) (fate : Fate) : List Record :=
  (v.taken.filter fun x => x.2 = fate).map Prod.fst

def notRecorded (v : ValueSys) (current : Pid) : Prop :=
  current ≠ v.recordedProcessPid ∨ v.recordedProcessPid = 0

instance (v : ValueSys) (current : Pid) : Decidable (v.notRecorded current) := by
  unfold notRecorded
  infer_instance

def saveRegs (v : ValueSys) (p : Pid) (regs : PtRegs) : ValueSys :=
  { v with taskPtRegs := Function.update v.taskPtRegs p regs }

def setFrames (v : ValueSys) (p : Pid) (fs : List Frame) : ValueSys :=
  { v with frames := Function.update v.frames p fs }

/-- The record that `pre_syscall` starts for `p`. -/
def freshRecord (v : ValueSys) (p : Pid) : Record where
  userspaceRegs := v.taskPtRegs p
  ret := 0
  userspaceRegsPtr := p
  amountOfCopies := 0
  copiesToUser := []

/-! ## Events -/

def enterSyscall (v : ValueSys) (p : Pid) (regs : PtRegs) (granted : Bool) :
    Except Fault ValueSys :=
  match v.frames p with
  | [] =>
      let v := v.saveRegs p regs
      if Kernel.neverReturns (regs .origRax) ∨ v.notRecorded p ∨ v.currentSyscallRecord.isSome ∨
          granted = false then
        .ok (v.setFrames p [.syscall false])
      else
        .ok ({ v with currentSyscallRecord := some (v.freshRecord p) }.setFrames p [.syscall true])
  | _ => .error .impossible

/-- `post_syscall` with the record `R` open. -/
def finishRecord (v : ValueSys) (R : Record) : ValueSys :=
  let R := { R with ret := v.taskPtRegs R.userspaceRegsPtr .rax }
  { v with
    currentSyscallRecord := none
    recordedSyscalls :=
      if sizeofPtr * v.recordedSyscalls.length + sizeofPtr ≤ syscallFifoSize then
        v.recordedSyscalls ++ [R]
      else v.recordedSyscalls }

def exitSyscall (v : ValueSys) (p : Pid) (regs : PtRegs) : Except Fault ValueSys :=
  match v.frames p with
  | .syscall true :: rest =>
      let v := (v.saveRegs p regs).setFrames p rest
      match v.currentSyscallRecord with
      | none => .ok v
      | some R => .ok (v.finishRecord R)
  | .syscall false :: rest => .ok ((v.saveRegs p regs).setFrames p rest)
  | _ => .error .impossible

def enterWrite (v : ValueSys) (p : Pid) (fn : ProbedFn) (regs : PtRegs) (granted : Bool) :
    ValueSys :=
  if v.notRecorded p ∨ v.currentSyscallRecord.isNone ∨ v.currentCopy.isSome ∨ granted = false then
    v.setFrames p (.write fn false :: v.frames p)
  else { v with currentCopy := some (fn.begun regs) }.setFrames p (.write fn true :: v.frames p)

def exitWrite (v : ValueSys) (p : Pid) (returnValue : Word) (mem : KernelMem) :
    Except Fault ValueSys :=
  match v.frames p with
  | .write fn true :: rest =>
      let v := v.setFrames p rest
      if returnValue ≠ 0 then .ok { v with currentCopy := none }
      else
        match v.currentCopy, v.currentSyscallRecord with
        | some c, some R =>
            .ok { v with
              currentCopy := none
              currentSyscallRecord := some (SyscallRecord.addTail R (fn.ended mem c)) }
        | _, _ => .error .nullDeref
  | .write _ false :: rest => .ok (v.setFrames p rest)
  | _ => .error .impossible

def preWrapSyscall (v : ValueSys) (current : Pid) (w : SyscallWrapper) (regs : PtRegs)
    (mem : UserMem) (allocated : Bool) : Option SyscallRecordedMem :=
  if v.notRecorded current then none
  else if v.currentSyscallRecord.isNone then none
  else if !allocated then none
  else w.readRegion regs (v.taskPtRegs current) mem

def enterWrap (v : ValueSys) (p : Pid) (w : SyscallWrapper) (regs : PtRegs) (mem : UserMem)
    (allocated : Bool) : ValueSys :=
  v.setFrames p (.wrap (v.preWrapSyscall p w regs mem allocated) :: v.frames p)

def exitWrap (v : ValueSys) (p : Pid) (mem : UserMem) (allocated : Bool)
    (allocs : List (Option Ptr)) : Except Fault ValueSys :=
  match v.frames p with
  | .wrap recorded :: rest =>
      let cs := wrapCopies recorded mem allocated allocs
      let v := v.setFrames p rest
      match v.currentSyscallRecord with
      | some R => .ok { v with currentSyscallRecord := some (cs.foldl SyscallRecord.addTail R) }
      | none => if cs = [] then .ok v else .error .nullDeref
  | _ => .error .impossible

def writePid (v : ValueSys) (ppos : Int) (count : Nat) (parsed : Option Int) : ValueSys :=
  if ppos > 0 ∨ count > bufferSize then v
  else { v with recordedProcessPid := parsed.getD v.recordedProcessPid }

def read (v : ValueSys) (r : ReadArgs) : Except Fault ValueSys :=
  if 2 ^ 63 ≤ r.size.toNat then .error .impossible
  else
    match v.recordedSyscalls with
    | [] =>
        if r.nonblock then .ok { v with reads := v.reads ++ [(0, [])] }
        else if r.signalPending then
          .ok { v with reads := v.reads ++ [(-Kernel.erestartsys, [])] }
        else .error .impossible
    | R :: rest =>
        let d := dumpValues R rest r.buf r.size r.user 0 false
        .ok { v with
          recordedSyscalls := d.left
          taken := v.taken ++ d.taken
          reads := v.reads ++ [(d.ret, d.user.stored)] }

/-- Of the addresses that `kmalloc` answers with only whether there is one matters. -/
def step (v : ValueSys) : Event → Except Fault ValueSys
  | .enterSyscall p regs a => v.enterSyscall p regs a.isSome
  | .exitSyscall p regs => v.exitSyscall p regs
  | .enterWrite p fn regs a => .ok (v.enterWrite p fn regs a.isSome)
  | .exitWrite p returnValue mem => v.exitWrite p returnValue mem
  | .enterWrap p w regs mem allocated => .ok (v.enterWrap p w regs mem allocated)
  | .exitWrap p mem allocated allocs => v.exitWrap p mem allocated allocs
  | .writeProc ppos count parsed => .ok (v.writePid ppos count parsed)
  | .read r => v.read r

end ValueSys

end RrPython
