import RrPython.Recorder.Dump

/-!
# Hooks — the module state and the probe handlers

The globals of `record.ko`, the part of the kernel heap it allocates from, and the entry and return
handlers of `syscall_recorder.c`, `copy_to_user_wrapper.c` and `syscall_wrapper.c`.  An entry handler
returns 0 when its return handler is to run.  What the kernel decides (the address `kmalloc` returns,
memory contents, return values of the probed functions) is an argument.
-/

namespace RrPython

open Foundation

/-- A heap address; `NULL` is `none : Option Ptr`. -/
abbrev Ptr := Word

/-- What an allocated block holds.  Buffers of the wrappers are private to one probe instance and
are kept with it instead. -/
inductive Block
  | syscallRecord (r : SyscallRecord Ptr)
  | copyRecord (c : CopyRecord)

inductive Fault
  /-- A `NULL` pointer was dereferenced. -/
  | nullDeref
  /-- A pointer to memory that is not allocated (any more) was dereferenced. -/
  | badDeref
  /-- `kfree` of memory that is not allocated (any more). -/
  | badFree
  /-- No behaviour of the kernel: the event cannot happen in this state. -/
  | impossible
  deriving DecidableEq, Repr

structure Kernel where
  recordedProcessPid : Int
  currentSyscallRecord : Option Ptr
  currentCopy : Option Ptr
  /-- The kfifo, as the pointers it holds. -/
  recordedSyscalls : List Ptr
  heap : Ptr → Option Block
  /-- The saved user registers on the kernel stack of each task. -/
  taskPtRegs : Pid → PtRegs

/-- `SYSCALL_FIFO_SIZE`, in bytes. -/
def syscallFifoSize : Nat := 2 ^ 15

/-- `sizeof(void *)`. -/
def sizeofPtr : Nat := 8

/-- `sizeof(struct syscall_record)`. -/
def sizeofSyscallRecord : Nat := 208

/-- `sizeof(struct copy_record_element)`, without the flexible `bytes[]`. -/
def sizeofCopyRecordElement : Nat := 40

/-- `KMALLOC_MAX_SIZE` of x86-64. -/
def kmallocMaxSize : Nat := 2 ^ 22

/-- Kernel memory that a hook reads, total because the kernel itself just read it. -/
abbrev KernelMem := Word → Byte

/-- User memory of a process; `none` is an unmapped byte. -/
abbrev UserMem := Word → Option Byte

/-- The `n` bytes from `addr` on. -/
def KernelMem.read (mem : KernelMem) (addr : Word) (n : Nat) : List Byte :=
  (List.range n).map fun i => mem (addr + BitVec.ofNat 64 i)

/-- `copy_from_user` of `n` bytes; `none` when it returns non-zero. -/
def UserMem.copyFromUser (mem : UserMem) (addr : Word) (n : Nat) : Option (List Byte) :=
  (List.range n).mapM fun i => mem (addr + BitVec.ofNat 64 i)

/-! ## Heap operations -/

namespace Kernel

/-- `kmalloc` of `size` bytes followed by the stores that initialise the block: the kernel answers
with `a`, which is `NULL` for a size it never serves. -/
def kmalloc (k : Kernel) (size : Nat) (a : Option Ptr) (b : Block) : Except Fault Kernel :=
  match a with
  | none => .ok k
  | some p =>
      if (k.heap p).isSome ∨ kmallocMaxSize < size then .error .impossible
      else .ok { k with heap := Function.update k.heap p (some b) }

def kfree (k : Kernel) (p : Ptr) : Except Fault Kernel :=
  if (k.heap p).isSome then .ok { k with heap := Function.update k.heap p none }
  else .error .badFree

def loadSyscallRecord (k : Kernel) : Option Ptr → Except Fault (Ptr × SyscallRecord Ptr)
  | none => .error .nullDeref
  | some p =>
      match k.heap p with
      | some (.syscallRecord r) => .ok (p, r)
      | _ => .error .badDeref

def loadCopyRecord (k : Kernel) : Option Ptr → Except Fault (Ptr × CopyRecord)
  | none => .error .nullDeref
  | some p =>
      match k.heap p with
      | some (.copyRecord c) => .ok (p, c)
      | _ => .error .badDeref

def store (k : Kernel) (p : Ptr) (b : Block) : Kernel :=
  { k with heap := Function.update k.heap p (some b) }

/-- `list_add_tail(&copy->list, &current_syscall_record->copies_to_user)` and
`current_syscall_record->amount_of_copies++`. -/
def listAddTail (k : Kernel) (copy : Ptr) : Except Fault Kernel := do
  let (p, r) ← k.loadSyscallRecord k.currentSyscallRecord
  pure (k.store p (.syscallRecord { r with
    copiesToUser := r.copiesToUser ++ [copy], amountOfCopies := r.amountOfCopies + 1 }))

def freeCopyRecords (k : Kernel) : List Ptr → Except Fault Kernel
  | [] => .ok k
  | c :: cs => do
      let k ← k.kfree c
      freeCopyRecords k cs

def freeSyscallRecord (k : Kernel) (p : Ptr) : Except Fault Kernel := do
  let (_, r) ← k.loadSyscallRecord (some p)
  let k ← k.freeCopyRecords r.copiesToUser
  k.kfree p

/-! ## syscall_recorder.c -/

def nrExecve : Word := 59

def nrExit : Word := 60

def nrExitGroup : Word := 231

/-- The numbers whose return `pre_syscall` does not want to hook. -/
def neverReturns (nr : Word) : Prop :=
  nr = nrExecve ∨ nr = nrExit ∨ nr = nrExitGroup

instance (nr : Word) : Decidable (neverReturns nr) := by
  unfold neverReturns
  infer_instance

/-- `current->pid != recorded_process_pid || recorded_process_pid == 0`. -/
def notRecorded (k : Kernel) (current : Pid) : Prop :=
  current ≠ k.recordedProcessPid ∨ k.recordedProcessPid = 0

instance (k : Kernel) (current : Pid) : Decidable (k.notRecorded current) := by
  unfold notRecorded
  infer_instance

/-- `nr` and `userspaceRegsPtr` are `regs->di` and `regs->si`. -/
def preSyscall (k : Kernel) (current : Pid) (nr : Word) (userspaceRegsPtr : Pid) (a : Option Ptr) :
    Except Fault (Kernel × Int) :=
  if neverReturns nr then .ok (k, 1)
  else if k.notRecorded current then .ok (k, 1)
  else if k.currentSyscallRecord.isSome then .ok (k, 1)
  else do
    let k ← k.kmalloc sizeofSyscallRecord a (.syscallRecord {
      userspaceRegs := k.taskPtRegs userspaceRegsPtr
      ret := 0
      userspaceRegsPtr
      amountOfCopies := 0
      copiesToUser := [] })
    let k := { k with currentSyscallRecord := a }
    if a.isNone then pure (k, 1) else pure (k, 0)

/-- `kfifo_in` of one pointer: the queue and the number of bytes stored. -/
def kfifoIn (k : Kernel) (p : Ptr) : Kernel × Nat :=
  if sizeofPtr * k.recordedSyscalls.length + sizeofPtr ≤ syscallFifoSize then
    ({ k with recordedSyscalls := k.recordedSyscalls ++ [p] }, sizeofPtr)
  else (k, 0)

def postSyscall (k : Kernel) : Except Fault Kernel :=
  match k.currentSyscallRecord with
  | none => .ok { k with currentSyscallRecord := none }
  | some _ => do
      let (p, r) ← k.loadSyscallRecord k.currentSyscallRecord
      let k := k.store p (.syscallRecord { r with ret := k.taskPtRegs r.userspaceRegsPtr .rax })
      let (k, stored) := k.kfifoIn p
      let k ← if stored = sizeofPtr then pure k else k.freeSyscallRecord p
      pure { k with currentSyscallRecord := none }

/-! ## copy_to_user_wrapper.c -/

/-- The shared part of `pre_put` and `pre_copy`: the checks and the allocation of `current_copy`. -/
def beginCopy (k : Kernel) (current : Pid) (a : Option Ptr) (c : CopyRecord) :
    Except Fault (Kernel × Int) :=
  if k.notRecorded current then .ok (k, 1)
  else if k.currentSyscallRecord.isNone then .ok (k, 1)
  else if k.currentCopy.isSome then .ok (k, 1)
  else do
    -- the sum of integers: `AllocationSizes` has the one of the C code, which wraps
    let k ← k.kmalloc (sizeofCopyRecordElement + c.len.toNat) a (.copyRecord c)
    let k := { k with currentCopy := a }
    if a.isNone then pure (k, 1) else pure (k, 0)

/-- The shared part of `post_put` and `post_copy`: `fill` is what the success path still stores in
`current_copy`. -/
def endCopy (k : Kernel) (returnValue : Word) (fill : CopyRecord → CopyRecord) :
    Except Fault Kernel :=
  if returnValue ≠ 0 then do
    -- cleanup: kfree(NULL) does nothing
    let k ← match k.currentCopy with
      | none => pure k
      | some p => k.kfree p
    pure { k with currentCopy := none }
  else do
    let (p, c) ← k.loadCopyRecord k.currentCopy
    let k := k.store p (.copyRecord (fill c))
    let k ← k.listAddTail p
    pure { k with currentCopy := none }

/-- What `pre_put` stores: `union put_data` keeps the low `data_size` bytes of `ax`. -/
def putRecord (dataSize : Nat) (regs : PtRegs) : CopyRecord where
  fromAddr := 0
  toAddr := regs .rcx
  len := BitVec.ofNat 64 dataSize
  bytes := leBytes dataSize (regs .rax).toNat

def prePut (k : Kernel) (current : Pid) (dataSize : Nat) (regs : PtRegs) (a : Option Ptr) :
    Except Fault (Kernel × Int) :=
  k.beginCopy current a (putRecord dataSize regs)

def postPut (k : Kernel) (returnValue : Word) : Except Fault Kernel :=
  k.endCopy returnValue id

/-- What `pre_copy` stores; `bytes` is filled in by `post_copy`. -/
def copyRecord (regs : PtRegs) : CopyRecord where
  fromAddr := regs .rsi
  toAddr := regs .rdi
  len := regs .rdx
  bytes := []

def preCopy (k : Kernel) (current : Pid) (regs : PtRegs) (a : Option Ptr) :
    Except Fault (Kernel × Int) :=
  k.beginCopy current a (copyRecord regs)

/-- `memcpy(current_copy->record.bytes, current_copy->record.from, current_copy->record.len)`. -/
def fillBytes (mem : KernelMem) (c : CopyRecord) : CopyRecord :=
  if c.len.toNat > 0 then { c with bytes := mem.read c.fromAddr c.len.toNat } else c

def postCopy (k : Kernel) (returnValue : Word) (mem : KernelMem) : Except Fault Kernel :=
  k.endCopy returnValue (fillBytes mem)

end Kernel

/-! ## syscall_wrapper.c -/

/-- The elements of `syscall_wrappers`. -/
inductive SyscallWrapper
  | poll
  | getdents
  | getdents64
  deriving DecidableEq, Repr

/-- `struct syscall_recorded_mem`. -/
structure SyscallRecordedMem where
  ptr : Word
  len : Word
  mem : List Byte
  deriving DecidableEq, Repr

/-- `sizeof(struct pollfd)`. -/
def sizeofPollfd : Word := 8

/-- The `get_record_mem_callback` of each wrapper, on the registers at the probe and on the saved
user registers of the task: address and length of the memory to record.  None of them fails. -/
def SyscallWrapper.getRecordMem (w : SyscallWrapper) (regs userspaceRegs : PtRegs) : Word × Word :=
  match w with
  | .poll => (regs .rdi, regs .rsi * sizeofPollfd)
  | .getdents => (userspaceRegs .rsi, userspaceRegs .rdx)
  | .getdents64 => (regs .rsi, regs .rdx)

/-- The recorded region as `copy_from_user` reads it. -/
def SyscallWrapper.readRegion (w : SyscallWrapper) (regs userspaceRegs : PtRegs) (mem : UserMem) :
    Option SyscallRecordedMem :=
  let (ptr, len) := w.getRecordMem regs userspaceRegs
  (mem.copyFromUser ptr len.toNat).map fun bytes => { ptr, len, mem := bytes }

namespace Kernel

/-- `some recorded` is the return value 0 with `recorded` left in `probe->data`, `none` is 1.
`allocated` says whether `kmalloc` succeeds. -/
def preWrapSyscall (k : Kernel) (current : Pid) (w : SyscallWrapper) (regs : PtRegs)
    (mem : UserMem) (allocated : Bool) : Option SyscallRecordedMem :=
  if k.notRecorded current then none
  else if k.currentSyscallRecord.isNone then none
  else if !allocated then none
  else w.readRegion regs (k.taskPtRegs current) mem

/-- The loop of `post_wrap_syscall` from index `i` on.  `allocs` are the answers of `kmalloc`; the
first failure leaves the loop.  The C index is an `int`, which is no restriction on a region that
`kmalloc` could serve. -/
def wrapLoop (ptr : Word) : Nat → List Byte → List Byte → List (Option Ptr) → Kernel →
    Except Fault Kernel
  | i, old :: olds, new :: news, allocs, k =>
      if old ≠ new then
        match allocs with
        | some p :: allocs => do
            let k ← k.kmalloc (sizeofCopyRecordElement + 1) (some p) (.copyRecord {
              fromAddr := 0, toAddr := ptr + BitVec.ofNat 64 i, len := 1, bytes := [new] })
            let k ← k.listAddTail p
            wrapLoop ptr (i + 1) olds news allocs k
        | _ => .ok k
      else wrapLoop ptr (i + 1) olds news allocs k
  | _, _, _, _, k => .ok k

/-- `recorded` is what the entry handler left in `probe->data`; `allocated` says whether the
allocation of `new_mem` succeeds. -/
def postWrapSyscall (k : Kernel) (recorded : SyscallRecordedMem) (mem : UserMem)
    (allocated : Bool) (allocs : List (Option Ptr)) : Except Fault Kernel :=
  if !allocated then .ok k
  else
    match mem.copyFromUser recorded.ptr recorded.len.toNat with
    | none => .ok k
    | some newMem => wrapLoop recorded.ptr 0 recorded.mem newMem allocs k

end Kernel

end RrPython
