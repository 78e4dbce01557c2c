import RrPython.Foundation.FlexibleBlock
import RrPython.Recorder.System

/-!
# AllocationSizes — what the hooks ask `kmalloc` for

`pre_copy` and `pre_wrap_syscall` add the size of a struct to a length that comes from a register, in
`unsigned long` arithmetic, and check of the result only that `kmalloc` is not NULL.  Here the size is
the machine's, and a store outside the block that was served is a fault.  Below a bound on the register
the hooks are the ones of `Hooks`; above it a block that is served is too short for what follows.
-/

namespace RrPython

open Foundation

/-! ## Requests -/

/-- `sizeof(struct syscall_recorded_mem)`, without the flexible `mem[]`. -/
def sizeofSyscallRecordedMem : Nat := 16

/-- The hooks that allocate a block whose length they read from a register. -/
inductive RegionHook
  | preCopy
  | preWrap (w : SyscallWrapper)
  deriving DecidableEq, Repr

namespace RegionHook

/-- The size of the struct in front of the bytes. -/
def header : RegionHook → Word
  | .preCopy => BitVec.ofNat 64 sizeofCopyRecordElement
  | .preWrap _ => BitVec.ofNat 64 sizeofSyscallRecordedMem

/-- The length that is stored in the struct. -/
def len (h : RegionHook) (regs userspaceRegs : PtRegs) : Word :=
  match h with
  | .preCopy => regs .rdx
  | .preWrap w => (w.getRecordMem regs userspaceRegs).2

/-- The argument of `kmalloc`. -/
def size (h : RegionHook) (regs userspaceRegs : PtRegs) : Word :=
  blockSize h.header (h.len regs userspaceRegs)

/-- The length of the region, as an integer. -/
def regionLength (h : RegionHook) (regs userspaceRegs : PtRegs) : Nat :=
  match h with
  | .preCopy => (regs .rdx).toNat
  | .preWrap .poll => (regs .rsi).toNat * sizeofPollfd.toNat
  | .preWrap .getdents => (userspaceRegs .rdx).toNat
  | .preWrap .getdents64 => (regs .rdx).toNat

/-- The length is computed from the registers modulo `2 ^ 64`. -/
theorem len_eq (h : RegionHook) (regs userspaceRegs : PtRegs) :
    h.len regs userspaceRegs = BitVec.ofNat 64 (h.regionLength regs userspaceRegs) := by
  cases h with
  | preCopy =>
      simp [len, regionLength]
  | preWrap w =>
      cases w with
      | poll =>
          apply BitVec.eq_of_toNat_eq
          simp [len, regionLength, SyscallWrapper.getRecordMem]
      | getdents =>
          simp [len, regionLength, SyscallWrapper.getRecordMem]
      | getdents64 =>
          simp [len, regionLength, SyscallWrapper.getRecordMem]

/-! ## When the sizes are exact -/

/-- The sizes of one run of the hook: what it asks for is the struct and the region, the length that it
stores is the length of the region, and both lie within the block. -/
structure Exact (h : RegionHook) (regs userspaceRegs : PtRegs) : Prop where
  size_eq : (h.size regs userspaceRegs).toNat =
    h.header.toNat + h.regionLength regs userspaceRegs
  len_eq : (h.len regs userspaceRegs).toNat = h.regionLength regs userspaceRegs
  room : h.header.toNat + (h.len regs userspaceRegs).toNat ≤ (h.size regs userspaceRegs).toNat

/-- The register that the length comes from. -/
def register (h : RegionHook) (regs userspaceRegs : PtRegs) : Word :=
  match h with
  | .preCopy => regs .rdx
  | .preWrap .poll => regs .rsi
  | .preWrap .getdents => userspaceRegs .rdx
  | .preWrap .getdents64 => regs .rdx

/-- The first value of the register at which the arithmetic wraps. -/
def limit : RegionHook → Nat
  | .preCopy => 2 ^ 64 - 40
  | .preWrap .poll => 2 ^ 61 - 2
  | .preWrap .getdents => 2 ^ 64 - 16
  | .preWrap .getdents64 => 2 ^ 64 - 16

theorem register_lt_limit_iff (h : RegionHook) (regs userspaceRegs : PtRegs) :
    (h.register regs userspaceRegs).toNat < h.limit ↔
      h.header.toNat + h.regionLength regs userspaceRegs < 2 ^ 64 := by
  have hcopy : (BitVec.ofNat 64 sizeofCopyRecordElement).toNat = 40 := rfl
  have hwrap : (BitVec.ofNat 64 sizeofSyscallRecordedMem).toNat = 16 := rfl
  have hpollfd : sizeofPollfd.toNat = 8 := rfl
  cases h with
  | preCopy =>
      simp only [register, limit, header, regionLength, hcopy]
      omega
  | preWrap w =>
      cases w with
      | poll =>
          simp only [register, limit, header, regionLength, hwrap, hpollfd]
          omega
      | getdents =>
          simp only [register, limit, header, regionLength, hwrap]
          omega
      | getdents64 =>
          simp only [register, limit, header, regionLength, hwrap]
          omega

/-- The sizes are exact if and only if the register is below its limit. -/
theorem exact_iff_below_limit (h : RegionHook) (regs userspaceRegs : PtRegs) :
    h.Exact regs userspaceRegs ↔ (h.register regs userspaceRegs).toNat < h.limit := by
  rw [register_lt_limit_iff, ← blockExact_iff (h.len_eq regs userspaceRegs)]
  constructor
  · rintro ⟨hsize, hlen, _⟩
    exact ⟨hsize, hlen⟩
  · intro hexact
    exact ⟨hexact.1, hexact.2, hexact.fits⟩

/-- Header and bytes lie within the block that the hook asks for. -/
abbrev Fits (h : RegionHook) (regs userspaceRegs : PtRegs) : Prop :=
  BlockFits h.header (h.len regs userspaceRegs)

theorem fits_of_below_limit {h : RegionHook} {regs userspaceRegs : PtRegs}
    (hlimit : (h.register regs userspaceRegs).toNat < h.limit) : h.Fits regs userspaceRegs :=
  ((h.exact_iff_below_limit regs userspaceRegs).2 hlimit).room

end RegionHook

namespace Kernel

/-! ## The hooks with the sizes of the machine -/

/-- Stores into the first `n` bytes of a block of `size` bytes. -/
def storeWithin (size n : Nat) : Except Fault Unit :=
  if n ≤ size then .ok () else .error .badDeref

theorem storeWithin_ok {size n : Nat} (h : n ≤ size) : storeWithin size n = .ok () := if_pos h

theorem storeWithin_error {size n : Nat} (h : size < n) : storeWithin size n = .error .badDeref :=
  if_neg (Nat.not_le.2 h)

/-- `pre_copy`, with the block as large as the sum says. -/
def preCopySized (k : Kernel) (current : Pid) (regs : PtRegs) (a : Option Ptr) :
    Except Fault (Kernel × Int) :=
  if k.notRecorded current then .ok (k, 1)
  else if k.currentSyscallRecord.isNone then .ok (k, 1)
  else if k.currentCopy.isSome then .ok (k, 1)
  else do
    let size := (RegionHook.preCopy.size regs (k.taskPtRegs current)).toNat
    let k ← k.kmalloc size a (.copyRecord (copyRecord regs))
    let k := { k with currentCopy := a }
    if a.isNone then pure (k, 1)
    else do
      -- `from`, `to` and `len`
      storeWithin size RegionHook.preCopy.header.toNat
      pure (k, 0)

/-- `pre_wrap_syscall`, with the block as large as the sum says. -/
def preWrapSyscallSized (k : Kernel) (current : Pid) (w : SyscallWrapper) (regs : PtRegs)
    (mem : UserMem) (allocated : Bool) : Except Fault (Option SyscallRecordedMem) :=
  if k.notRecorded current then .ok none
  else if k.currentSyscallRecord.isNone then .ok none
  else if !allocated then .ok none
  else do
    let hook := RegionHook.preWrap w
    let size := (hook.size regs (k.taskPtRegs current)).toNat
    -- `ptr` and `len`
    storeWithin size hook.header.toNat
    -- `copy_from_user`
    storeWithin size (hook.header.toNat + (hook.len regs (k.taskPtRegs current)).toNat)
    pure (w.readRegion regs (k.taskPtRegs current) mem)

/-- While the sum does not wrap, `pre_copy` is the hook of the system. -/
theorem preCopySized_eq {k : Kernel} {current : Pid} {regs : PtRegs}
    (hfits : RegionHook.preCopy.Fits regs (k.taskPtRegs current)) (a : Option Ptr) :
    k.preCopySized current regs a = k.preCopy current regs a := by
  have hsize : (RegionHook.preCopy.size regs (k.taskPtRegs current)).toNat =
      sizeofCopyRecordElement + (copyRecord regs).len.toNat := hfits.toNat_blockSize
  have hroom : storeWithin (sizeofCopyRecordElement + (copyRecord regs).len.toNat)
      RegionHook.preCopy.header.toNat = .ok () :=
    storeWithin_ok (Nat.le_add_right sizeofCopyRecordElement _)
  unfold preCopySized preCopy beginCopy
  rw [hsize]
  simp only [hroom, bind, Except.bind]

/-- Otherwise a block that `kmalloc` serves is written behind its end. -/
theorem preCopySized_overflows {k : Kernel} {current : Pid} {regs : PtRegs}
    (hrec : ¬k.notRecorded current) (hopen : k.currentSyscallRecord.isSome)
    (hcopy : k.currentCopy = none) {p : Ptr} (hp : k.heap p = none)
    (hfits : ¬RegionHook.preCopy.Fits regs (k.taskPtRegs current)) :
    k.preCopySized current regs (some p) = .error .badDeref := by
  have hshort : (RegionHook.preCopy.size regs (k.taskPtRegs current)).toNat <
      RegionHook.preCopy.header.toNat := toNat_blockSize_lt hfits
  have hserved : ¬kmallocMaxSize < (RegionHook.preCopy.size regs (k.taskPtRegs current)).toNat := by
    have hheader : RegionHook.preCopy.header.toNat ≤ kmallocMaxSize := by decide
    omega
  have hsome : k.currentSyscallRecord.isNone = false := by
    simpa using hopen
  simp [preCopySized, hrec, hsome, hcopy, kmalloc, hp, hserved, bind, Except.bind,
    storeWithin_error hshort]

/-- While the sum does not wrap, `pre_wrap_syscall` is the hook of the system. -/
theorem preWrapSyscallSized_eq {k : Kernel} {current : Pid} {w : SyscallWrapper} {regs : PtRegs}
    (hfits : (RegionHook.preWrap w).Fits regs (k.taskPtRegs current)) (mem : UserMem)
    (allocated : Bool) :
    k.preWrapSyscallSized current w regs mem allocated =
      .ok (k.preWrapSyscall current w regs mem allocated) := by
  have hheader : storeWithin ((RegionHook.preWrap w).size regs (k.taskPtRegs current)).toNat
      (RegionHook.preWrap w).header.toNat = .ok () :=
    storeWithin_ok (le_trans (Nat.le_add_right ..) hfits)
  have hbytes : storeWithin ((RegionHook.preWrap w).size regs (k.taskPtRegs current)).toNat
      ((RegionHook.preWrap w).header.toNat +
        ((RegionHook.preWrap w).len regs (k.taskPtRegs current)).toNat) = .ok () :=
    storeWithin_ok hfits
  unfold preWrapSyscallSized preWrapSyscall
  split_ifs
  · rfl
  · rfl
  · rfl
  · simp only [hheader, hbytes, bind, Except.bind]
    rfl

/-- So below the limits the sizes of the machine make no difference. -/
theorem sized_eq_of_below_limit (k : Kernel) (current : Pid) (regs : PtRegs) :
    ((RegionHook.preCopy.register regs (k.taskPtRegs current)).toNat < RegionHook.preCopy.limit →
        ∀ a, k.preCopySized current regs a = k.preCopy current regs a) ∧
      ∀ w, ((RegionHook.preWrap w).register regs (k.taskPtRegs current)).toNat <
          (RegionHook.preWrap w).limit →
        ∀ mem allocated, k.preWrapSyscallSized current w regs mem allocated =
          .ok (k.preWrapSyscall current w regs mem allocated) :=
  ⟨fun hlimit a => preCopySized_eq (RegionHook.fits_of_below_limit hlimit) a,
    fun _ hlimit mem allocated =>
      preWrapSyscallSized_eq (RegionHook.fits_of_below_limit hlimit) mem allocated⟩

/-- Otherwise the block that `kmalloc` serves is written behind its end. -/
theorem preWrapSyscallSized_overflows {k : Kernel} {current : Pid} {w : SyscallWrapper}
    {regs : PtRegs} (hrec : ¬k.notRecorded current) (hopen : k.currentSyscallRecord.isSome)
    (hfits : ¬(RegionHook.preWrap w).Fits regs (k.taskPtRegs current)) (mem : UserMem) :
    k.preWrapSyscallSized current w regs mem true = .error .badDeref := by
  have hshort : ((RegionHook.preWrap w).size regs (k.taskPtRegs current)).toNat <
      (RegionHook.preWrap w).header.toNat := toNat_blockSize_lt hfits
  have hsome : k.currentSyscallRecord.isNone = false := by
    simpa using hopen
  simp [preWrapSyscallSized, hrec, hsome, bind, Except.bind, storeWithin_error hshort]

end Kernel

/-! ## A count that wraps -/

/-- The registers of a `getdents` whose buffer is said to be `2 ^ 64 - 16` bytes long. -/
def hugeCount : PtRegs
  | .origRax => 78
  | .rdx => 18446744073709551600
  | _ => 0

/-- `kmalloc` is asked for no bytes at all, and what it serves is written all the same. -/
theorem not_exact_hugeCount :
    ¬(∀ h regs userspaceRegs, RegionHook.Exact h regs userspaceRegs) ∧
      ∃ s, Sys.step (Sys.init 1 fun _ => hugeCount) (.enterSyscall 1 hugeCount (some 16)) = .ok s ∧
        (RegionHook.preWrap .getdents).size (fun _ => 0) (s.kernel.taskPtRegs 1) = 0 ∧
        s.kernel.preWrapSyscallSized 1 .getdents (fun _ => 0) (fun _ => some 0) true =
          .error .badDeref := by
  refine ⟨fun hall => ?_, _, rfl, rfl, rfl⟩
  have hsize := (hall (.preWrap .getdents) (fun _ => 0) hugeCount).size_eq
  exact absurd hsize (by decide)

end RrPython
