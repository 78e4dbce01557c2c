import RrPython.Replayer.Passage

/-!
# RegisterFrame — the registers that a replayed call leaves as they were

A simulated call is over once the registers of the entry stop have been put back, with another `rax`.
A call that is run for real goes into the kernel with the registers of its wrapper, and what the
wrapper has changed is not put back.
-/

namespace RrPython

open Foundation Creplayer Replayer

/-- The registers in which a syscall answers, or of which it makes use itself. -/
def clobberedRegisters : List Reg := [.rax, .rcx, .r11]

/-- A syscall changes no others. -/
def PreservesRegisters (w : World) : Prop :=
  ∀ n u v, w.kernel n u = .returns v → ∀ r ∉ clobberedRegisters, v.regs r = u.regs r

/-! ## What the wrapper leaves behind -/

theorem simulatedUser_other (mem : ByteMemory) (call : SystemCall) (regs : PtRegs) {r : Reg}
    (hr : r ≠ .rax) : (simulatedUser mem call (PtRegs.toRegisters regs)).regs r = regs r := by
  have hassign : (PtRegs.toRegisters regs).assign .rax call.returnValue r = (regs r).toNat := by
    simp [Registers.assign, PtRegs.toRegisters, hr]
  simp only [simulatedUser, hassign, ofInt_toNat]

/-- The wrapper of mmap changes `rdi` and `r10`, unless the tracee has asked for just what they are
set to. -/
theorem wrappedRegs_preserves_iff (call : SystemCall) (regs : PtRegs) :
    (∀ r ∉ clobberedRegisters, wrappedRegs call regs r = regs r) ↔
      (call.num = mmapSysCall → regs .rdi = BitVec.ofInt 64 call.returnValue ∧
        regs .r10 ||| BitVec.ofInt 64 SyscallHandlers.mapFixed = regs .r10) := by
  unfold wrappedRegs
  by_cases hmmap : call.num = mmapSysCall
  · rw [if_pos hmmap]
    constructor
    · intro hsame _
      have hrdi := hsame .rdi (by decide)
      have hr10 := hsame .r10 (by decide)
      rw [PtRegs.set_other _ _ (by decide), PtRegs.set_same] at hrdi
      rw [PtRegs.set_same] at hr10
      exact ⟨hrdi.symm, hr10⟩
    · intro hasked r _
      obtain ⟨hrdi, hr10⟩ := hasked hmmap
      by_cases hr : r = .r10
      · rw [hr, PtRegs.set_same, hr10]
      · rw [PtRegs.set_other _ _ hr]
        by_cases hr' : r = .rdi
        · rw [hr', PtRegs.set_same, hrdi]
        · rw [PtRegs.set_other _ _ hr']
  · rw [if_neg hmmap]
    exact iff_of_true (fun _ _ => rfl) fun h => absurd h hmmap

/-- A replayed call leaves the other registers as they were at the entry stop, except an mmap that was
not asked for at its recorded address and with `MAP_FIXED`. -/
theorem runTraceeThroughSystemCall_registers_iff (self : Replayer) (w : World) (t t' : Tracee) (i : Nat)
    (call : SystemCall) (hcall : self.systemCalls[i]? = some call)
    (hstop : t.stop = .syscallEntry t.user.nr) (hkernel : PreservesRegisters w)
    (hrun : self.runTraceeThroughSystemCall w i call t = .ok () t') :
    (∀ r ∉ clobberedRegisters, t'.user.regs r = t.user.regs r) ↔
      (call.num = mmapSysCall → t.user.regs .rdi = BitVec.ofInt 64 call.returnValue ∧
        t.user.regs .r10 ||| BitVec.ofInt 64 SyscallHandlers.mapFixed = t.user.regs .r10) := by
  rcases ((runTraceeThroughSystemCall_passage hcall hstop).of_ok hrun).user with
    ⟨hsimulated, huser⟩ | ⟨_, hreturns⟩
  · -- an mmap is never simulated
    refine iff_of_true ?_ fun hmmap => absurd (Or.inl ?_) hsimulated
    · intro r hr
      rw [huser]
      exact simulatedUser_other _ _ _ fun hrax => hr (by simp [hrax, clobberedRegisters])
    · rw [hmmap]
      decide
  · rw [← wrappedRegs_preserves_iff]
    have hsame : ∀ r ∉ clobberedRegisters, t'.user.regs r = wrappedRegs call t.user.regs r :=
      hkernel _ _ _ hreturns
    constructor
    · intro h r hr
      rw [← hsame r hr, h r hr]
    · intro h r hr
      rw [hsame r hr, h r hr]

/-! ## One mmap -/

/-- An mmap that returned `0x7000`. -/
def mmapAt : SystemCall where
  registers := PtRegs.toRegisters (PtRegs.set (fun _ => 0) .origRax 9)
  returnValue := 0x7000
  memoryCopies := []

def mmapAtReplayer : Replayer where
  systemCalls := [mmapAt]
  stdoutCallback := none

/-- The kernel maps where it is asked to. -/
def mapsAtWorld : World where
  attach := .exited
  user := fun _ _ => .exits
  kernel := fun _ u => .returns { u with regs := PtRegs.set u.regs .rax (u.regs .rdi) }

theorem preservesRegisters_mapsAtWorld : PreservesRegisters mapsAtWorld := by
  intro n u v hv r hr
  cases hv
  exact PtRegs.set_other _ _ fun hrax => hr (by simp [hrax, clobberedRegisters])

/-- The tracee at the entry of an mmap that leaves the choice of the address to the kernel, or not. -/
def enteringMmap (rdi r10 : Word) : Tracee where
  stop := .syscallEntry 9
  user :=
    { regs := fun r => match r with
        | .origRax => 9
        | .rdi => rdi
        | .r10 => r10
        | _ => 0
      mem := fun _ => none }
  clock := 1
  history := []

theorem returns_enteringMmap (rdi r10 : Word) : ∃ t',
    mmapAtReplayer.runTraceeThroughSystemCall mapsAtWorld 0 mmapAt (enteringMmap rdi r10) =
      .ok () t' := by
  have hmsb : (9 : Word).msb = false := by decide
  have hrun := @wrapAndRun_returns mapsAtWorld ((enteringMmap rdi r10).log [.consumed mmapAt])
    mmapAt _ rfl hmsb _ rfl
  exact ⟨_, hrun⟩

/-- Asked for at its recorded address, an mmap leaves all registers as they were. -/
theorem runTraceeThroughSystemCall_registers_iff_fixed : ∃ t',
    mmapAtReplayer.runTraceeThroughSystemCall mapsAtWorld 0 mmapAt (enteringMmap 0x7000 0x12) =
        .ok () t' ∧
      ∀ r ∉ clobberedRegisters, t'.user.regs r = (enteringMmap 0x7000 0x12).user.regs r := by
  obtain ⟨t', hrun⟩ := returns_enteringMmap 0x7000 0x12
  exact ⟨t', hrun, (runTraceeThroughSystemCall_registers_iff mmapAtReplayer mapsAtWorld _ t' 0 mmapAt rfl
    rfl preservesRegisters_mapsAtWorld hrun).2 fun _ => ⟨rfl, rfl⟩⟩

/-- Otherwise the tracee finds the address in `rdi` and a flag in `r10`. -/
theorem not_registers_enteringMmap :
    ¬∀ (self : Replayer) (w : World) (t t' : Tracee) (i : Nat) (call : SystemCall),
      self.systemCalls[i]? = some call → t.stop = .syscallEntry t.user.nr → PreservesRegisters w →
        self.runTraceeThroughSystemCall w i call t = .ok () t' →
          ∀ r ∉ clobberedRegisters, t'.user.regs r = t.user.regs r := by
  intro h
  obtain ⟨t', hrun⟩ := returns_enteringMmap 0 0x22
  have hends : t'.user.regs .rdi = 0x7000 := by
    cases hrun
    rfl
  have hsame := h mmapAtReplayer mapsAtWorld _ t' 0 mmapAt rfl rfl preservesRegisters_mapsAtWorld hrun
    .rdi (by decide)
  rw [hends] at hsame
  exact absurd hsame (by decide)

end RrPython
