import RrPython.Foundation.Stateful
import RrPython.Replayer.ShouldSimulate
import RrPython.Replayer.Tracee

/-!
# Creplayer — the C extension that drives `ptrace`

The functions of `creplayer.c` with what their Python callers see of them.  The format `K` takes any
integer modulo `2 ^ 64`, `i` only a C `int`; every failed request raises `SystemError`.
-/

namespace RrPython

open Foundation

/-- The exceptions that end a replay. -/
inductive ReplayError
  /-- `SystemError`, raised by the C code. -/
  | systemError (message : String)
  /-- `TypeError` of a call with a wrong number of arguments. -/
  | typeError
  /-- `OverflowError` of an argument that is no C `int`. -/
  | overflowError
  /-- `KeyError` of `SYS_CALL_NAMES[key]`. -/
  | keyError (key : Int)
  | unexpectedSysCall (message : String)
  | unexpectedSystemCallReturnValue (message : String)
  | shouldSimulate (e : ShouldSimulateError)
  /-- What the stdout callback raised. -/
  | callback
  deriving DecidableEq, Repr

abbrev ReplayM := EStateM ReplayError Tracee

/-- What access to the memory of the tracee raises. -/
def ReplayError.OfAccess : ReplayError → Prop
  | .systemError _ => True
  | .overflowError => True
  | _ => False

namespace Creplayer

def breakpointSignalNumber : Nat := 5

/-- `WORD_SIZE`. -/
def wordSize : Nat := 8

/-- `strerror(ESRCH)`. -/
def noSuchProcess : String := "No such process"

/-- `strerror(EIO)`. -/
def inputOutputError : String := "Input/output error"

/-! ## Requests -/

/-- A request on a tracee that is not stopped fails. -/
def checkStopped : ReplayM Unit := do
  let t ← get
  if t.Stopped then pure () else throw (.systemError noSuchProcess)

/-- `PTRACE_GETREGS`. -/
def ptraceGetRegs : ReplayM PtRegs := do
  checkStopped
  let t ← get
  pure t.user.regs

/-- `PTRACE_SETREGS`. -/
def ptraceSetRegs (regs : PtRegs) : ReplayM Unit := do
  checkStopped
  modify (Tracee.setRegs · regs)

/-- `PTRACE_PEEKTEXT`: all eight bytes must be mapped. -/
def ptracePeekText (addr : Word) : ReplayM Word := do
  checkStopped
  let t ← get
  match t.user.mem.load addr wordSize with
  | some bytes => pure (wordOfBytes bytes)
  | none => throw (.systemError inputOutputError)

/-- `PTRACE_POKEDATA`: it fails after the first unmapped byte, with the bytes before it written. -/
def ptracePokeData (addr data : Word) : ReplayM Unit := do
  checkStopped
  let t ← get
  let (mem, copied) := t.user.mem.storeUntilFault addr (wordBytes data)
  set (t.setMem mem)
  if copied = wordSize then pure () else throw (.systemError inputOutputError)

/-! ## The functions of the module -/

def attachToTraceeAndBegin (w : World) : ReplayM Unit :=
  match w.attach with
  | .refused message => throw (.systemError message)
  | .stopped u => modify fun t => { t with stop := .signalled, user := u }
  | .exited => modify fun t => { t with stop := .exited }

def runUntilEnterOrExitOfNextSyscall (w : World) : ReplayM Unit := do
  let t ← get
  match w.ptraceSyscall t with
  | none => throw (.systemError noSuchProcess)
  | some (status, t) =>
      set t
      match status with
      | .stopped sig =>
          if sig ≠ breakpointSignalNumber then throw (.systemError "Pid stopped by signal") else pure ()
      | .exited => pure ()

/-- The registers that the C code packs and parses, in its order. -/
def registersOrder : List Reg :=
  [.r15, .r14, .r13, .r12, .rbp, .rbx, .r11, .r10, .r9, .r8, .rax, .rcx, .rdx, .rsi, .rdi,
    .origRax, .rip, .cs, .eflags, .rsp, .ss]

def getRegistersFromTracee : ReplayM (List Int) := do
  let regs ← ptraceGetRegs
  pure (registersOrder.map fun r => ((regs r).toNat : Int))

/-- The other registers of `struct user_regs_struct` are read first and written back. -/
def setRegistersInTracee (values : List Int) : ReplayM Unit :=
  if values.length ≠ registersOrder.length then throw .typeError
  else do
    let _ ← ptraceGetRegs
    ptraceSetRegs fun r => BitVec.ofInt 64 (valueAt registersOrder values r)

/-- The loop runs as often as a whole word is left; the rest, if any, is merged into the word that
the tracee has there. -/
def writeBufferToTracee : Nat → Word → List Byte → ReplayM Unit
  | words + 1, addr, buffer => do
      ptracePokeData addr (wordOfBytes (buffer.take wordSize))
      writeBufferToTracee words (addr + BitVec.ofNat 64 wordSize) (buffer.drop wordSize)
  | 0, addr, buffer =>
      if buffer.length > 0 then do
        let data ← ptracePeekText addr
        ptracePokeData addr (wordOfBytes (buffer ++ (wordBytes data).drop buffer.length))
      else pure ()

/-- A `long` length passed on as an `int`; a negative one leaves nothing to do. -/
def intLength (length : Nat) : Nat :=
  (BitVec.ofNat 32 length).toInt.toNat

def writeToTracee (address : Int) (buffer : List Byte) : ReplayM Unit :=
  let length := intLength buffer.length
  writeBufferToTracee (length / wordSize) (BitVec.ofInt 64 address) (buffer.take length)

/-- What `read_from_tracee` stores in its buffer in `words` turns of the loop. -/
def readBufferFromTracee : Nat → Word → Nat → ReplayM (List Byte)
  | words + 1, addr, length => do
      let data ← ptracePeekText addr
      let rest ← readBufferFromTracee words (addr + BitVec.ofNat 64 wordSize) (length - wordSize)
      pure ((wordBytes data).take length ++ rest)
  | 0, _, _ => pure []

/-- With a negative length the buffer is `NULL`, of which Python makes `None`. -/
def readFromTracee (address length : Int) : ReplayM (Option (List Byte)) :=
  if length < -2 ^ 31 ∨ 2 ^ 31 ≤ length then throw .overflowError
  else if length < 0 then pure none
  else do
    let buffer ← readBufferFromTracee ((length.toNat + (wordSize - 1)) / wordSize)
      (BitVec.ofInt 64 address) length.toNat
    pure (some buffer)

/-! ## What they do -/

variable {t : Tracee}

theorem checkStopped_ok (h : t.Stopped) : checkStopped t = .ok () t := by
  show (if t.Stopped then (pure () : ReplayM Unit) else throw _) t = _
  rw [if_pos h]
  rfl

theorem checkStopped_error (h : ¬t.Stopped) :
    checkStopped t = .error (.systemError noSuchProcess) t := by
  show (if t.Stopped then (pure () : ReplayM Unit) else throw _) t = _
  rw [if_neg h]
  rfl

theorem ptraceGetRegs_ok (h : t.Stopped) : ptraceGetRegs t = .ok t.user.regs t := by
  rw [ptraceGetRegs, bind_of_ok (checkStopped_ok h)]
  rfl

theorem getRegistersFromTracee_ok (h : t.Stopped) :
    getRegistersFromTracee t = .ok (Registers.toList (PtRegs.toRegisters t.user.regs)) t := by
  rw [getRegistersFromTracee, bind_of_ok (ptraceGetRegs_ok h)]
  rfl

theorem getRegistersFromTracee_error (h : ¬t.Stopped) :
    getRegistersFromTracee t = .error (.systemError noSuchProcess) t := by
  have hget : ptraceGetRegs t = .error (.systemError noSuchProcess) t := by
    rw [ptraceGetRegs, bind_of_error (checkStopped_error h)]
  rw [getRegistersFromTracee, bind_of_error hget]

/-- The dataclass lists its fields in the order in which the C code parses them. -/
theorem setRegistersInTracee_ok (h : t.Stopped) (registers : Registers) :
    setRegistersInTracee registers.toList t =
      .ok () (t.setRegs fun r => BitVec.ofInt 64 (registers r)) := by
  have hlen : registers.toList.length = registersOrder.length := by
    simp [Registers.toList, registersFields, registersOrder]
  have hvalue : ∀ r, valueAt registersOrder registers.toList r = registers r := fun r =>
    valueAt_map registers (Registers.mem_registersFields r)
  simp only [setRegistersInTracee, hlen, ne_eq, not_true_eq_false, if_false, hvalue]
  rw [bind_of_ok (ptraceGetRegs_ok h), ptraceSetRegs, bind_of_ok (checkStopped_ok h)]
  rfl

/-! ### Resuming -/

section Resuming

variable {w : World}

theorem attach_refused {message : String} (h : w.attach = .refused message) :
    attachToTraceeAndBegin w t = .error (.systemError message) t := by
  rw [attachToTraceeAndBegin, h]
  rfl

theorem attach_stopped {u : UserState} (h : w.attach = .stopped u) :
    attachToTraceeAndBegin w t = .ok () { t with stop := .signalled, user := u } := by
  rw [attachToTraceeAndBegin, h]
  rfl

theorem attach_exited (h : w.attach = .exited) :
    attachToTraceeAndBegin w t = .ok () { t with stop := .exited } := by
  rw [attachToTraceeAndBegin, h]
  rfl

theorem runUntil_error (h : ¬t.Stopped) :
    runUntilEnterOrExitOfNextSyscall w t = .error (.systemError noSuchProcess) t := by
  rw [runUntilEnterOrExitOfNextSyscall, get_bind, World.ptraceSyscall_none h]
  rfl

theorem runUntil_syscall (hstop : t.stop = .signalled ∨ t.stop = .syscallExit) {u : UserState}
    (huser : w.user t.clock t.user = .syscall u) :
    runUntilEnterOrExitOfNextSyscall w t =
      .ok () (t.arrive (.syscallEntry u.nr) u (t.goingBack ++ [.entered u])) := by
  have hrun : w.runUser (t.log t.goingBack) =
      (.stopped sigtrap, t.arrive (.syscallEntry u.nr) u (t.goingBack ++ [.entered u])) := by
    simp [World.runUser, Tracee.log, Tracee.arrive, huser]
  rw [runUntilEnterOrExitOfNextSyscall, get_bind, World.ptraceSyscall_user hstop, hrun]
  rfl

theorem runUntil_signal (hstop : t.stop = .signalled ∨ t.stop = .syscallExit) {u : UserState}
    {sig : Nat} (hsig : sig ≠ sigtrap) (huser : w.user t.clock t.user = .signal sig u) :
    runUntilEnterOrExitOfNextSyscall w t =
      .error (.systemError "Pid stopped by signal") (t.arrive .signalled u t.goingBack) := by
  have hrun : w.runUser (t.log t.goingBack) =
      (.stopped sig, t.arrive .signalled u t.goingBack) := by
    simp [World.runUser, Tracee.log, Tracee.arrive, huser, hsig]
  rw [runUntilEnterOrExitOfNextSyscall, get_bind, World.ptraceSyscall_user hstop, hrun]
  have hother : sig ≠ breakpointSignalNumber := hsig
  simp only [set_bind]
  rw [if_pos hother]
  rfl

theorem runUntil_exits (hstop : t.stop = .signalled ∨ t.stop = .syscallExit)
    (huser : w.user t.clock t.user = .exits) :
    runUntilEnterOrExitOfNextSyscall w t = .ok () (t.arrive .exited t.user t.goingBack) := by
  have hrun : w.runUser (t.log t.goingBack) = (.exited, t.arrive .exited t.user t.goingBack) := by
    simp [World.runUser, Tracee.log, Tracee.arrive, huser]
  rw [runUntilEnterOrExitOfNextSyscall, get_bind, World.ptraceSyscall_user hstop, hrun]
  rfl

theorem runUntil_skipped {nr : Word} (hstop : t.stop = .syscallEntry nr)
    (hneg : t.user.nr.msb = true) :
    runUntilEnterOrExitOfNextSyscall w t =
      .ok () (t.arrive .syscallExit t.user [.skipped nr t.user.nr, .left t.user]) := by
  rw [runUntilEnterOrExitOfNextSyscall, get_bind, World.ptraceSyscall_kernel hstop,
    World.runKernel, if_pos hneg]
  rfl

theorem runUntil_returns {nr : Word} (hstop : t.stop = .syscallEntry nr)
    (hneg : t.user.nr.msb = false) {u : UserState} (hkernel : w.kernel t.clock t.user = .returns u) :
    runUntilEnterOrExitOfNextSyscall w t =
      .ok () (t.arrive .syscallExit u [.executed nr t.user.nr, .left u]) := by
  rw [runUntilEnterOrExitOfNextSyscall, get_bind, World.ptraceSyscall_kernel hstop,
    World.runKernel, if_neg (by simp [hneg]), hkernel]
  rfl

theorem runUntil_ended {nr : Word} (hstop : t.stop = .syscallEntry nr)
    (hneg : t.user.nr.msb = false) (hkernel : w.kernel t.clock t.user = .exits) :
    runUntilEnterOrExitOfNextSyscall w t =
      .ok () (t.arrive .exited t.user [.executed nr t.user.nr]) := by
  rw [runUntilEnterOrExitOfNextSyscall, get_bind, World.ptraceSyscall_kernel hstop,
    World.runKernel, if_neg (by simp [hneg]), hkernel]
  rfl

/-- The kernel runs the syscall, which returns or ends the tracee. -/
theorem runUntil_executed {nr : Word} (hstop : t.stop = .syscallEntry nr)
    (hneg : t.user.nr.msb = false) :
    (∃ u, runUntilEnterOrExitOfNextSyscall w t =
        .ok () (t.arrive .syscallExit u [.executed nr t.user.nr, .left u])) ∨
      runUntilEnterOrExitOfNextSyscall w t =
        .ok () (t.arrive .exited t.user [.executed nr t.user.nr]) := by
  cases hkernel : w.kernel t.clock t.user with
  | returns u =>
      exact Or.inl ⟨u, runUntil_returns hstop hneg hkernel⟩
  | exits =>
      exact Or.inr (runUntil_ended hstop hneg hkernel)

end Resuming

/-! ### Memory -/

theorem ptracePeekText_ok (h : t.Stopped) {addr : Word} {bytes : List Byte}
    (hload : t.user.mem.load addr wordSize = some bytes) :
    ptracePeekText addr t = .ok (wordOfBytes bytes) t := by
  rw [ptracePeekText, bind_of_ok (checkStopped_ok h), get_bind, hload]
  rfl

theorem ptracePeekText_notStopped (h : ¬t.Stopped) (addr : Word) :
    ptracePeekText addr t = .error (.systemError noSuchProcess) t := by
  rw [ptracePeekText, bind_of_error (checkStopped_error h)]

theorem ptracePeekText_error (h : t.Stopped) {addr : Word}
    (hunmapped : ¬t.user.mem.Mapped addr wordSize) :
    ptracePeekText addr t = .error (.systemError inputOutputError) t := by
  have hload : t.user.mem.load addr wordSize = none := by
    rwa [← ByteMemory.load_isSome, Bool.not_eq_true, Option.isSome_eq_false_iff,
      Option.isNone_iff_eq_none] at hunmapped
  rw [ptracePeekText, bind_of_ok (checkStopped_ok h), get_bind, hload]
  rfl

theorem ptracePokeData_ok (h : t.Stopped) {addr : Word} {bytes : List Byte}
    (hlen : bytes.length = wordSize) (hmapped : t.user.mem.Mapped addr wordSize) :
    ptracePokeData addr (wordOfBytes bytes) t =
      .ok () (t.setMem (t.user.mem.store addr bytes)) := by
  have hstore := ByteMemory.storeUntilFault_mapped bytes (hlen ▸ hmapped)
  rw [ptracePokeData, bind_of_ok (checkStopped_ok h), get_bind, wordBytes_wordOfBytes hlen,
    hstore, hlen]
  rfl

theorem ptracePokeData_error (h : t.Stopped) {addr : Word} {bytes : List Byte}
    (hlen : bytes.length = wordSize) (hunmapped : ¬t.user.mem.Mapped addr wordSize) :
    ∃ mem, ptracePokeData addr (wordOfBytes bytes) t =
      .error (.systemError inputOutputError) (t.setMem mem) := by
  have hshort := ByteMemory.storeUntilFault_unmapped bytes (hlen ▸ hunmapped)
  refine ⟨(t.user.mem.storeUntilFault addr bytes).1, ?_⟩
  rw [ptracePokeData, bind_of_ok (checkStopped_ok h), get_bind, wordBytes_wordOfBytes hlen]
  simp only [set_bind]
  rw [if_neg (by omega)]
  rfl

/-- The bytes of the words that cover `n` bytes. -/
def coveredBytes (n : Nat) : Nat :=
  (n + (wordSize - 1)) / wordSize * wordSize

theorem coveredBytes_small {n : Nat} (hpos : 0 < n) (hlt : n < wordSize) :
    coveredBytes n = wordSize := by
  simp only [coveredBytes, wordSize] at hlt ⊢
  omega

theorem coveredBytes_add (n : Nat) : coveredBytes (wordSize + n) = wordSize + coveredBytes n := by
  simp only [coveredBytes, wordSize]
  omega

/-- The word that is written last holds the rest of the buffer and, behind it, what was there. -/
theorem writeTail_ok (h : t.Stopped) {addr : Word} {buffer : List Byte}
    (hlen : buffer.length < wordSize) (hmapped : t.user.mem.Mapped addr (coveredBytes buffer.length)) :
    writeBufferToTracee 0 addr buffer t = .ok () (t.setMem (t.user.mem.store addr buffer)) := by
  by_cases hpos : buffer.length > 0
  · rw [coveredBytes_small hpos hlen] at hmapped
    obtain ⟨old, hold⟩ := Option.isSome_iff_exists.1 (ByteMemory.load_isSome.2 hmapped)
    have holdlen := ByteMemory.length_of_load hold
    have hsplit : buffer.length + (wordSize - buffer.length) = wordSize := by omega
    -- behind the buffer, the word to write is what the word there holds
    have hrest : t.user.mem.load (addr + BitVec.ofNat 64 buffer.length)
        (wordSize - buffer.length) = some (old.drop buffer.length) := by
      apply ByteMemory.load_drop
      rw [hsplit]
      exact hold
    have hmerge : (buffer ++ old.drop buffer.length).length = wordSize := by
      simp only [List.length_append, List.length_drop]
      omega
    have hstore : t.user.mem.store addr (buffer ++ old.drop buffer.length) =
        t.user.mem.store addr buffer :=
      ByteMemory.store_append_load hrest (by simp only [wordSize] at hlen ⊢; omega)
    rw [writeBufferToTracee, if_pos hpos, bind_of_ok (ptracePeekText_ok h hold),
      wordBytes_wordOfBytes holdlen, ptracePokeData_ok h hmerge hmapped, hstore]
  · have hnil : buffer = [] := List.length_eq_zero_iff.1 (by omega)
    rw [writeBufferToTracee, if_neg hpos, hnil, ByteMemory.store_nil, Tracee.setMem_self]
    rfl

/-- A buffer of at least one word is that word and what is left. -/
theorem first_word {words : Nat} {buffer : List Byte} (hwords : buffer.length / wordSize = words + 1) :
    (buffer.take wordSize).length = wordSize ∧
      buffer.length = wordSize + (buffer.drop wordSize).length ∧
      (buffer.drop wordSize).length / wordSize = words := by
  simp only [wordSize, List.length_take, List.length_drop] at hwords ⊢
  omega

theorem writeBufferToTracee_ok {words : Nat} :
    ∀ {t : Tracee} {addr : Word} {buffer : List Byte}, t.Stopped → buffer.length / wordSize = words →
      t.user.mem.Mapped addr (coveredBytes buffer.length) →
        writeBufferToTracee words addr buffer t =
          .ok () (t.setMem (t.user.mem.store addr buffer)) := by
  -- on the whole words that are left; a word that is written stays mapped
  induction words with
  | zero =>
      intro t addr buffer h hwords hmapped
      -- less than a word is left
      refine writeTail_ok h ?_ hmapped
      simp only [wordSize] at hwords ⊢
      omega
  | succ words ih =>
      intro t addr buffer h hwords hmapped
      obtain ⟨hlen, hdrop, hleft⟩ := first_word hwords
      rw [hdrop, coveredBytes_add, ByteMemory.mapped_add] at hmapped
      have hpoke := ptracePokeData_ok h hlen hmapped.1
      have hsame := ByteMemory.isSome_store (buffer.take wordSize) (hlen ▸ hmapped.1)
      have hmapped' : (t.setMem (t.user.mem.store addr (buffer.take wordSize))).user.mem.Mapped
          (addr + BitVec.ofNat 64 wordSize) (coveredBytes (buffer.drop wordSize).length) :=
        (ByteMemory.Mapped.congr hsame).2 hmapped.2
      have hrest := ih (t := t.setMem (t.user.mem.store addr (buffer.take wordSize))) h hleft hmapped'
      have hwhole : t.user.mem.store addr buffer =
          (t.user.mem.store addr (buffer.take wordSize)).store (addr + BitVec.ofNat 64 wordSize)
            (buffer.drop wordSize) := by
        conv_lhs => rw [← List.take_append_drop wordSize buffer, ByteMemory.store_append, hlen]
      rw [writeBufferToTracee, bind_of_ok hpoke, hrest, hwhole]
      rfl

theorem writeBufferToTracee_error {words : Nat} :
    ∀ {t : Tracee} {addr : Word} {buffer : List Byte}, t.Stopped → buffer.length / wordSize = words →
      ¬t.user.mem.Mapped addr (coveredBytes buffer.length) →
        ∃ mem, writeBufferToTracee words addr buffer t =
          .error (.systemError inputOutputError) (t.setMem mem) := by
  induction words with
  | zero =>
      intro t addr buffer h hwords hunmapped
      have hlen : buffer.length < wordSize := by
        simp only [wordSize] at hwords ⊢
        omega
      -- nothing would be written of an empty rest, so there is one, and its word is unmapped
      have hpos : buffer.length > 0 := by
        by_contra hzero
        have hnone : buffer.length = 0 := by omega
        rw [hnone] at hunmapped
        exact hunmapped ByteMemory.mapped_zero
      rw [coveredBytes_small hpos hlen] at hunmapped
      refine ⟨t.user.mem, ?_⟩
      rw [writeBufferToTracee, if_pos hpos, bind_of_error (ptracePeekText_error h hunmapped)]
      rfl
  | succ words ih =>
      intro t addr buffer h hwords hunmapped
      obtain ⟨hlen, hdrop, hleft⟩ := first_word hwords
      rw [hdrop, coveredBytes_add, ByteMemory.mapped_add] at hunmapped
      by_cases hword : t.user.mem.Mapped addr wordSize
      · -- this word can be written, so an unmapped one comes later
        have hpoke := ptracePokeData_ok h hlen hword
        have hsame := ByteMemory.isSome_store (buffer.take wordSize) (hlen ▸ hword)
        have hunmapped' : ¬(t.setMem (t.user.mem.store addr (buffer.take wordSize))).user.mem.Mapped
            (addr + BitVec.ofNat 64 wordSize) (coveredBytes (buffer.drop wordSize).length) :=
          fun hmapped => hunmapped ⟨hword, (ByteMemory.Mapped.congr hsame).1 hmapped⟩
        obtain ⟨mem, hrest⟩ :=
          ih (t := t.setMem (t.user.mem.store addr (buffer.take wordSize))) h hleft hunmapped'
        exact ⟨mem, by rw [writeBufferToTracee, bind_of_ok hpoke, hrest]; rfl⟩
      · obtain ⟨mem, hpoke⟩ := ptracePokeData_error h hlen hword
        exact ⟨mem, by rw [writeBufferToTracee, bind_of_error hpoke]⟩

/-- Without a stop only an empty buffer is written. -/
theorem writeBufferToTracee_notStopped (h : ¬t.Stopped) {addr : Word} {buffer : List Byte}
    (hne : buffer ≠ []) :
    writeBufferToTracee (buffer.length / wordSize) addr buffer t =
      .error (.systemError noSuchProcess) t := by
  have hpoke : ∀ data, ptracePokeData addr data t = .error (.systemError noSuchProcess) t := by
    intro data
    rw [ptracePokeData, bind_of_error (checkStopped_error h)]
  have hpos := List.length_pos_iff.2 hne
  cases buffer.length / wordSize with
  | zero =>
      rw [writeBufferToTracee, if_pos hpos, bind_of_error (ptracePeekText_notStopped h addr)]
  | succ words =>
      rw [writeBufferToTracee, bind_of_error (hpoke _)]

/-- The words that are read cover the range, and of the last one only the start is kept. -/
theorem readBufferFromTracee_ok {words : Nat} :
    ∀ {addr : Word} {length : Nat}, t.Stopped → (length + (wordSize - 1)) / wordSize = words →
      t.user.mem.Mapped addr (coveredBytes length) →
        ∃ bytes, t.user.mem.load addr length = some bytes ∧
          readBufferFromTracee words addr length t = .ok bytes t := by
  induction words with
  | zero =>
      intro addr length _ hwords _
      obtain rfl : length = 0 := by
        simp only [wordSize] at hwords
        omega
      exact ⟨[], rfl, rfl⟩
  | succ words ih =>
      intro addr length h hwords hmapped
      rw [coveredBytes, hwords, Nat.succ_mul, Nat.add_comm, ByteMemory.mapped_add] at hmapped
      have hwords' : (length - wordSize + (wordSize - 1)) / wordSize = words := by
        simp only [wordSize] at hwords ⊢
        omega
      obtain ⟨data, hdata⟩ := Option.isSome_iff_exists.1 (ByteMemory.load_isSome.2 hmapped.1)
      obtain ⟨rest, hrest, hread⟩ := ih h hwords' (by rw [coveredBytes, hwords']; exact hmapped.2)
      refine ⟨data.take length ++ rest, ?_, ?_⟩
      · by_cases hlong : wordSize ≤ length
        · have hsplit : wordSize + (length - wordSize) = length := by omega
          have hwhole : data.take length = data :=
            List.take_of_length_le (by rw [ByteMemory.length_of_load hdata]; exact hlong)
          rw [hwhole, ← hsplit]
          exact ByteMemory.load_append hdata hrest
        · -- the range ends in this word
          have hnone : length - wordSize = 0 := by omega
          rw [hnone] at hrest
          cases hrest
          rw [List.append_nil]
          exact ByteMemory.load_take hdata (by omega)
      · rw [readBufferFromTracee, bind_of_ok (ptracePeekText_ok h hdata), bind_of_ok hread,
          wordBytes_wordOfBytes (ByteMemory.length_of_load hdata)]
        rfl

theorem readBufferFromTracee_error {words : Nat} :
    ∀ {addr : Word} {length : Nat}, t.Stopped → (length + (wordSize - 1)) / wordSize = words →
      ¬t.user.mem.Mapped addr (coveredBytes length) →
        readBufferFromTracee words addr length t = .error (.systemError inputOutputError) t := by
  induction words with
  | zero =>
      intro addr length _ hwords hunmapped
      rw [coveredBytes, hwords, Nat.zero_mul] at hunmapped
      exact absurd ByteMemory.mapped_zero hunmapped
  | succ words ih =>
      intro addr length h hwords hunmapped
      rw [coveredBytes, hwords, Nat.succ_mul, Nat.add_comm, ByteMemory.mapped_add] at hunmapped
      have hwords' : (length - wordSize + (wordSize - 1)) / wordSize = words := by
        simp only [wordSize] at hwords ⊢
        omega
      by_cases hword : t.user.mem.Mapped addr wordSize
      · obtain ⟨data, hdata⟩ := Option.isSome_iff_exists.1 (ByteMemory.load_isSome.2 hword)
        have hrest : ¬t.user.mem.Mapped (addr + BitVec.ofNat 64 wordSize)
            (coveredBytes (length - wordSize)) := by
          rw [coveredBytes, hwords']
          exact fun hmapped => hunmapped ⟨hword, hmapped⟩
        have hread := ih h hwords' hrest
        rw [readBufferFromTracee, bind_of_ok (ptracePeekText_ok h hdata), bind_of_error hread]
      · rw [readBufferFromTracee, bind_of_error (ptracePeekText_error h hword)]

/-- Without a stop only nothing is read. -/
theorem readBufferFromTracee_notStopped (h : ¬t.Stopped) {addr : Word} {length : Nat}
    (hpos : 0 < length) :
    readBufferFromTracee ((length + (wordSize - 1)) / wordSize) addr length t =
      .error (.systemError noSuchProcess) t := by
  obtain ⟨words, hwords⟩ : ∃ words, (length + (wordSize - 1)) / wordSize = words + 1 :=
    Nat.exists_eq_succ_of_ne_zero (by simp only [wordSize]; omega)
  rw [hwords, readBufferFromTracee, bind_of_error (ptracePeekText_notStopped h addr)]

theorem intLength_le (length : Nat) : intLength length ≤ length := by
  rw [intLength, BitVec.toInt_eq_toNat_cond, BitVec.toNat_ofNat]
  omega

theorem intLength_small {length : Nat} (h : length < 2 ^ 31) : intLength length = length := by
  rw [intLength, BitVec.toInt_eq_toNat_cond, BitVec.toNat_ofNat]
  omega

/-- The words that a write of `length` bytes to `address` touches are all mapped. -/
def Writable (mem : ByteMemory) (address : Int) (length : Nat) : Prop :=
  mem.Mapped (BitVec.ofInt 64 address) (coveredBytes (intLength length))

instance (mem : ByteMemory) (address : Int) (length : Nat) : Decidable (Writable mem address length) :=
  inferInstanceAs (Decidable (ByteMemory.Mapped _ _ _))

/-- What a successful write makes of the memory. -/
def written (mem : ByteMemory) (address : Int) (buffer : List Byte) : ByteMemory :=
  mem.store (BitVec.ofInt 64 address) (buffer.take (intLength buffer.length))

theorem length_take_intLength (buffer : List Byte) :
    (buffer.take (intLength buffer.length)).length = intLength buffer.length := by
  rw [List.length_take, min_eq_left (intLength_le buffer.length)]

theorem writeToTracee_ok (h : t.Stopped) {address : Int} {buffer : List Byte}
    (hwritable : Writable t.user.mem address buffer.length) :
    writeToTracee address buffer t = .ok () (t.setMem (written t.user.mem address buffer)) := by
  rw [Writable, ← length_take_intLength] at hwritable
  exact writeBufferToTracee_ok h (by rw [length_take_intLength]) hwritable

theorem writeToTracee_error (h : t.Stopped) {address : Int} {buffer : List Byte}
    (hunwritable : ¬Writable t.user.mem address buffer.length) :
    ∃ mem, writeToTracee address buffer t =
      .error (.systemError inputOutputError) (t.setMem mem) := by
  rw [Writable, ← length_take_intLength] at hunwritable
  exact writeBufferToTracee_error h (by rw [length_take_intLength]) hunwritable

theorem le_coveredBytes (n : Nat) : n ≤ coveredBytes n := by
  simp only [coveredBytes, wordSize]
  omega

/-- A write maps and unmaps nothing. -/
theorem isSome_written {mem : ByteMemory} {address : Int} {buffer : List Byte}
    (hwritable : Writable mem address buffer.length) (x : Word) :
    (written mem address buffer x).isSome = (mem x).isSome := by
  refine ByteMemory.isSome_store _ ?_ x
  rw [length_take_intLength]
  exact hwritable.le (le_coveredBytes _)

theorem writable_written {mem : ByteMemory} {address : Int} {buffer : List Byte}
    (hwritable : Writable mem address buffer.length) (address' : Int) (length : Nat) :
    Writable (written mem address buffer) address' length ↔ Writable mem address' length :=
  ByteMemory.Mapped.congr (isSome_written hwritable)

/-- Reading changes nothing. -/
theorem readBufferFromTracee_frame {words : Nat} :
    ∀ {addr : Word} {length : Nat}, Ends (readBufferFromTracee words addr length) t
      (fun _ t' => t' = t) (fun e t' => e.OfAccess ∧ t' = t) := by
  have hpeek : ∀ addr, Ends (ptracePeekText addr) t (fun _ t' => t' = t)
      (fun e t' => e.OfAccess ∧ t' = t) := by
    intro addr
    by_cases h : t.Stopped
    · by_cases hmapped : t.user.mem.Mapped addr wordSize
      · obtain ⟨bytes, hload⟩ := Option.isSome_iff_exists.1 (ByteMemory.load_isSome.2 hmapped)
        exact Ends.of_eq_ok (ptracePeekText_ok h hload) rfl
      · exact Ends.of_eq_error (ptracePeekText_error h hmapped) ⟨trivial, rfl⟩
    · exact Ends.of_eq_error (ptracePeekText_notStopped h addr) ⟨trivial, rfl⟩
  induction words with
  | zero =>
      intro addr length
      rfl
  | succ words ih =>
      intro addr length
      refine (hpeek addr).bind fun data t' ht => ?_
      subst ht
      refine ih.bind fun rest t' ht => ?_
      exact ht

theorem readFromTracee_frame (address length : Int) :
    Ends (readFromTracee address length) t (fun _ t' => t' = t)
      (fun e t' => e.OfAccess ∧ t' = t) := by
  unfold readFromTracee
  split_ifs
  · exact ⟨trivial, rfl⟩
  · rfl
  · exact readBufferFromTracee_frame.bind fun _ _ ht => ht

end Creplayer

end RrPython
