import Mathlib.Data.Int.Bitwise
import RrPython.Replayer.Creplayer

/-!
# Replayer — taking a tracee through a recording

`replayer.py` and `syscall_handlers.py`.  A recorded call is either simulated, with an invalid syscall
in its place, or run for real and wrapped.
-/

namespace RrPython

open Foundation Creplayer

/-! ## syscall_handlers.py -/

/-- `Registers(*values)`. -/
def constructRegisters (values : List Int) : ReplayM Registers :=
  match Registers.ofList values with
  | some registers => pure registers
  | none => throw .typeError

def Registers.copy (registers : Registers) : ReplayM Registers :=
  constructRegisters registers.toList

/-- Assigning to a field of a `Registers` object. -/
def Registers.assign (registers : Registers) (r : Reg) (value : Int) : Registers :=
  Function.update registers r value

namespace SyscallHandlers

/-- `MAP_FIXED`. -/
def mapFixed : Int := 0x10

def getMmapRegisters (recordedSystemCall : SystemCall) (registers : Registers) : ReplayM Registers := do
  let newRegisters ← constructRegisters registers.toList
  let newRegisters := newRegisters.assign .rdi recordedSystemCall.returnValue
  pure (newRegisters.assign .r10 (Int.lor (registers .r10) mapFixed))

/-- `HANDLERS.get(num)`. -/
def handler (num : Int) : Option (SystemCall → Registers → ReplayM Registers) :=
  if num = 9 then some getMmapRegisters else none

end SyscallHandlers

/-! ## exceptions.py -/

/-- The message looks both numbers up, so an unknown number raises `KeyError` instead. -/
def unexpectedSysCallException (expected received : Int) : ReplayError :=
  match sysCallNames.lookup expected with
  | none => .keyError expected
  | some expected =>
      match sysCallNames.lookup received with
      | none => .keyError received
      | some received => .unexpectedSysCall s!"Expected {expected}, got {received}"

def unexpectedSystemCallReturnValueException (expected received : Int) : ReplayError :=
  .unexpectedSystemCallReturnValue s!"Expected {expected}, got {received}"

/-! ## replayer.py -/

def sysCallsToIgnoreInValidation : List Int :=
  [readSysCall, closeSysCall, fstatSysCall, mmapSysCall, mprotectSysCall, openatSysCall]

structure Replayer where
  systemCalls : List SystemCall
  /-- Whether the callback returns; it may answer differently each time. -/
  stdoutCallback : Option (Nat → Option (List Byte) → Bool)

namespace Replayer

def getNewRegisterValuesForSystemCall (recordedSystemCall : SystemCall) (registers : Registers) :
    ReplayM Registers :=
  match SyscallHandlers.handler recordedSystemCall.num with
  | some handle => handle recordedSystemCall registers
  | none => pure registers

def raiseOnUnexpectedState (recordedSystemCall : SystemCall) (traceeRegisters : Registers) :
    ReplayM Unit :=
  if recordedSystemCall.num ≠ traceeRegisters.sysCall then
    throw (unexpectedSysCallException recordedSystemCall.num traceeRegisters.sysCall)
  else pure ()

def raiseOnUnexpectedReturnValue (recordedSystemCall : SystemCall) (traceeRegisters : Registers) :
    ReplayM Unit :=
  if recordedSystemCall.returnValue ≠ traceeRegisters .rax ∧
      recordedSystemCall.num ∉ sysCallsToIgnoreInValidation then
    throw (unexpectedSystemCallReturnValueException recordedSystemCall.returnValue
      (traceeRegisters .rax))
  else pure ()

/-- `_get_registers_from_tracee`. -/
def getRegisters : ReplayM Registers := do
  let registersList ← getRegistersFromTracee
  constructRegisters registersList

def copyMemoryCopiesToTracee : List MemoryCopy → ReplayM Unit
  | [] => pure ()
  | memoryCopy :: memoryCopies => do
      writeToTracee memoryCopy.toAddress memoryCopy.buffer
      copyMemoryCopiesToTracee memoryCopies

/-- Descriptor 1 is stdout. -/
def callStdoutCallbackIfRelevant (self : Replayer) (recordedSystemCall : SystemCall) :
    ReplayM Unit :=
  match self.stdoutCallback with
  | some callback =>
      if recordedSystemCall.num = writeSysCall ∧ recordedSystemCall.registers .rdi = 1 then do
        let buffer ← readFromTracee (recordedSystemCall.registers .rsi)
          (recordedSystemCall.registers .rdx)
        modify (Tracee.log · [.stdout buffer])
        let t ← get
        if callback t.clock buffer then pure () else throw .callback
      else pure ()
  | none => pure ()

/-- `is not` compares identities; Python keeps one object for each small integer. -/
def getExitStatus (w : World) : ReplayM Int := do
  runUntilEnterOrExitOfNextSyscall w
  let registers ← getRegisters
  if registers.sysCall ≠ exitGroupSysCall then
    throw (unexpectedSysCallException exitGroupSysCall registers.sysCall)
  else do
    runUntilEnterOrExitOfNextSyscall w
    pure (registers .rdi)

def simulateSystemCallForTracee (w : World) (recordedSystemCall : SystemCall)
    (traceeRegisters : Registers) : ReplayM Unit := do
  -- run an invalid syscall
  let registersForInvalidSysCall ← traceeRegisters.copy
  setRegistersInTracee (registersForInvalidSysCall.assign .origRax (-5)).toList
  runUntilEnterOrExitOfNextSyscall w
  copyMemoryCopiesToTracee recordedSystemCall.memoryCopies
  let newRegisters ← traceeRegisters.copy
  setRegistersInTracee (newRegisters.assign .rax recordedSystemCall.returnValue).toList

def wrapAndRunRealSystemCallInTracee (w : World) (recordedSystemCall : SystemCall)
    (traceeRegisters : Registers) : ReplayM Unit := do
  let newRegisters ← getNewRegisterValuesForSystemCall recordedSystemCall traceeRegisters
  setRegistersInTracee newRegisters.toList
  runUntilEnterOrExitOfNextSyscall w
  let registers ← getRegisters
  raiseOnUnexpectedReturnValue recordedSystemCall registers

/-- `should_simulate_system_call`, raising what it raises. -/
def decideWhetherToSimulate (self : Replayer) (index : Nat) : ReplayM Bool :=
  match shouldSimulateSystemCall self.systemCalls index with
  | .ok simulate => pure simulate
  | .error e => throw (.shouldSimulate e)

def runTraceeThroughSystemCall (self : Replayer) (w : World) (recordedSystemCallIndex : Nat)
    (recordedSystemCall : SystemCall) : ReplayM Unit := do
  let registers ← getRegisters
  raiseOnUnexpectedState recordedSystemCall registers
  -- from here on the recorded call stands for the one that the tracee is entering
  modify (Tracee.log · [.consumed recordedSystemCall])
  self.callStdoutCallbackIfRelevant recordedSystemCall
  let simulate ← self.decideWhetherToSimulate recordedSystemCallIndex
  if simulate then simulateSystemCallForTracee w recordedSystemCall registers
  else wrapAndRunRealSystemCallInTracee w recordedSystemCall registers

/-- The body of the loop of `start_replaying`. -/
def replaySystemCall (self : Replayer) (w : World) (i : Nat) (recordedSystemCall : SystemCall) :
    ReplayM Unit := do
  runUntilEnterOrExitOfNextSyscall w
  self.runTraceeThroughSystemCall w i recordedSystemCall

def startReplaying (self : Replayer) (w : World) : ReplayM Int := do
  attachToTraceeAndBegin w
  forEach (self.replaySystemCall w) 0 self.systemCalls
  getExitStatus w

/-! ## What the parts do -/

section Parts

variable {t : Tracee} {w : World}

theorem constructRegisters_toList (registers : Registers) :
    constructRegisters registers.toList t = .ok registers t := by
  rw [constructRegisters, Registers.ofList_toList]
  rfl

theorem copy_ok (registers : Registers) : registers.copy t = .ok registers t :=
  constructRegisters_toList registers

theorem getRegisters_ok (h : t.Stopped) :
    getRegisters t = .ok (PtRegs.toRegisters t.user.regs) t := by
  rw [getRegisters, bind_of_ok (getRegistersFromTracee_ok h)]
  exact constructRegisters_toList _

theorem getRegisters_error (h : ¬t.Stopped) :
    getRegisters t = .error (.systemError noSuchProcess) t := by
  rw [getRegisters, bind_of_error (getRegistersFromTracee_error h)]

theorem raiseOnUnexpectedState_ok {call : SystemCall} {regs : PtRegs}
    (h : call.num = (regs .origRax).toNat) :
    raiseOnUnexpectedState call (PtRegs.toRegisters regs) t = .ok () t := by
  have hsame : ¬call.num ≠ Registers.sysCall (PtRegs.toRegisters regs) := fun hne => hne h
  rw [raiseOnUnexpectedState, if_neg hsame]
  rfl

theorem raiseOnUnexpectedState_error {call : SystemCall} {regs : PtRegs}
    (h : call.num ≠ (regs .origRax).toNat) :
    raiseOnUnexpectedState call (PtRegs.toRegisters regs) t =
      .error (unexpectedSysCallException call.num (regs .origRax).toNat) t := by
  have hother : call.num ≠ Registers.sysCall (PtRegs.toRegisters regs) := h
  rw [raiseOnUnexpectedState, if_pos hother]
  rfl

theorem decideWhetherToSimulate_ok {self : Replayer} {i : Nat} {simulate : Bool}
    (h : shouldSimulateSystemCall self.systemCalls i = .ok simulate) :
    self.decideWhetherToSimulate i t = .ok simulate t := by
  rw [decideWhetherToSimulate, h]
  rfl

/-- The tracee behind the invalid syscall that stands in for the one it entered. -/
def afterInvalidSysCall (t : Tracee) (nr : Word) (registers : Registers) : Tracee :=
  let regs : PtRegs := fun r => BitVec.ofInt 64 (registers.assign .origRax (-5) r)
  (t.setRegs regs).arrive .syscallExit { t.user with regs }
    [.skipped nr (-5), .left { t.user with regs }]

/-- What is left of a simulation after the invalid syscall. -/
theorem simulate_eq {nr : Word} (hstop : t.stop = .syscallEntry nr) (call : SystemCall)
    (registers : Registers) :
    simulateSystemCallForTracee w call registers t =
      (do
        copyMemoryCopiesToTracee call.memoryCopies
        setRegistersInTracee (registers.assign .rax call.returnValue).toList : ReplayM Unit)
        (afterInvalidSysCall t nr registers) := by
  have hset := setRegistersInTracee_ok (Tracee.stopped_syscallEntry hstop)
    (registers.assign .origRax (-5))
  -- -5 is negative, so the kernel runs no syscall
  have hnr : (t.setRegs fun r => BitVec.ofInt 64 (registers.assign .origRax (-5) r)).user.nr = -5 := by
    simp [UserState.nr, Registers.assign]
  have hstop' : (t.setRegs fun r => BitVec.ofInt 64 (registers.assign .origRax (-5) r)).stop =
      .syscallEntry nr := hstop
  have hrun := runUntil_skipped (w := w) hstop' (by rw [hnr]; decide)
  rw [hnr] at hrun
  rw [simulateSystemCallForTracee, bind_of_ok (copy_ok registers),
    bind_of_ok hset, bind_of_ok hrun]
  show (copyMemoryCopiesToTracee call.memoryCopies >>= _) (afterInvalidSysCall t nr registers) =
    (copyMemoryCopiesToTracee call.memoryCopies >>= _) (afterInvalidSysCall t nr registers)
  cases hcopy : copyMemoryCopiesToTracee call.memoryCopies (afterInvalidSysCall t nr registers) with
  | ok a t' =>
      rw [bind_of_ok hcopy, bind_of_ok hcopy, bind_of_ok (copy_ok registers)]
  | error e t' =>
      rw [bind_of_error hcopy, bind_of_error hcopy]

/-- The memory after all copies of a call have been written. -/
def appliedCopies (mem : ByteMemory) (copies : List MemoryCopy) : ByteMemory :=
  copies.foldl (fun mem c => written mem c.toAddress c.buffer) mem

/-- Every word that writing the copies touches is mapped. -/
def CopiesWritable (mem : ByteMemory) (copies : List MemoryCopy) : Prop :=
  ∀ c ∈ copies, Writable mem c.toAddress c.buffer.length

theorem copiesWritable_cons {mem : ByteMemory} {c : MemoryCopy} {copies : List MemoryCopy} :
    CopiesWritable mem (c :: copies) ↔ Writable mem c.toAddress c.buffer.length ∧
      CopiesWritable (written mem c.toAddress c.buffer) copies := by
  simp only [CopiesWritable, List.forall_mem_cons]
  refine and_congr_right fun h => ?_
  simp only [writable_written h]

theorem copyMemoryCopies_ok :
    ∀ {copies : List MemoryCopy} {t : Tracee}, t.Stopped → CopiesWritable t.user.mem copies →
      copyMemoryCopiesToTracee copies t = .ok () (t.setMem (appliedCopies t.user.mem copies)) := by
  intro copies
  induction copies with
  | nil =>
      intro t _ _
      rfl
  | cons c copies ih =>
      intro t h hwritable
      obtain ⟨hhead, htail⟩ := copiesWritable_cons.1 hwritable
      have hrest := ih (t := t.setMem (written t.user.mem c.toAddress c.buffer)) h htail
      rw [copyMemoryCopiesToTracee, bind_of_ok (writeToTracee_ok h hhead), hrest]
      rfl

theorem copyMemoryCopies_error :
    ∀ {copies : List MemoryCopy} {t : Tracee}, t.Stopped → ¬CopiesWritable t.user.mem copies →
      ∃ mem, copyMemoryCopiesToTracee copies t =
        .error (.systemError inputOutputError) (t.setMem mem) := by
  intro copies
  induction copies with
  | nil =>
      intro t _ hunwritable
      exact absurd (by simp [CopiesWritable]) hunwritable
  | cons c copies ih =>
      intro t h hunwritable
      by_cases hhead : Writable t.user.mem c.toAddress c.buffer.length
      · obtain ⟨mem, hrest⟩ := ih (t := t.setMem (written t.user.mem c.toAddress c.buffer)) h
          fun htail => hunwritable (copiesWritable_cons.2 ⟨hhead, htail⟩)
        refine ⟨mem, ?_⟩
        rw [copyMemoryCopiesToTracee, bind_of_ok (writeToTracee_ok h hhead), hrest]
        rfl
      · obtain ⟨mem, hwrite⟩ := writeToTracee_error h hhead
        exact ⟨mem, by rw [copyMemoryCopiesToTracee, bind_of_error hwrite]⟩

/-- The user state that a simulation leaves behind. -/
def simulatedUser (mem : ByteMemory) (call : SystemCall) (registers : Registers) : UserState where
  regs := fun r => BitVec.ofInt 64 (registers.assign .rax call.returnValue r)
  mem := appliedCopies mem call.memoryCopies

theorem ofInt_toNat (w : Word) : BitVec.ofInt 64 (w.toNat : Int) = w := by
  rw [BitVec.ofInt_natCast, BitVec.ofNat_toNat, BitVec.setWidth_eq]

/-- Recorded registers lose nothing on the way through Python, and a negative return value comes
back as the same word. -/
theorem simulatedUser_regs (mem : ByteMemory) (r : Record) (regs : PtRegs) :
    (simulatedUser mem (Record.toSystemCall r) (PtRegs.toRegisters regs)).regs =
      PtRegs.set regs .rax r.ret := by
  funext x
  by_cases hx : x = .rax
  · subst hx
    simp [simulatedUser, Registers.assign, Record.toSystemCall]
  · have hregs : (PtRegs.toRegisters regs).assign .rax r.ret.toInt x = (regs x).toNat := by
      simp [Registers.assign, PtRegs.toRegisters, hx]
    simp only [simulatedUser, Record.toSystemCall, hregs, ofInt_toNat, PtRegs.set_other regs r.ret hx]

theorem simulate_ok {nr : Word} (hstop : t.stop = .syscallEntry nr) {call : SystemCall}
    (registers : Registers) (hwritable : CopiesWritable t.user.mem call.memoryCopies) :
    simulateSystemCallForTracee w call registers t =
      .ok () { afterInvalidSysCall t nr registers with
        user := simulatedUser t.user.mem call registers } := by
  have hexit : (afterInvalidSysCall t nr registers).Stopped := Tracee.stopped_syscallExit rfl
  have hcopy := copyMemoryCopies_ok (t := afterInvalidSysCall t nr registers) hexit hwritable
  rw [simulate_eq hstop, bind_of_ok hcopy]
  exact setRegistersInTracee_ok
    (t := (afterInvalidSysCall t nr registers).setMem (appliedCopies t.user.mem call.memoryCopies))
    hexit (registers.assign .rax call.returnValue)

theorem simulate_error {nr : Word} (hstop : t.stop = .syscallEntry nr) {call : SystemCall}
    (registers : Registers) (hunwritable : ¬CopiesWritable t.user.mem call.memoryCopies) :
    ∃ mem, simulateSystemCallForTracee w call registers t =
      .error (.systemError inputOutputError) ((afterInvalidSysCall t nr registers).setMem mem) := by
  have hexit : (afterInvalidSysCall t nr registers).Stopped := Tracee.stopped_syscallExit rfl
  obtain ⟨mem, hcopy⟩ :=
    copyMemoryCopies_error (t := afterInvalidSysCall t nr registers) hexit hunwritable
  exact ⟨mem, by rw [simulate_eq hstop, bind_of_error hcopy]⟩

end Parts

end Replayer

end RrPython
