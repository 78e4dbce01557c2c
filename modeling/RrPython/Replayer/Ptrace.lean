import RrPython.Replayer.Creplayer

/-!
# Ptrace — memory access through `ptrace` and `errno`

`ptrace` reports a failure as -1 and says which in `errno`, and a word read from the tracee may be -1
as well.  Here the loops of `creplayer.c` are as the source has them, with each return value checked
against `errno`; they refine those of `Creplayer`, where a request that fails raises by itself.
-/

namespace RrPython

open Foundation

/-- Values of `errno`. -/
inductive Errno
  | zero
  /-- `ESRCH`. -/
  | noSuchProcess
  /-- `EIO`. -/
  | inputOutputError
  /-- Left over from another call, with its `strerror`. -/
  | other (text : String)
  deriving DecidableEq, Repr

def strerror : Errno → String
  | .zero => "Success"
  | .noSuchProcess => Creplayer.noSuchProcess
  | .inputOutputError => Creplayer.inputOutputError
  | .other text => text

/-- The tracee, and `errno` in the process that traces it. -/
structure Tracer where
  tracee : Tracee
  errno : Errno

abbrev TracerM := EStateM ReplayError Tracer

namespace Ptrace

open Creplayer

/-! ## Requests -/

/-- A `long` -1. -/
def failed : Word := -1

/-- The request fails with `errno`. -/
def fail (errno : Errno) : TracerM Word := do
  modify fun c => { c with errno }
  pure failed

/-- `ptrace(PTRACE_PEEKTEXT, pid, addr, 0)`; a word that could be read comes with an `errno` of 0. -/
def ptracePeekText (addr : Word) : TracerM Word := do
  let c ← get
  if c.tracee.Stopped then
    match c.tracee.user.mem.load addr wordSize with
    | some bytes => do
        set { c with errno := .zero }
        pure (wordOfBytes bytes)
    | none => fail .inputOutputError
  else fail .noSuchProcess

/-- `ptrace(PTRACE_POKEDATA, pid, addr, data)`; a success leaves `errno` alone. -/
def ptracePokeData (addr data : Word) : TracerM Word := do
  let c ← get
  if c.tracee.Stopped then do
    let (mem, copied) := c.tracee.user.mem.storeUntilFault addr (wordBytes data)
    set { c with tracee := c.tracee.setMem mem }
    if copied = wordSize then pure 0 else fail .inputOutputError
  else fail .noSuchProcess

/-- `RAISE_EXCEPTION_WITH_ERRNO_ON_TRUE(-1 == ret && 0 != errno)` -/
def raiseExceptionWithErrno (ret : Word) : TracerM Unit := do
  let c ← get
  if ret = failed ∧ c.errno ≠ .zero then throw (.systemError (strerror c.errno)) else pure ()

/-! ## The loops -/

/-- `length` is the length of `buffer`. -/
def writeBufferToTracee (addr : Word) (buffer : List Byte) : TracerM Unit :=
  if wordSize ≤ buffer.length then do
    let ret ← ptracePokeData addr (wordOfBytes (buffer.take wordSize))
    raiseExceptionWithErrno ret
    writeBufferToTracee (addr + BitVec.ofNat 64 wordSize) (buffer.drop wordSize)
  else if 0 < buffer.length then do
    let val ← ptracePeekText addr
    raiseExceptionWithErrno val
    let ret ← ptracePokeData addr (wordOfBytes (buffer ++ (wordBytes val).drop buffer.length))
    raiseExceptionWithErrno ret
  else pure ()
termination_by buffer.length
decreasing_by
  simp only [wordSize, List.length_drop] at *
  omega

/-- What is stored in `buffer`. -/
def readBufferFromTracee (addr : Word) (length : Nat) : TracerM (List Byte) :=
  if 0 < length then do
    let val ← ptracePeekText addr
    raiseExceptionWithErrno val
    let rest ← readBufferFromTracee (addr + BitVec.ofNat 64 wordSize) (length - wordSize)
    pure ((wordBytes val).take length ++ rest)
  else pure []
termination_by length
decreasing_by
  simp only [wordSize]
  omega

def writeToTracee (address : Int) (buffer : List Byte) : TracerM Unit :=
  writeBufferToTracee (BitVec.ofInt 64 address) (buffer.take (intLength buffer.length))

def readFromTracee (address length : Int) : TracerM (Option (List Byte)) :=
  if length < -2 ^ 31 ∨ 2 ^ 31 ≤ length then throw .overflowError
  else if length < 0 then pure none
  else do
    let buffer ← readBufferFromTracee (BitVec.ofInt 64 address) length.toNat
    pure (some buffer)

/-! ## A checked request is one that raises -/

section Requests

variable {c : Tracer} {addr : Word}

theorem raise_zero (h : c.errno = .zero) (ret : Word) : raiseExceptionWithErrno ret c = .ok () c := by
  rw [raiseExceptionWithErrno, get_bind, if_neg fun hfailed => hfailed.2 h]
  rfl

theorem raise_success {ret : Word} (h : ret ≠ failed) :
    raiseExceptionWithErrno ret c = .ok () c := by
  rw [raiseExceptionWithErrno, get_bind, if_neg fun hfailed => h hfailed.1]
  rfl

theorem raise_failed (h : c.errno ≠ .zero) :
    raiseExceptionWithErrno failed c = .error (.systemError (strerror c.errno)) c := by
  rw [raiseExceptionWithErrno, get_bind, if_pos ⟨rfl, h⟩]
  rfl

theorem peek_ok (h : c.tracee.Stopped) {bytes : List Byte}
    (hload : c.tracee.user.mem.load addr wordSize = some bytes) :
    ptracePeekText addr c = .ok (wordOfBytes bytes) { c with errno := .zero } := by
  rw [ptracePeekText, get_bind, if_pos h, hload]
  rfl

theorem peek_unmapped (h : c.tracee.Stopped)
    (hload : c.tracee.user.mem.load addr wordSize = none) :
    ptracePeekText addr c = .ok failed { c with errno := .inputOutputError } := by
  rw [ptracePeekText, get_bind, if_pos h, hload]
  rfl

theorem peek_notStopped (h : ¬c.tracee.Stopped) :
    ptracePeekText addr c = .ok failed { c with errno := .noSuchProcess } := by
  rw [ptracePeekText, get_bind, if_neg h]
  rfl

theorem poke_ok (h : c.tracee.Stopped) {data : Word} {mem : ByteMemory}
    (hstore : c.tracee.user.mem.storeUntilFault addr (wordBytes data) = (mem, wordSize)) :
    ptracePokeData addr data c = .ok 0 { c with tracee := c.tracee.setMem mem } := by
  rw [ptracePokeData, get_bind, if_pos h, hstore]
  rfl

theorem poke_unmapped (h : c.tracee.Stopped) {data : Word} {mem : ByteMemory} {copied : Nat}
    (hstore : c.tracee.user.mem.storeUntilFault addr (wordBytes data) = (mem, copied))
    (hshort : copied ≠ wordSize) :
    ptracePokeData addr data c =
      .ok failed { c with tracee := c.tracee.setMem mem, errno := .inputOutputError } := by
  rw [ptracePokeData, get_bind, if_pos h, hstore]
  simp only [set_bind]
  rw [if_neg hshort]
  rfl

theorem poke_notStopped (h : ¬c.tracee.Stopped) (data : Word) :
    ptracePokeData addr data c = .ok failed { c with errno := .noSuchProcess } := by
  rw [ptracePokeData, get_bind, if_neg h]
  rfl

end Requests

variable {α : Type}

/-- A word that was read is told from a failure even where it is -1. -/
theorem peek_refines (addr : Word) {f : Word → TracerM α} {g : Word → ReplayM α}
    (hf : ∀ val, Refines Tracer.tracee (f val) (g val)) :
    Refines Tracer.tracee
      (do
        let val ← ptracePeekText addr
        raiseExceptionWithErrno val
        f val)
      (Creplayer.ptracePeekText addr >>= g) := by
  intro c
  by_cases h : c.tracee.Stopped
  · cases hload : c.tracee.user.mem.load addr wordSize with
    | some bytes =>
        have hraise := raise_zero (c := { c with errno := .zero }) rfl (wordOfBytes bytes)
        rw [bind_of_ok (peek_ok h hload), bind_of_ok hraise,
          bind_of_ok (Creplayer.ptracePeekText_ok h hload)]
        exact hf _ { c with errno := .zero }
    | none =>
        have hunmapped : ¬c.tracee.user.mem.Mapped addr wordSize := by
          rw [← ByteMemory.load_isSome, hload]
          simp
        have hraise := raise_failed (c := { c with errno := .inputOutputError }) (by simp)
        rw [bind_of_ok (peek_unmapped h hload), bind_of_error hraise,
          bind_of_error (Creplayer.ptracePeekText_error h hunmapped)]
        rfl
  · have hraise := raise_failed (c := { c with errno := .noSuchProcess }) (by simp)
    rw [bind_of_ok (peek_notStopped h), bind_of_error hraise,
      bind_of_error (Creplayer.ptracePeekText_notStopped h addr)]
    rfl

theorem poke_refines (addr data : Word) {f : TracerM α} {g : ReplayM α}
    (hf : Refines Tracer.tracee f g) :
    Refines Tracer.tracee
      (do
        let ret ← ptracePokeData addr data
        raiseExceptionWithErrno ret
        f)
      (Creplayer.ptracePokeData addr data >>= fun _ => g) := by
  intro c
  by_cases h : c.tracee.Stopped
  · rcases hstore : c.tracee.user.mem.storeUntilFault addr (wordBytes data) with ⟨mem, copied⟩
    by_cases hall : copied = wordSize
    · subst hall
      have hpoke : Creplayer.ptracePokeData addr data c.tracee = .ok () (c.tracee.setMem mem) := by
        rw [Creplayer.ptracePokeData, bind_of_ok (checkStopped_ok h), get_bind, hstore]
        rfl
      have hsuccess : (0 : Word) ≠ failed := by decide
      have hraise := raise_success (c := { c with tracee := c.tracee.setMem mem }) hsuccess
      rw [bind_of_ok (poke_ok h hstore), bind_of_ok hraise, bind_of_ok hpoke]
      exact hf { c with tracee := c.tracee.setMem mem }
    · have hpoke : Creplayer.ptracePokeData addr data c.tracee =
          .error (.systemError inputOutputError) (c.tracee.setMem mem) := by
        rw [Creplayer.ptracePokeData, bind_of_ok (checkStopped_ok h), get_bind, hstore]
        simp only [set_bind]
        rw [if_neg hall]
        rfl
      have hraise := raise_failed
        (c := { c with tracee := c.tracee.setMem mem, errno := .inputOutputError }) (by simp)
      rw [bind_of_ok (poke_unmapped h hstore hall), bind_of_error hraise, bind_of_error hpoke]
      rfl
  · have hpoke : Creplayer.ptracePokeData addr data c.tracee =
        .error (.systemError noSuchProcess) c.tracee := by
      rw [Creplayer.ptracePokeData, bind_of_error (checkStopped_error h)]
    have hraise := raise_failed (c := { c with errno := .noSuchProcess }) (by simp)
    rw [bind_of_ok (poke_notStopped h data), bind_of_error hraise, bind_of_error hpoke]
    rfl

/-! ## The loops -/

/-- The loops of `Creplayer` count the turns that the source makes while words are left. -/
theorem writeBufferToTracee_refines {words : Nat} :
    ∀ {addr : Word} {buffer : List Byte}, buffer.length / wordSize = words →
      Refines Tracer.tracee (writeBufferToTracee addr buffer)
        (Creplayer.writeBufferToTracee words addr buffer) := by
  induction words with
  | zero =>
      intro addr buffer hwords
      have hless : ¬wordSize ≤ buffer.length := by
        simp only [wordSize] at hwords ⊢
        omega
      rw [writeBufferToTracee, if_neg hless, Creplayer.writeBufferToTracee]
      by_cases hpos : 0 < buffer.length
      · rw [if_pos hpos, if_pos hpos]
        refine peek_refines addr fun val => ?_
        simpa only [bind_pure_unit] using poke_refines addr
          (wordOfBytes (buffer ++ (wordBytes val).drop buffer.length)) (Refines.pure ())
      · rw [if_neg hpos, if_neg hpos]
        exact Refines.pure ()
  | succ words ih =>
      intro addr buffer hwords
      have hmore : wordSize ≤ buffer.length := by
        simp only [wordSize] at hwords ⊢
        omega
      rw [writeBufferToTracee, if_pos hmore, Creplayer.writeBufferToTracee]
      refine poke_refines addr _ (ih ?_)
      simp only [wordSize, List.length_drop] at hwords ⊢
      omega

theorem readBufferFromTracee_refines {words : Nat} :
    ∀ {addr : Word} {length : Nat}, (length + (wordSize - 1)) / wordSize = words →
      Refines Tracer.tracee (readBufferFromTracee addr length)
        (Creplayer.readBufferFromTracee words addr length) := by
  induction words with
  | zero =>
      intro addr length hwords
      have hnone : ¬0 < length := by
        simp only [wordSize] at hwords
        omega
      rw [readBufferFromTracee, if_neg hnone, Creplayer.readBufferFromTracee]
      exact Refines.pure []
  | succ words ih =>
      intro addr length hwords
      have hpos : 0 < length := by
        simp only [wordSize] at hwords
        omega
      rw [readBufferFromTracee, if_pos hpos, Creplayer.readBufferFromTracee]
      refine peek_refines addr fun val => (ih ?_).bind fun rest => Refines.pure _
      simp only [wordSize] at hwords ⊢
      omega

theorem writeToTracee_refines (address : Int) (buffer : List Byte) :
    Refines Tracer.tracee (writeToTracee address buffer) (Creplayer.writeToTracee address buffer) :=
  writeBufferToTracee_refines (by rw [length_take_intLength])

theorem readFromTracee_refines (address length : Int) :
    Refines Tracer.tracee (readFromTracee address length)
      (Creplayer.readFromTracee address length) := by
  rw [readFromTracee, Creplayer.readFromTracee]
  split
  · exact Refines.throw _
  · split
    · exact Refines.pure _
    · exact (readBufferFromTracee_refines rfl).bind fun buffer => Refines.pure _

end Ptrace

end RrPython
