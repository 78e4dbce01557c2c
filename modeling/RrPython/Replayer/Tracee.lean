import RrPython.Foundation.ByteMemory
import RrPython.Machine.Registers
import RrPython.Replayer.SystemCall

/-!
# Tracee — the traced process as `ptrace` shows it

Between two stops the tracee runs by itself: `World` says what its program does in user mode and what
the kernel does in a syscall, as functions of the time and of its registers and memory.  The moves
below are those of `PTRACE_SYSCALL`, which stops the tracee at each syscall entry and at each exit.
The history lists what happened, in order; nothing depends on it.
-/

namespace RrPython

open Foundation

/-- What user mode sees of a process. -/
structure UserState where
  regs : PtRegs
  mem : ByteMemory

/-- The number in `orig_rax`. -/
def UserState.nr (u : UserState) : Word :=
  u.regs .origRax

/-- Nothing is mapped, and all registers are 0. -/
def bareUser : UserState where
  regs := fun _ => 0
  mem := fun _ => none

/-- The signal that a syscall stop reports; without `PTRACE_O_TRACESYSGOOD` nothing tells such a stop
from the delivery of the signal. -/
def sigtrap : Nat := 5

/-! ## The world outside the replayer -/

/-- How `PTRACE_ATTACH`, the wait for it, `PTRACE_CONT` and the wait for the next stop end. -/
inductive AttachOutcome
  /-- One of the two requests fails with `message`. -/
  | refused (message : String)
  /-- A signal stops the tracee. -/
  | stopped (u : UserState)
  | exited

/-- What a tracee does that is resumed in user mode. -/
inductive UserOutcome
  /-- It enters a syscall with the registers and the memory of `u`. -/
  | syscall (u : UserState)
  /-- A signal is about to be delivered. -/
  | signal (sig : Nat) (u : UserState)
  | exits

/-- What a syscall does. -/
inductive KernelOutcome
  | returns (u : UserState)
  | exits

structure World where
  attach : AttachOutcome
  user : Nat → UserState → UserOutcome
  kernel : Nat → UserState → KernelOutcome

/-! ## The tracee -/

inductive Stop
  /-- Not attached to, so every request fails. -/
  | detached
  /-- Stopped by a signal. -/
  | signalled
  /-- At the entry of the syscall that it asked for with the number `nr`. -/
  | syscallEntry (nr : Word)
  | syscallExit
  | exited
  deriving DecidableEq, Repr

inductive TraceeEvent
  /-- A syscall entry stop. -/
  | entered (u : UserState)
  /-- The replayer uses a recorded call for the syscall that the tracee is entering. -/
  | consumed (call : SystemCall)
  /-- The stdout callback is called. -/
  | stdout (buffer : Option (List Byte))
  /-- Having entered with the number `nr`, the kernel ran the syscall with the number `ran`. -/
  | executed (nr ran : Word)
  /-- Having entered with the number `nr`, the kernel found `origRax`, which is no syscall. -/
  | skipped (nr origRax : Word)
  /-- A syscall exit stop. -/
  | left (u : UserState)
  /-- The tracee goes on in user mode after a syscall. -/
  | returned (u : UserState)
  /-- A `SIGTRAP` is about to be delivered, which `waitpid` reports in the same way as a syscall stop. -/
  | trapped (u : UserState)

structure Tracee where
  stop : Stop
  user : UserState
  /-- How often the tracee has been resumed. -/
  clock : Nat
  history : List TraceeEvent

namespace Tracee

/-- Before the replayer attaches to it. -/
def init (user : UserState) : Tracee where
  stop := .detached
  user
  clock := 0
  history := []

def log (t : Tracee) (events : List TraceeEvent) : Tracee :=
  { t with history := t.history ++ events }

def setRegs (t : Tracee) (regs : PtRegs) : Tracee :=
  { t with user := { t.user with regs } }

def setMem (t : Tracee) (mem : ByteMemory) : Tracee :=
  { t with user := { t.user with mem } }

/-- It has been resumed and is now at `stop` with `user`. -/
def arrive (t : Tracee) (stop : Stop) (user : UserState) (events : List TraceeEvent) : Tracee where
  stop
  user
  clock := t.clock + 1
  history := t.history ++ events

/-- Whether `ptrace` requests other than attaching can succeed. -/
def Stopped (t : Tracee) : Prop :=
  t.stop ≠ .detached ∧ t.stop ≠ .exited

instance (t : Tracee) : Decidable t.Stopped :=
  inferInstanceAs (Decidable (_ ∧ _))

/-- The event of going on in user mode, if a syscall is behind the tracee. -/
def goingBack (t : Tracee) : List TraceeEvent :=
  match t.stop with
  | .syscallExit => [.returned t.user]
  | _ => []

/-! ### What the operations leave alone -/

@[simp] theorem log_history (t : Tracee) (events : List TraceeEvent) :
    (t.log events).history = t.history ++ events := rfl

@[simp] theorem setRegs_history (t : Tracee) (regs : PtRegs) :
    (t.setRegs regs).history = t.history := rfl

@[simp] theorem setRegs_user (t : Tracee) (regs : PtRegs) :
    (t.setRegs regs).user = { t.user with regs } := rfl

theorem setMem_self (t : Tracee) : t.setMem t.user.mem = t := rfl

theorem stopped_syscallEntry {t : Tracee} {nr : Word} (h : t.stop = .syscallEntry nr) : t.Stopped := by
  simp [Stopped, h]

theorem stopped_syscallExit {t : Tracee} (h : t.stop = .syscallExit) : t.Stopped := by
  simp [Stopped, h]

end Tracee

/-! ## Resuming -/

/-- The status that `waitpid` reports. -/
inductive WaitStatus
  | stopped (sig : Nat)
  | exited
  deriving DecidableEq, Repr

namespace World

def runUser (w : World) (t : Tracee) : WaitStatus × Tracee :=
  match w.user t.clock t.user with
  | .syscall u => (.stopped sigtrap, t.arrive (.syscallEntry u.nr) u [.entered u])
  | .signal sig u =>
      (.stopped sig, t.arrive .signalled u (if sig = sigtrap then [.trapped u] else []))
  | .exits => (.exited, t.arrive .exited t.user [])

/-- The kernel goes by the `orig_rax` that it finds after the stop; a negative one is no syscall and
leaves everything as it is. -/
def runKernel (w : World) (nr : Word) (t : Tracee) : WaitStatus × Tracee :=
  if t.user.nr.msb then
    (.stopped sigtrap, t.arrive .syscallExit t.user [.skipped nr t.user.nr, .left t.user])
  else
    match w.kernel t.clock t.user with
    | .returns u => (.stopped sigtrap, t.arrive .syscallExit u [.executed nr t.user.nr, .left u])
    | .exits => (.exited, t.arrive .exited t.user [.executed nr t.user.nr])

/-- `PTRACE_SYSCALL` and the wait for the next stop; `none` when the request fails. -/
def ptraceSyscall (w : World) (t : Tracee) : Option (WaitStatus × Tracee) :=
  match t.stop with
  | .detached => none
  | .signalled => some (w.runUser t)
  | .syscallEntry nr => some (w.runKernel nr t)
  | .syscallExit => some (w.runUser (t.log [.returned t.user]))
  | .exited => none

/-! ### The moves -/

variable {w : World} {t : Tracee}

theorem ptraceSyscall_none (h : ¬t.Stopped) : w.ptraceSyscall t = none := by
  cases hstop : t.stop <;> simp_all [ptraceSyscall, Tracee.Stopped]

theorem ptraceSyscall_user (hstop : t.stop = .signalled ∨ t.stop = .syscallExit) :
    w.ptraceSyscall t = some (w.runUser (t.log t.goingBack)) := by
  rcases hstop with hstop | hstop
  · have hlog : t.log [] = t := by
      simp [Tracee.log]
    simp [ptraceSyscall, Tracee.goingBack, hstop, hlog]
  · simp [ptraceSyscall, Tracee.goingBack, hstop]

theorem ptraceSyscall_kernel {nr : Word} (hstop : t.stop = .syscallEntry nr) :
    w.ptraceSyscall t = some (w.runKernel nr t) := by
  simp [ptraceSyscall, hstop]

end World

end RrPython
