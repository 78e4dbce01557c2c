import RrPython.Recorder.Entry
import RrPython.Replayer.Replayer

/-!
# Resume — where a simulated call leaves the tracee

The recorder keeps the registers of the entry and the `rax` of the exit; the replayer rebuilds the
registers of the exit from these.  That is enough exactly for the syscalls that return behind their
own entry.
-/

namespace RrPython

open Foundation Creplayer Replayer

/-! ## Resuming -/

/-- The simulation returns and leaves the tracee with the `rip`, `rsp` and `rax` of `exit`. -/
def ResumesAt (exit : PtRegs) : EStateM.Result ReplayError Tracee Unit → Prop
  | .ok _ t => t.user.regs .rip = exit .rip ∧ t.user.regs .rsp = exit .rsp ∧
      t.user.regs .rax = exit .rax
  | .error _ _ => False

/-- A simulation resumes at `exit` if that is the entry but for the recorded return value. -/
theorem resumesAt_simulate {exit : PtRegs} (R : Record) (w : World) {t : Tracee} {nr : Word}
    (hstop : t.stop = .syscallEntry nr) :
    ResumesAt exit (simulateSystemCallForTracee w (Record.toSystemCall R)
        (PtRegs.toRegisters t.user.regs) t) ↔
      (t.user.regs .rip = exit .rip ∧ t.user.regs .rsp = exit .rsp ∧ R.ret = exit .rax) ∧
        CopiesWritable t.user.mem (R.copiesToUser.map CopyRecord.toMemoryCopy) := by
  by_cases hwritable : CopiesWritable t.user.mem (R.copiesToUser.map CopyRecord.toMemoryCopy)
  · have hother : ∀ {r : Reg}, r ≠ .rax → PtRegs.set t.user.regs .rax R.ret r = t.user.regs r :=
      fun hr => PtRegs.set_other t.user.regs R.ret hr
    rw [simulate_ok hstop (PtRegs.toRegisters t.user.regs) hwritable]
    simp only [ResumesAt, simulatedUser_regs, PtRegs.set_same, hwritable, and_true]
    rw [hother (by decide), hother (by decide)]
  · have hcall : ¬CopiesWritable t.user.mem (Record.toSystemCall R).memoryCopies := hwritable
    obtain ⟨mem, herror⟩ := simulate_error (w := w) hstop (PtRegs.toRegisters t.user.regs) hcall
    rw [herror]
    simp [ResumesAt, hwritable]

/-- In any run: when the exit of a process pushes its record, simulating the record in a tracee that
enters with the same registers resumes where the process resumes exactly if the syscall returns with
the `rip` and `rsp` of its entry and the recorded copies can be written. -/
theorem resumesAt_iff {pid : Int} {taskPtRegs : Pid → PtRegs} {es : List Event} {s s' : Sys} {p : Pid}
    {exit : PtRegs} {R : Record} (hrun : run Sys.step (Sys.init pid taskPtRegs) es = .ok s)
    (hexit : s.step (.exitSyscall p exit) = .ok s') (hpush : s'.appended = s.appended ++ [R])
    (w : World) {t : Tracee} {nr : Word} (hstop : t.stop = .syscallEntry nr)
    (hentry : t.user.regs = (trace p (taskPtRegs p) es).entry) :
    ResumesAt exit (simulateSystemCallForTracee w (Record.toSystemCall R)
        (PtRegs.toRegisters t.user.regs) t) ↔
      exit .rip = (trace p (taskPtRegs p) es).entry .rip ∧
        exit .rsp = (trace p (taskPtRegs p) es).entry .rsp ∧
        CopiesWritable t.user.mem (R.copiesToUser.map CopyRecord.toMemoryCopy) := by
  obtain ⟨_, hret⟩ := Sys.pushed_entry hrun hexit hpush
  rw [resumesAt_simulate R w hstop, ← hentry]
  constructor
  · rintro ⟨⟨hrip, hrsp, _⟩, hwritable⟩
    exact ⟨hrip.symm, hrsp.symm, hwritable⟩
  · rintro ⟨hrip, hrsp, hwritable⟩
    exact ⟨⟨hrip.symm, hrsp.symm, hret⟩, hwritable⟩

/-- A world whose kernel and whose tracee do nothing but exit. -/
def exitingWorld : World where
  attach := .exited
  user := fun _ _ => .exits
  kernel := fun _ _ => .exits

/-- The registers of a `read` whose syscall instruction is at 4096, and with `rip` as given. -/
def readRegs (rip : Word) : PtRegs :=
  PtRegs.set (fun _ => 0) .rip rip

/-- A tracee at the entry of this `read`. -/
def atRead : Tracee where
  stop := .syscallEntry 0
  user := { regs := readRegs 4098, mem := fun _ => none }
  clock := 1
  history := []

/-- Process 1 enters this `read`. -/
def enterRead : List Event :=
  [.enterSyscall 1 (readRegs 4098) (some 16)]

/-- A `read` that returns 0 behind its syscall instruction. -/
theorem resumesAt_iff_read :
    ∃ R : Record, ResumesAt (readRegs 4098) (simulateSystemCallForTracee exitingWorld
      (Record.toSystemCall R) (PtRegs.toRegisters atRead.user.regs) atRead) :=
  ⟨_, (resumesAt_iff (show run Sys.step (Sys.init 1 fun _ _ => 0) enterRead = .ok _ from rfl)
    (show Sys.step _ (.exitSyscall 1 (readRegs 4098)) = .ok _ from rfl) rfl exitingWorld rfl
    rfl).2 ⟨rfl, rfl, by simp [CopiesWritable]⟩⟩

/-- A `read` that a signal interrupts and the kernel restarts returns to its syscall instruction, with
its number in `rax`. -/
theorem not_resumesAt :
    ¬∀ (pid : Int) (taskPtRegs : Pid → PtRegs) (es : List Event) (s s' : Sys) (p : Pid)
      (exit : PtRegs) (R : Record), run Sys.step (Sys.init pid taskPtRegs) es = .ok s →
      s.step (.exitSyscall p exit) = .ok s' → s'.appended = s.appended ++ [R] →
      ∀ (w : World) (t : Tracee) (nr : Word), t.stop = .syscallEntry nr →
        t.user.regs = (trace p (taskPtRegs p) es).entry →
        ResumesAt exit (simulateSystemCallForTracee w (Record.toSystemCall R)
          (PtRegs.toRegisters t.user.regs) t) := by
  intro h
  have hresumes := h 1 (fun _ _ => 0) enterRead _ _ 1 (readRegs 4096) _ rfl rfl rfl exitingWorld
    atRead 0 rfl rfl
  rw [resumesAt_simulate _ exitingWorld rfl] at hresumes
  exact absurd hresumes.1.1 (by decide)

end RrPython
