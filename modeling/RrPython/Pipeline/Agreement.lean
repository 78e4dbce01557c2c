import RrPython.Pipeline.LoadDump
import RrPython.Recorder.Delivery
import RrPython.Recorder.Faithful
import RrPython.Replayer.Visits

/-!
# Agreement — whether a recording holds the syscalls that a replay goes through

The recorder leaves out the syscalls that it takes to never return; the replayer matches the syscalls
of the tracee with the recorded ones one by one.  An execve that fails does return, so a tracee that
calls it enters a syscall that is not in the recording.
-/

namespace RrPython

open Foundation Creplayer Replayer

/-! ## What a process performs -/

/-- A syscall that has returned, whether it is recorded or not. -/
structure PerformedSyscall where
  nr : Word
  ret : Word

structure Performance where
  /-- The registers at the last syscall entry. -/
  entry : PtRegs
  done : List PerformedSyscall

namespace Performance

/-- One event of any process, as `p` sees it. -/
def observe (p : Pid) (x : Performance) : Event → Performance
  | .enterSyscall q regs _ => if q = p then { x with entry := regs } else x
  | .exitSyscall q regs =>
      if q = p then { x with done := x.done ++ [{ nr := x.entry .origRax, ret := regs .rax }] } else x
  | _ => x

end Performance

/-- The syscalls that `p` performed in the events `es`. -/
def performed (p : Pid) (regs : PtRegs) (es : List Event) : List PerformedSyscall :=
  (es.foldl (Performance.observe p) { entry := regs, done := [] }).done

def TracedSyscall.performed (s : TracedSyscall) : PerformedSyscall where
  nr := s.regs .origRax
  ret := s.ret

/-- What the recorder does not leave out. -/
def PerformedSyscall.isRecorded (x : PerformedSyscall) : Bool :=
  !decide (Kernel.neverReturns x.nr)

/-- The log and the performance of one process. -/
structure SameProcess (t : Trace) (x : Performance) : Prop where
  entry : t.entry = x.entry
  log : t.log.map TracedSyscall.performed = x.done.filter PerformedSyscall.isRecorded

theorem Performance.observe_other {p : Pid} (x : Performance) {e : Event}
    (henter : ∀ regs a, e ≠ .enterSyscall p regs a) (hexit : ∀ regs, e ≠ .exitSyscall p regs) :
    x.observe p e = x := by
  cases e with
  | enterSyscall q regs a =>
      exact if_neg fun hq => henter regs a (by rw [hq])
  | exitSyscall q regs =>
      exact if_neg fun hq => hexit regs (by rw [hq])
  | _ =>
      rfl

theorem SameProcess.exitSyscall {p : Pid} {t : Trace} {x : Performance} (h : SameProcess t x)
    (regs : PtRegs) :
    SameProcess (t.observe p (.exitSyscall p regs)) (x.observe p (.exitSyscall p regs)) := by
  simp only [Trace.observe, Event.process, Performance.observe, if_true, Trace.advance, Trace.exitSyscall]
  by_cases hnever : Kernel.neverReturns (t.entry .origRax)
  · rw [if_pos hnever]
    rw [h.entry] at hnever
    refine ⟨h.entry, ?_⟩
    simp [h.log, PerformedSyscall.isRecorded, hnever]
  · rw [if_neg hnever]
    rw [h.entry] at hnever
    refine ⟨h.entry, ?_⟩
    simp [h.log, h.entry, PerformedSyscall.isRecorded, TracedSyscall.performed, hnever]

theorem SameProcess.observe {t : Trace} {x : Performance} (h : SameProcess t x) (p : Pid) (e : Event) :
    SameProcess (t.observe p e) (x.observe p e) := by
  by_cases henter : ∃ regs a, e = .enterSyscall p regs a
  · obtain ⟨regs, a, rfl⟩ := henter
    simp only [Trace.observe, Event.process, Performance.observe, if_true]
    exact ⟨rfl, h.log⟩
  · by_cases hexit : ∃ regs, e = .exitSyscall p regs
    · obtain ⟨regs, rfl⟩ := hexit
      exact h.exitSyscall regs
    · have henter' : ∀ regs a, e ≠ .enterSyscall p regs a := fun regs a he => henter ⟨regs, a, he⟩
      have hexit' : ∀ regs, e ≠ .exitSyscall p regs := fun regs he => hexit ⟨regs, he⟩
      rw [Performance.observe_other x henter' hexit']
      exact ⟨(Sys.observe_entry t henter').trans h.entry,
        (congrArg (List.map _) (Sys.observe_log t hexit')).trans h.log⟩

/-- The log of a process is what it performed, less what the recorder leaves out. -/
theorem log_eq_performed (p : Pid) (regs : PtRegs) (es : List Event) :
    (trace p regs es).log.map TracedSyscall.performed =
      (performed p regs es).filter PerformedSyscall.isRecorded := by
  have hall : ∀ (es : List Event) {t : Trace} {x : Performance}, SameProcess t x →
      SameProcess (es.foldl (Trace.observe p) t) (es.foldl (Performance.observe p) x) := by
    intro es
    induction es with
    | nil =>
        exact fun h => h
    | cons e es ih =>
        exact fun h => ih (h.observe p e)
  exact (hall es ⟨rfl, rfl⟩).log

/-- Before the first element that a filter drops, filtering changes nothing. -/
theorem getElem?_filter_of_forall {α : Type} {P : α → Bool} {xs : List α} :
    ∀ {k : Nat}, (∀ j x, j < k → xs[j]? = some x → P x = true) →
      ∀ {j : Nat}, j < k → (xs.filter P)[j]? = xs[j]? := by
  induction xs with
  | nil =>
      intro k _ j _
      rfl
  | cons x xs ih =>
      intro k h j hj
      rw [List.filter_cons_of_pos (h 0 x (by omega) rfl)]
      cases j with
      | zero =>
          rfl
      | succ j =>
          have hrest : ∀ j y, j < k - 1 → xs[j]? = some y → P y = true :=
            fun j y hj hy => h (j + 1) y (by omega) hy
          exact ih hrest (by omega)

/-! ## What a replay goes through -/

/-- The numbers of the syscalls `done`, and then that of `exit_group`. -/
def numbers (done : List PerformedSyscall) : List Int :=
  done.map (fun x => (x.nr.toNat : Int)) ++ [exitGroupSysCall]

/-- The calls that are run for real return what they returned in the recording. -/
def ReturnsAsRecorded (w : World) (calls : List SystemCall) (history : List TraceeEvent) : Prop :=
  ∀ (i : Nat) (call : SystemCall) (u : UserState), calls[i]? = some call →
    (entries history)[i]? = some u → RunsForReal calls i call →
      ∃ v, w.kernel (2 * i + 1) (u.wrapped call) = .returns v ∧
        v.regs .rax = BitVec.ofInt 64 call.returnValue

/-- No replay of `calls` raises `UnexpectedSysCallException` whose tracee goes through `done` and is
delivered no `SIGTRAP`. -/
def NeverUnexpected (calls : List SystemCall) (done : List PerformedSyscall) : Prop :=
  ∀ (self : Replayer) (w : World) (before : UserState), self.systemCalls = calls →
    SigtrapFree self w before →
    enteredNumbers (endState (self.startReplaying w (Tracee.init before))).history <+: numbers done →
    ReturnsAsRecorded w calls (endState (self.startReplaying w (Tracee.init before))).history →
      ∀ message t, self.startReplaying w (Tracee.init before) ≠ .error (.unexpectedSysCall message) t

/-- The syscall at `k` is the first execve.  The replay gets there, as no call before it fails the
comparison of return values, and has a name for the number that it expects there. -/
structure MeetsExecve (calls : List SystemCall) (done : List PerformedSyscall) (k : Nat) : Prop where
  execve : ∃ x, done[k]? = some x ∧ x.nr = Kernel.nrExecve
  first : ∀ j x, j < k → done[j]? = some x → x.nr ≠ Kernel.nrExecve
  passes : ∀ i call, i < k → calls[i]? = some call → RunsForReal calls i call →
    0 ≤ call.returnValue ∨ call.num ∈ sysCallsToIgnoreInValidation
  named : (sysCallNames.lookup (expectedNum calls k)).isSome

/-- `calls` is what a recording of `done` loads as. -/
structure RecordingOf (calls : List SystemCall) (done : List PerformedSyscall) : Prop where
  numbers : calls.map SystemCall.num =
    (done.filter PerformedSyscall.isRecorded).map fun x => (x.nr.toNat : Int)
  values : ∀ call ∈ calls, ∃ ret : Word, call.returnValue = ret.toInt
  returning : ∀ x ∈ done, x.nr ≠ Kernel.nrExit ∧ x.nr ≠ Kernel.nrExitGroup

section Agreement

variable {calls : List SystemCall} {done : List PerformedSyscall} {k : Nat}

theorem RecordingOf.isRecorded_iff (h : RecordingOf calls done) {x : PerformedSyscall} (hx : x ∈ done) :
    x.isRecorded = true ↔ x.nr ≠ Kernel.nrExecve := by
  obtain ⟨hexit, hgroup⟩ := h.returning x hx
  simp [PerformedSyscall.isRecorded, Kernel.neverReturns, hexit, hgroup]

/-- Before the first execve the recording and the process go together. -/
theorem RecordingOf.agrees (h : RecordingOf calls done)
    (hfirst : ∀ j x, j < k → done[j]? = some x → x.nr ≠ Kernel.nrExecve) {j : Nat} (hj : j < k) :
    calls[j]?.map SystemCall.num = done[j]?.map fun x => (x.nr.toNat : Int) := by
  have hkept : ∀ j x, j < k → done[j]? = some x → x.isRecorded = true := fun j x hj hx =>
    (h.isRecorded_iff (List.mem_of_getElem? hx)).2 (hfirst j x hj hx)
  rw [← List.getElem?_map, h.numbers, List.getElem?_map, getElem?_filter_of_forall hkept hj]

theorem RecordingOf.no_execve (h : RecordingOf calls done) {call : SystemCall} (hcall : call ∈ calls) :
    call.num ≠ Kernel.nrExecve.toNat := by
  have hnum : call.num ∈ calls.map SystemCall.num := List.mem_map_of_mem hcall
  rw [h.numbers, List.mem_map] at hnum
  obtain ⟨x, hx, hnr⟩ := hnum
  obtain ⟨hdone, hkept⟩ := List.mem_filter.1 hx
  intro heq
  refine (h.isRecorded_iff hdone).1 hkept (BitVec.eq_of_toNat_eq ?_)
  rw [heq] at hnr
  exact_mod_cast hnr

/-- Up to the first execve the replay expects what the process performed, and `exit_group` at its end. -/
theorem RecordingOf.expectedNum_eq (h : RecordingOf calls done)
    (hfirst : ∀ j x, j < k → done[j]? = some x → x.nr ≠ Kernel.nrExecve) {j : Nat} (hj : j < k) {n : Int}
    (hn : (RrPython.numbers done)[j]? = some n) : expectedNum calls j = n := by
  have hagrees := h.agrees hfirst hj
  cases hx : done[j]? with
  | some x =>
      have hlt := (List.getElem?_eq_some_iff.1 hx).1
      rw [RrPython.numbers, List.getElem?_append_left (by simpa using hlt), List.getElem?_map, hx] at hn
      rw [hx] at hagrees
      obtain ⟨call, hcall, hnum⟩ := Option.map_eq_some_iff.1 hagrees
      rw [expectedNum, hcall]
      exact hnum.trans (Option.some.inj hn)
  | none =>
      have hge := List.getElem?_eq_none_iff.1 hx
      rw [RrPython.numbers, List.getElem?_append_right (by simpa using hge)] at hn
      rw [hx, Option.map_none, Option.map_eq_none_iff] at hagrees
      have hmem := List.mem_of_getElem? hn
      rw [expectedNum, hagrees]
      exact (List.mem_singleton.1 hmem).symm

/-- The least number with a property, below one that has it. -/
theorem exists_first {P : Nat → Prop} {i : Nat} (h : P i) : ∃ k ≤ i, P k ∧ ∀ j < k, ¬P j := by
  classical
  exact ⟨Nat.find ⟨i, h⟩, Nat.find_min' ⟨i, h⟩ h, Nat.find_spec ⟨i, h⟩, fun j hj => Nat.find_min ⟨i, h⟩ hj⟩

theorem named_of_unexpectedSysCall {expected received : Int} {message : String}
    (h : unexpectedSysCallException expected received = .unexpectedSysCall message) :
    (sysCallNames.lookup expected).isSome := by
  unfold unexpectedSysCallException at h
  cases hname : sysCallNames.lookup expected with
  | none =>
      rw [hname] at h
      cases h
  | some name =>
      rfl

/-- Each visit that a replay made before `i` entered with the number performed there, and made the
comparison of return values. -/
theorem Taken.passes {w : World} {start : UserState} {xs : List Visit} (h : Taken calls w start xs)
    {i : Nat} {call : SystemCall} (hi : i < xs.length) (hcall : calls[i]? = some call)
    (hreal : RunsForReal calls i call) :
    0 ≤ call.returnValue ∨ call.num ∈ sysCallsToIgnoreInValidation := by
  obtain ⟨call', henter, heffect⟩ := h.visit (List.getElem?_eq_getElem hi)
  have hcall' := henter.recorded
  rw [List.length_take_of_le hi.le, hcall] at hcall'
  cases hcall'
  generalize xs[i].exit = v at heffect
  cases heffect with
  | simulated hsimulated _ =>
      exact absurd hreal hsimulated
  | real _ _ hvalid =>
      refine hvalid.imp ?_ id
      intro hvalue
      omega

/-- An unexpected syscall is an execve. -/
theorem RecordingOf.meetsExecve (h : RecordingOf calls done) {w : World} {start : UserState}
    {history : List TraceeEvent} (htaken : Taken calls w start (visits history)) {u : UserState}
    (hentries : entries history = (visits history).map Visit.entry ++ [u])
    (hbegins : enteredNumbers history <+: RrPython.numbers done)
    (hnum : expectedNum calls (visits history).length ≠ u.nr.toNat)
    (hnamed : (sysCallNames.lookup (expectedNum calls (visits history).length)).isSome) :
    MeetsExecve calls done (visits history).length := by
  have hentered : ∀ {j : Nat} {v : UserState}, (entries history)[j]? = some v →
      (RrPython.numbers done)[j]? = some (v.nr.toNat : Int) := by
    intro j v hv
    have hnumber : (enteredNumbers history)[j]? = some (v.nr.toNat : Int) := by
      rw [enteredNumbers, List.getElem?_map, hv]
      rfl
    obtain ⟨rest, hrest⟩ := hbegins
    rw [← hrest, List.getElem?_append_left (List.getElem?_eq_some_iff.1 hnumber).1, hnumber]
  have hlast : (entries history)[(visits history).length]? = some u := by
    rw [hentries, List.getElem?_append_right (by simp)]
    simp
  -- somewhere up to here there is an execve, or the number would be the expected one
  obtain ⟨i, hi, hexecve⟩ : ∃ i ≤ (visits history).length, ∃ x, done[i]? = some x ∧
      x.nr = Kernel.nrExecve := by
    by_contra hnone
    refine hnum (h.expectedNum_eq (k := (visits history).length + 1) ?_ (by omega) (hentered hlast))
    intro j x hj hx heq
    exact hnone ⟨j, by omega, x, hx, heq⟩
  obtain ⟨k, hk, ⟨x, hx, hnr⟩, hmin⟩ :=
    exists_first (P := fun i => ∃ x, done[i]? = some x ∧ x.nr = Kernel.nrExecve) hexecve
  have hfirst : ∀ j y, j < k → done[j]? = some y → y.nr ≠ Kernel.nrExecve :=
    fun j y hj hy heq => hmin j hj ⟨y, hy, heq⟩
  rcases Nat.lt_or_eq_of_le (hk.trans hi) with hlt | rfl
  · -- no visit can have been that of an execve
    exfalso
    obtain ⟨call, henter, _⟩ := htaken.visit (List.getElem?_eq_getElem hlt)
    have hentry : (entries history)[k]? = some (visits history)[k].entry := by
      rw [hentries, List.getElem?_append_left (by simpa using hlt), List.getElem?_map,
        List.getElem?_eq_getElem hlt]
      rfl
    have hdone : (RrPython.numbers done)[k]? = some (x.nr.toNat : Int) := by
      have hxlt := (List.getElem?_eq_some_iff.1 hx).1
      rw [RrPython.numbers, List.getElem?_append_left (by simpa using hxlt), List.getElem?_map, hx]
      rfl
    have hsame := (hentered hentry).symm.trans hdone
    have hrecorded := henter.num
    rw [Option.some.inj hsame, hnr] at hrecorded
    exact h.no_execve (List.mem_of_getElem? henter.recorded) hrecorded
  · exact ⟨⟨x, hx, hnr⟩, hfirst, fun i call hi hcall hreal => htaken.passes hi hcall hreal, hnamed⟩

theorem RecordingOf.neverUnexpected (h : RecordingOf calls done)
    (hnone : ¬∃ k, MeetsExecve calls done k) : NeverUnexpected calls done := by
  rintro self w before rfl hfree hbegins _ message t hresult
  rw [hresult] at hbegins
  obtain ⟨htaken, hfailure⟩ := (startReplaying_visits hfree).of_error hresult
  generalize he : ReplayError.unexpectedSysCall message = e at hfailure
  cases hfailure with
  | unexpected huser hnum hentries =>
      exact hnone ⟨_, h.meetsExecve htaken hentries hbegins hnum (named_of_unexpectedSysCall he.symm)⟩
  | stdout hcallback hkind =>
      rw [← he] at hkind
      rcases hkind with hkind | hkind
      · exact hkind
      · cases hkind
  | _ =>
      cases he

/-! ## A tracee that gets to the execve -/

/-- The syscall that comes after `i` others. -/
def nrAt (done : List PerformedSyscall) (i : Nat) : Word :=
  match done[i]? with
  | some x => x.nr
  | none => Kernel.nrExitGroup

/-- What the recorded call at `i` returned. -/
def valueOf (calls : List SystemCall) (i : Nat) : Int :=
  match calls[i]? with
  | some call => call.returnValue
  | none => 0

/-- All memory is mapped. -/
def roomyMem : ByteMemory := fun _ => some 0

/-- The tracee performs `done`, and the kernel answers as recorded. -/
def recordedWorld (calls : List SystemCall) (done : List PerformedSyscall) : World where
  attach := .stopped { regs := fun _ => 0, mem := roomyMem }
  user := fun n u => .syscall { regs := PtRegs.set u.regs .origRax (nrAt done (n / 2)), mem := roomyMem }
  kernel := fun n u =>
    .returns { u with regs := PtRegs.set u.regs .rax (BitVec.ofInt 64 (valueOf calls (n / 2))) }

theorem noSigtrap_recordedWorld (calls : List SystemCall) (done : List PerformedSyscall) :
    (recordedWorld calls done).NoSigtrap :=
  fun _ _ _ heq => UserOutcome.noConfusion heq

/-- The replayer of `calls`, without a callback. -/
def silentReplayer (calls : List SystemCall) : Replayer where
  systemCalls := calls
  stdoutCallback := none

theorem entry_recordedWorld {i : Nat} {v u : UserState}
    (h : (recordedWorld calls done).user (2 * i) v = .syscall u) :
    u.nr = nrAt done i ∧ u.mem = roomyMem := by
  simp only [recordedWorld, UserOutcome.syscall.injEq] at h
  subst h
  refine ⟨?_, rfl⟩
  show PtRegs.set v.regs .origRax (nrAt done (2 * i / 2)) .origRax = _
  rw [PtRegs.set_same, Nat.mul_div_cancel_left i (by omega)]

theorem kernel_recordedWorld {i : Nat} {call : SystemCall} (hcall : calls[i]? = some call) {u v : UserState}
    (h : (recordedWorld calls done).kernel (2 * i + 1) u = .returns v) :
    v.regs .rax = BitVec.ofInt 64 call.returnValue := by
  have hi : (2 * i + 1) / 2 = i := by omega
  simp only [recordedWorld, KernelOutcome.returns.injEq] at h
  subst h
  show PtRegs.set u.regs .rax (BitVec.ofInt 64 (valueOf calls ((2 * i + 1) / 2))) .rax = _
  rw [PtRegs.set_same, hi, valueOf, hcall]

theorem returnsAsRecorded_recordedWorld (history : List TraceeEvent) :
    ReturnsAsRecorded (recordedWorld calls done) calls history := by
  intro i call u hcall _ _
  have hkernel : (recordedWorld calls done).kernel (2 * i + 1) (u.wrapped call) = .returns _ := rfl
  exact ⟨_, hkernel, kernel_recordedWorld hcall hkernel⟩

theorem copiesWritable_roomyMem (copies : List MemoryCopy) : CopiesWritable roomyMem copies := by
  intro c _ i _
  rfl

theorem MeetsExecve.nrAt_eq (h : MeetsExecve calls done k) : nrAt done k = Kernel.nrExecve := by
  obtain ⟨x, hx, hnr⟩ := h.execve
  rw [nrAt, hx]
  exact hnr

/-- Before the execve each number that comes in is the expected one. -/
theorem MeetsExecve.expectedNum_eq (h : MeetsExecve calls done k) (hof : RecordingOf calls done) {i : Nat}
    (hi : i < k) : expectedNum calls i = (nrAt done i).toNat := by
  obtain ⟨x, hx, _⟩ := h.execve
  have hlt := (List.getElem?_eq_some_iff.1 hx).1
  have hnumber : (RrPython.numbers done)[i]? = some ((nrAt done i).toNat : Int) := by
    have hget : done[i]? = some done[i] := List.getElem?_eq_getElem (by omega)
    rw [RrPython.numbers, List.getElem?_append_left (by simp; omega), List.getElem?_map, nrAt, hget]
    rfl
  exact hof.expectedNum_eq h.first hi hnumber

/-- The execve is no recorded call. -/
theorem MeetsExecve.not_entering (h : MeetsExecve calls done k) (hof : RecordingOf calls done)
    {start : UserState} {xs : List Visit} {call : SystemCall} {u : UserState}
    (henter : Entering calls (recordedWorld calls done) start xs call u) : xs.length ≠ k := by
  intro hlen
  have hnum := henter.num
  rw [(entry_recordedWorld henter.user).1, hlen, h.nrAt_eq] at hnum
  exact hof.no_execve (List.mem_of_getElem? henter.recorded) hnum

theorem MeetsExecve.length_le (h : MeetsExecve calls done k) (hof : RecordingOf calls done)
    {start : UserState} {xs : List Visit} (htaken : Taken calls (recordedWorld calls done) start xs) :
    xs.length ≤ k := by
  by_contra hgt
  obtain ⟨call, henter, _⟩ := htaken.visit (List.getElem?_eq_getElem (show k < xs.length by omega))
  exact h.not_entering hof henter (List.length_take_of_le (by omega))

/-- What comes before the execve has been recorded. -/
theorem MeetsExecve.le_length (h : MeetsExecve calls done k) (hof : RecordingOf calls done) :
    k ≤ calls.length := by
  by_contra hlt
  obtain ⟨x, hx, _⟩ := h.execve
  have hshort : calls.length < done.length := by
    have hklt := (List.getElem?_eq_some_iff.1 hx).1
    omega
  -- a syscall before it without a record would be an execve itself
  have hagrees := hof.agrees h.first (show calls.length < k by omega)
  rw [List.getElem?_eq_none le_rfl, List.getElem?_eq_getElem hshort] at hagrees
  cases hagrees

/-- The tracee has entered what was performed up to the execve. -/
theorem MeetsExecve.enteredNumbers_prefix (h : MeetsExecve calls done k) {start : UserState}
    {history : List TraceeEvent} (htaken : Taken calls (recordedWorld calls done) start (visits history))
    (hlen : (visits history).length = k) {u : UserState} (hnr : u.nr = Kernel.nrExecve)
    (hentries : entries history = (visits history).map Visit.entry ++ [u]) :
    enteredNumbers history <+: RrPython.numbers done := by
  obtain ⟨x, hx, hxnr⟩ := h.execve
  have hlt := (List.getElem?_eq_some_iff.1 hx).1
  -- the visits entered the first `k` numbers, and `u` the execve
  suffices henters : enteredNumbers history = (RrPython.numbers done).take (k + 1) by
    rw [henters]
    exact List.take_prefix _ _
  rw [RrPython.numbers, List.take_append_of_le_length (by simp; omega), List.take_add_one,
    List.getElem?_map, hx, enteredNumbers, hentries, List.map_append, List.map_map]
  congr 1
  · refine List.ext_getElem (by simp [hlen]; omega) fun i hi hi' => ?_
    rw [List.length_map] at hi
    obtain ⟨call, henter, _⟩ := htaken.visit (List.getElem?_eq_getElem hi)
    have huser := henter.user
    rw [List.length_take_of_le hi.le] at huser
    have hget : done[i]? = some done[i] := List.getElem?_eq_getElem (by omega)
    have hnrAt : nrAt done i = done[i].nr := by
      rw [nrAt, hget]
    simp only [List.getElem_map, Function.comp_apply, List.getElem_take]
    rw [(entry_recordedWorld huser).1, hnrAt]
  · rw [List.map_singleton, hnr]
    simp [hxnr]

/-- Of the reasons to give up only an unexpected syscall is left, and that is the execve. -/
theorem MeetsExecve.gives_up (h : MeetsExecve calls done k) (hof : RecordingOf calls done)
    {start : UserState} {history : List TraceeEvent} {e : ReplayError}
    (htaken : Taken calls (recordedWorld calls done) start (visits history))
    (hfailure : Failure (silentReplayer calls) (recordedWorld calls done) start history e) :
    (∃ message, e = .unexpectedSysCall message) ∧ enteredNumbers history <+: RrPython.numbers done := by
  have hle := h.length_le hof htaken
  cases hfailure with
  | notAttached message hattach =>
      exact absurd rfl (hattach _)
  | noEntry message huser =>
      exact absurd rfl (huser _)
  | stdout hcallback _ =>
      exact absurd rfl hcallback
  | @unwritable call u henter hunwritable =>
      rw [(entry_recordedWorld henter.user).2] at hunwritable
      exact absurd (copiesWritable_roomyMem _) hunwritable
  | exits _ _ hkernel =>
      cases hkernel
  | @otherValue call u v henter hreal hkernel hvalue hnum =>
      -- only a negative value is not what comes back, and none such comes before the execve
      exfalso
      have hcall : calls[(visits history).length]? = some call := henter.recorded
      have hlt : (visits history).length < k := lt_of_le_of_ne hle (h.not_entering hof henter)
      rcases h.passes _ call hlt hcall hreal with hpositive | hignored
      · obtain ⟨ret, hret⟩ := hof.values call (List.mem_of_getElem? hcall)
        have hrax := kernel_recordedWorld hcall hkernel
        rw [hret, BitVec.ofInt_toInt] at hrax
        rw [hret, BitVec.toInt_eq_toNat_cond] at hpositive
        rw [hret, hrax, BitVec.toInt_eq_toNat_cond] at hvalue
        omega
      · exact hnum hignored
  | @unexpected u huser hnum hentries =>
      have hnr := (entry_recordedWorld huser).1
      have hlen : (visits history).length = k := by
        rcases Nat.lt_or_eq_of_le hle with hlt | heq
        · rw [hnr] at hnum
          exact absurd (h.expectedNum_eq hof hlt) hnum
        · exact heq
      rw [hlen, h.nrAt_eq] at hnr
      refine ⟨?_, h.enteredNumbers_prefix htaken hlen ?_ hentries⟩
      · obtain ⟨name, hname⟩ := Option.isSome_iff_exists.1 h.named
        have hexecve : sysCallNames.lookup ((Kernel.nrExecve.toNat : Nat) : Int) = some "execve" := by
          decide
        show ∃ message, unexpectedSysCallException (expectedNum calls (visits history).length) u.nr.toNat =
          .unexpectedSysCall message
        rw [hlen, hnr, unexpectedSysCallException, hname, hexecve]
        exact ⟨_, rfl⟩
      · exact hnr

theorem MeetsExecve.not_neverUnexpected (h : MeetsExecve calls done k) (hof : RecordingOf calls done) :
    ¬NeverUnexpected calls done := by
  intro hnever
  have hfree := (noSigtrap_recordedWorld calls done).sigtrapFree (silentReplayer calls)
    { regs := fun _ => 0, mem := roomyMem }
  have hends := startReplaying_visits hfree
  have hreplay := hnever (silentReplayer calls) (recordedWorld calls done)
    { regs := fun _ => 0, mem := roomyMem } rfl hfree
  cases hresult : (silentReplayer calls).startReplaying (recordedWorld calls done)
    (Tracee.init { regs := fun _ => 0, mem := roomyMem }) with
  | ok status t =>
      -- a replay that returns has gone through all calls, and found `exit_group` behind them
      have hthrough := hends.of_ok hresult
      have hle := h.length_le hof hthrough.taken
      obtain ⟨u, huser, hexit⟩ := hthrough.exit
      have hlen : calls.length = k := le_antisymm (hthrough.length ▸ hle) (h.le_length hof)
      have hnr := (entry_recordedWorld huser).1
      rw [show (silentReplayer calls).systemCalls.length = k from hlen, h.nrAt_eq] at hnr
      rw [hnr] at hexit
      exact absurd hexit (by decide)
  | error e t =>
      rw [hresult] at hreplay
      obtain ⟨htaken, hfailure⟩ := hends.of_error hresult
      obtain ⟨⟨message, rfl⟩, hbegins⟩ := h.gives_up hof htaken hfailure
      exact hreplay hbegins (returnsAsRecorded_recordedWorld _) message t rfl

theorem RecordingOf.neverUnexpected_iff (h : RecordingOf calls done) :
    NeverUnexpected calls done ↔ ¬∃ k, MeetsExecve calls done k :=
  ⟨fun hnever ⟨_, hk⟩ => hk.not_neverUnexpected h hnever, h.neverUnexpected⟩

end Agreement

/-! ## Recording and replaying -/

namespace Sys

variable {p : Pid} {taskPtRegs : Pid → PtRegs} {es : List Event} {s : Sys}

/-- The dump of an undisturbed recording loads as a recording of what `p` performed. -/
theorem loads_performed (hp : p ≠ 0) (hrun : run step (init p taskPtRegs) es = .ok s)
    (hquiet : AllSteps step (Undisturbed p) (init p taskPtRegs) es)
    (hdelivered : s.delivered = dumps s.appended)
    (hreturning : ∀ x ∈ performed p (taskPtRegs p) es,
      x.nr ≠ Kernel.nrExit ∧ x.nr ≠ Kernel.nrExitGroup) :
    ∃ calls, Loader.loadSystemCalls s.delivered = .ok (calls, []) ∧
      RecordingOf calls (performed p (taskPtRegs p) es) := by
  -- the records are those of the log of `p`, which is what it performed less what is left out
  have hfollows := follows_run hp hrun hquiet
  refine ⟨s.appended.map Record.toSystemCall, ?_, ?_, ?_, hreturning⟩
  · rw [hdelivered]
    exact Loader.loadSystemCalls_dumps fun R hR =>
      ⟨(appended_sized hrun R hR).amount_eq,
        fun c hc => ((appended_sized hrun R hR).copies c hc).len_eq⟩
  · rw [← log_eq_performed, hfollows.appended, List.map_map, List.map_map, List.map_map]
    rfl
  · intro call hcall
    obtain ⟨R, _, rfl⟩ := List.mem_map.1 hcall
    exact ⟨R.ret, rfl⟩

/-- The recording of an undisturbed process loads, and no replay of it with a tracee that performs the
same syscalls meets an unexpected one, exactly if no replay gets to an execve that returned. -/
theorem neverUnexpected_iff_meetsNoExecve (hp : p ≠ 0)
    (hrun : run step (init p taskPtRegs) es = .ok s)
    (hquiet : AllSteps step (Undisturbed p) (init p taskPtRegs) es)
    (hdelivered : s.delivered = dumps s.appended)
    (hreturning : ∀ x ∈ performed p (taskPtRegs p) es,
      x.nr ≠ Kernel.nrExit ∧ x.nr ≠ Kernel.nrExitGroup) :
    ∃ calls, Loader.loadSystemCalls s.delivered = .ok (calls, []) ∧
      (NeverUnexpected calls (performed p (taskPtRegs p) es) ↔
        ¬∃ k, MeetsExecve calls (performed p (taskPtRegs p) es) k) := by
  obtain ⟨calls, hloads, hof⟩ := loads_performed hp hrun hquiet hdelivered hreturning
  exact ⟨calls, hloads, hof.neverUnexpected_iff⟩

set_option maxRecDepth 20000 in
/-- Process 1 calls read, and its record is read out. -/
theorem neverUnexpected_iff_meetsNoExecve_oneRecord :
    ∃ s calls, run step (init 1 fun _ _ => 0) oneRecord = .ok s ∧
      Loader.loadSystemCalls s.delivered = .ok (calls, []) ∧
        NeverUnexpected calls (performed 1 (fun _ => 0) oneRecord) := by
  obtain ⟨s, hrun, hdelivered⟩ : ∃ s, run step (init 1 fun _ _ => 0) oneRecord = .ok s ∧
      s.delivered = dumps s.appended := by
    refine ⟨_, rfl, ?_⟩
    rfl
  have hquiet : AllSteps step (Undisturbed 1) (init 1 fun _ _ => 0) oneRecord := by
    refine ⟨fun _ => rfl, fun s₁ h₁ => ⟨fun _ => ?_, fun s₂ h₂ => ⟨trivial, fun _ _ => trivial⟩⟩⟩
    cases h₁
    decide
  have hread : ∀ x ∈ performed 1 (fun _ => 0) oneRecord, x.nr = 0 := by
    intro x hx
    obtain rfl := List.mem_singleton.1 hx
    rfl
  obtain ⟨calls, hloads, hiff⟩ := neverUnexpected_iff_meetsNoExecve (by decide) hrun hquiet hdelivered
    fun x hx => by rw [hread x hx]; decide
  refine ⟨s, calls, hrun, hloads, hiff.2 ?_⟩
  rintro ⟨k, hk⟩
  obtain ⟨x, hx, hnr⟩ := hk.execve
  rw [hread x (List.mem_of_getElem? hx)] at hnr
  exact absurd hnr (by decide)

/-- Process 1 calls execve, which fails with `-ENOENT`, and then `exit_group`. -/
def failedExecve : List Event :=
  [.enterSyscall 1 (PtRegs.set (fun _ => 0) .origRax 59) (some 16),
    .exitSyscall 1 (PtRegs.set (fun _ => 0) .rax (-2)),
    .enterSyscall 1 (PtRegs.set (fun _ => 0) .origRax 231) (some 16)]

/-- Nothing of it is recorded, and nothing is lost, but the replay expects `exit_group` where the tracee
calls execve. -/
theorem not_neverUnexpected_failedExecve :
    ∃ s, run step (init 1 fun _ _ => 0) failedExecve = .ok s ∧
      AllSteps step (Undisturbed 1) (init 1 fun _ _ => 0) failedExecve ∧
        s.delivered = dumps s.appended ∧ Loader.loadSystemCalls s.delivered = .ok ([], []) ∧
          ¬NeverUnexpected [] (performed 1 (fun _ => 0) failedExecve) := by
  refine ⟨_, rfl, ?_, rfl, rfl, ?_⟩
  · refine ⟨fun _ => rfl, fun s₁ h₁ => ⟨fun _ => ?_, fun s₂ h₂ => ⟨fun _ => rfl, fun _ _ => trivial⟩⟩⟩
    cases h₁
    decide
  · have hmeets : MeetsExecve [] (performed 1 (fun _ => 0) failedExecve) 0 := by
      refine ⟨⟨_, rfl, rfl⟩, ?_, ?_, by decide⟩
      · intro j x hj
        omega
      · intro i call hi
        omega
    refine hmeets.not_neverUnexpected ⟨rfl, ?_, ?_⟩
    · intro call hcall
      cases hcall
    · intro x hx
      obtain rfl := List.mem_singleton.1 hx
      decide

end Sys

end RrPython
