import RrPython.Pipeline.LoadDump
import RrPython.Replayer.Turn

/-!
# Reexecution — comparing what a syscall returned with what it returns again

The value that a syscall left in `ax` goes through the dump and `unpack_signed_long`; the value that it
leaves when it is run again goes through `PTRACE_GETREGS` and the format `K`.  Both are the same word,
once read as a signed number and once as an unsigned one.
-/

namespace RrPython

open Foundation Creplayer Replayer

/-- The two readings of a word agree where its sign bit is clear. -/
theorem toInt_eq_toNat_iff (w : Word) : w.toInt = w.toNat ↔ w.msb = false := by
  have hlt := w.isLt
  rw [BitVec.msb_eq_false_iff_two_mul_lt, BitVec.toInt_eq_toNat_cond]
  split_ifs <;> omega

theorem loads_dumps {rs : List Record} (hsized : ∀ r ∈ rs, Record.Sized r) :
    Loader.loadSystemCalls (rs.flatMap Record.dump) = .ok (rs.map Record.toSystemCall, []) :=
  Loader.loadSystemCalls_dumps fun r hr =>
    ⟨(hsized r hr).amount_eq, fun c hc => ((hsized r hr).copies c hc).len_eq⟩

/-- A syscall that returns again what it returned when it was recorded is accepted exactly if that
value is no negative number or its number is on the list of those that are not compared. -/
theorem wrapAndRun_accepts_iff (buf : Record → Word) (rs : List Record) (calls : List SystemCall)
    (i : Nat) (r : Record) (call : SystemCall) (w : World) (t : Tracee) (v : UserState)
    (hsized : ∀ r ∈ rs, Record.Sized r)
    (hload : Loader.loadSystemCalls (rs.flatMap fun r => writtenBytes (buf r) r) = .ok (calls, []))
    (hr : rs[i]? = some r) (hcall : calls[i]? = some call)
    (hreal : shouldSimulateSystemCall calls i = .ok false)
    (hstop : t.stop = .syscallEntry t.user.nr) (hnum : call.num = t.user.nr.toNat)
    (hkernel : w.kernel t.clock (t.user.wrapped call) = .returns v) (hsame : v.regs .rax = r.ret) :
    (∃ t', wrapAndRunRealSystemCallInTracee w call (PtRegs.toRegisters t.user.regs) t = .ok () t') ↔
      r.ret.msb = false ∨ call.num ∈ sysCallsToIgnoreInValidation := by
  have hmsb := ((runsForReal_iff hcall).2 hreal).msb hnum
  have hreturnValue : call.returnValue = r.ret.toInt := by
    rw [flatMap_writtenBytes buf hsized, loads_dumps hsized] at hload
    cases hload
    rw [List.getElem?_map, hr] at hcall
    cases hcall
    rfl
  have hrax : PtRegs.toRegisters v.regs .rax = (r.ret.toNat : Int) := by
    rw [← hsame]
    rfl
  rw [wrapAndRun_returns hstop hmsb hkernel, raiseOnUnexpectedReturnValue, hreturnValue, hrax,
    ← toInt_eq_toNat_iff]
  by_cases hraises : r.ret.toInt ≠ r.ret.toNat ∧ call.num ∉ sysCallsToIgnoreInValidation
  · rw [if_pos hraises]
    refine iff_of_false ?_ ?_
    · rintro ⟨_, hok⟩
      cases hok
    · rw [not_or]
      exact hraises
  · rw [if_neg hraises]
    refine iff_of_true ⟨_, rfl⟩ ?_
    rwa [not_and_or, not_not, not_not] at hraises

/-! ## One call that returned `ret` -/

/-- A syscall without arguments. -/
def recordReturning (nr : Word) (ret : Word) : Record where
  userspaceRegs := fun r => if r = .origRax then nr else 0
  ret := ret
  userspaceRegsPtr := 1
  amountOfCopies := 0
  copiesToUser := []

theorem sized_recordReturning {nr ret : Word} : ∀ r ∈ [recordReturning nr ret], Record.Sized r := by
  intro r hr
  obtain rfl := List.mem_singleton.1 hr
  exact ⟨rfl, fun c hc => by cases hc⟩

theorem loadSystemCalls_recordReturning (nr ret : Word) :
    Loader.loadSystemCalls ([recordReturning nr ret].flatMap fun r => writtenBytes 0 r) =
      .ok ([Record.toSystemCall (recordReturning nr ret)], []) := by
  rw [flatMap_writtenBytes (fun _ => 0) sized_recordReturning]
  exact loads_dumps sized_recordReturning

/-- The kernel answers every syscall with `ret`. -/
def answeringWorld (ret : Word) : World where
  attach := .exited
  user := fun _ _ => .exits
  kernel := fun _ u => .returns { u with regs := PtRegs.set u.regs .rax ret }

def enteringCall (nr : Word) : Tracee where
  stop := .syscallEntry nr
  user := { regs := fun r => if r = .origRax then nr else 0, mem := fun _ => none }
  clock := 1
  history := []

/-- A brk. -/
theorem wrapAndRun_accepts_iff_brk :
    ∃ t', wrapAndRunRealSystemCallInTracee (answeringWorld 0x6000)
      (Record.toSystemCall (recordReturning 12 0x6000)) (PtRegs.toRegisters (enteringCall 12).user.regs)
      (enteringCall 12) = .ok () t' :=
  (wrapAndRun_accepts_iff (fun _ => 0) [recordReturning 12 0x6000]
    [Record.toSystemCall (recordReturning 12 0x6000)] 0 (recordReturning 12 0x6000)
    (Record.toSystemCall (recordReturning 12 0x6000)) (answeringWorld 0x6000) (enteringCall 12) _
    sized_recordReturning (loadSystemCalls_recordReturning 12 0x6000) rfl rfl rfl rfl rfl rfl rfl).2
    (Or.inl (by decide))

/-- A munmap that failed with `-EINVAL` and fails so again. -/
theorem not_accepts_munmap :
    ¬∀ (buf : Record → Word) (rs : List Record) (calls : List SystemCall) (i : Nat) (r : Record)
      (call : SystemCall) (w : World) (t : Tracee) (v : UserState), (∀ r ∈ rs, Record.Sized r) →
      Loader.loadSystemCalls (rs.flatMap fun r => writtenBytes (buf r) r) = .ok (calls, []) →
      rs[i]? = some r → calls[i]? = some call → shouldSimulateSystemCall calls i = .ok false →
      t.stop = .syscallEntry t.user.nr → call.num = t.user.nr.toNat →
      w.kernel t.clock (t.user.wrapped call) = .returns v → v.regs .rax = r.ret →
      ∃ t', wrapAndRunRealSystemCallInTracee w call (PtRegs.toRegisters t.user.regs) t = .ok () t' := by
  intro h
  obtain ⟨t', hok⟩ := h (fun _ => 0) [recordReturning 11 (-22)]
    [Record.toSystemCall (recordReturning 11 (-22))] 0 (recordReturning 11 (-22))
    (Record.toSystemCall (recordReturning 11 (-22))) (answeringWorld (-22)) (enteringCall 11) _
    sized_recordReturning (loadSystemCalls_recordReturning 11 (-22)) rfl rfl rfl rfl rfl rfl rfl
  have hmsb : (11 : Word).msb = false := by decide
  have hrun := @wrapAndRun_returns (answeringWorld (-22)) (enteringCall 11)
    (Record.toSystemCall (recordReturning 11 (-22))) _ rfl hmsb _ rfl
  rw [hrun] at hok
  cases hok

end RrPython
