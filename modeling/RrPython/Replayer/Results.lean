import RrPython.Replayer.Visits

/-!
# Results — when a replay that returns has given every syscall its recorded result

A simulated call leaves the recorded value in `rax`.  A call that is run for real leaves what the
kernel answers, which is compared with the recorded value, except for the numbers on a list.  Of the
numbers on that list mmap and mprotect are run for real.
-/

namespace RrPython

open Foundation Creplayer Replayer

/-- Every recorded call has left the tracee with its recorded return value, except those that open or
close a descriptor. -/
def KeepsResults (calls : List SystemCall) (history : List TraceeEvent) : Prop :=
  ∀ (i : Nat) (call : SystemCall), calls[i]? = some call → call.num ∉ [openSysCall, openatSysCall, closeSysCall] →
    ∃ x : Visit, (visits history)[i]? = some x ∧ x.exit.regs .rax = BitVec.ofInt 64 call.returnValue

/-- The kernel answers each mmap and each mprotect with the recorded value. -/
def AnswersMapsAsRecorded (w : World) (calls : List SystemCall) (history : List TraceeEvent) : Prop :=
  ∀ (i : Nat) (call : SystemCall) (x : Visit), calls[i]? = some call → (visits history)[i]? = some x →
    call.num = mmapSysCall ∨ call.num = mprotectSysCall →
      ∀ v, w.kernel (2 * i + 1) (x.entry.wrapped call) = .returns v →
        v.regs .rax = BitVec.ofInt 64 call.returnValue

variable {calls : List SystemCall} {w : World} {i : Nat} {call : SystemCall}

theorem runsForReal_of_map (hnum : call.num = mmapSysCall ∨ call.num = mprotectSysCall) :
    RunsForReal calls i call := by
  refine Or.inl ?_
  rcases hnum with hnum | hnum <;> rw [hnum] <;> decide

/-- Of the calls that are run for real without a look at what they return, only mmap and mprotect deal
with no descriptor of their own. -/
theorem RunsForReal.map_of_ignored (h : RunsForReal calls i call)
    (hfd : call.num ∉ [openSysCall, openatSysCall, closeSysCall])
    (hignored : call.num ∈ sysCallsToIgnoreInValidation) :
    call.num = mmapSysCall ∨ call.num = mprotectSysCall := by
  simp only [List.mem_cons, List.not_mem_nil, or_false, not_or] at hfd
  rcases h with h | ⟨h | h, _⟩ | ⟨h, _⟩
  · simp only [ShouldSimulate.sysCallsNotToSimulate, List.mem_cons, List.not_mem_nil, or_false] at h
    -- the four, of which brk and munmap are compared
    rcases h with h | h | h | h
    · exact Or.inl h
    · exact Or.inr h
    · rw [h] at hignored
      exact absurd hignored (by decide)
    · rw [h] at hignored
      exact absurd hignored (by decide)
  · exact absurd h hfd.1
  · exact absurd h hfd.2.1
  · exact absurd h hfd.2.2

/-- One call keeps its recorded result exactly if it is no mmap or mprotect that the kernel answers
otherwise. -/
theorem Effect.keepsResult_iff {u v : UserState} (h : Effect calls w i call u v)
    (hfd : call.num ∉ [openSysCall, openatSysCall, closeSysCall]) :
    v.regs .rax = BitVec.ofInt 64 call.returnValue ↔
      (call.num = mmapSysCall ∨ call.num = mprotectSysCall →
        ∀ v, w.kernel (2 * i + 1) (u.wrapped call) = .returns v →
          v.regs .rax = BitVec.ofInt 64 call.returnValue) := by
  cases h with
  | simulated hsimulated hwritable =>
      refine iff_of_true (simulatedUser_rax _ _ _) fun hmap => ?_
      exact absurd (runsForReal_of_map hmap) hsimulated
  | real hreal hkernel hvalid =>
      constructor
      · intro hrax _ v' hv'
        rw [hkernel] at hv'
        cases hv'
        exact hrax
      · intro hanswers
        -- `raise_on_unexpected_return_value` has compared the two, or has not looked
        rcases hvalid with hvalue | hignored
        · rw [hvalue, ofInt_toNat]
        · exact hanswers (hreal.map_of_ignored hfd hignored) v hkernel

/-- A replay that returns and in which no `SIGTRAP` is delivered has given every syscall its recorded
result, the opening and closing of descriptors apart, exactly if the kernel has answered each mmap and
mprotect with the recorded value. -/
theorem keepsResults_iff_answersMapsAsRecorded {self : Replayer} {w : World} {before : UserState}
    (hfree : SigtrapFree self w before) {status : Int} {t : Tracee}
    (hreturns : self.startReplaying w (Tracee.init before) = .ok status t) :
    KeepsResults self.systemCalls t.history ↔ AnswersMapsAsRecorded w self.systemCalls t.history := by
  have hthrough := (startReplaying_visits hfree).of_ok hreturns
  constructor
  · intro hkeeps i call x hcall hx hmap
    have hfd : call.num ∉ [openSysCall, openatSysCall, closeSysCall] := by
      rcases hmap with hmap | hmap <;> rw [hmap] <;> decide
    obtain ⟨y, hy, hrax⟩ := hkeeps i call hcall hfd
    obtain ⟨z, hz, _, heffect⟩ := hthrough.visit hcall
    rw [hx] at hy hz
    cases hy
    cases hz
    exact (heffect.keepsResult_iff hfd).1 hrax hmap
  · intro hanswers i call hcall hfd
    obtain ⟨x, hx, _, heffect⟩ := hthrough.visit hcall
    exact ⟨x, hx, (heffect.keepsResult_iff hfd).2 (hanswers i call x hcall hx)⟩

/-! ## One mmap -/

/-- A recorded mmap of no bytes that returned 4096. -/
def recordedMmap : SystemCall where
  registers := PtRegs.toRegisters (PtRegs.set (fun _ => 0) .origRax 9)
  returnValue := 4096
  memoryCopies := []

def mmapReplayer : Replayer where
  systemCalls := [recordedMmap]
  stdoutCallback := none

/-- The tracee calls mmap, which the kernel answers with `answer`, and then `exit_group`. -/
def mmapWorld (answer : Word) : World where
  attach := .stopped bareUser
  user := fun n u => .syscall { u with regs := PtRegs.set u.regs .origRax (if n = 0 then 9 else 231) }
  kernel := fun _ u =>
    if u.nr = 9 then .returns { u with regs := PtRegs.set u.regs .rax answer } else .exits

theorem noSigtrap_mmapWorld (answer : Word) : (mmapWorld answer).NoSigtrap :=
  fun _ _ _ heq => UserOutcome.noConfusion heq

theorem returns_rax {answer : Word} {n : Nat} {u v : UserState}
    (h : (mmapWorld answer).kernel n u = .returns v) : v.regs .rax = answer := by
  simp only [mmapWorld] at h
  split_ifs at h
  cases h
  exact PtRegs.set_same u.regs .rax answer

set_option maxRecDepth 20000 in
theorem returns_mmapWorld : ∃ status t,
    mmapReplayer.startReplaying (mmapWorld 4096) (Tracee.init bareUser) = .ok status t := by
  exact ⟨_, _, rfl⟩

/-- The kernel answers with the recorded address. -/
theorem keepsResults_iff_answersMapsAsRecorded_mmap : ∃ status t,
    mmapReplayer.startReplaying (mmapWorld 4096) (Tracee.init bareUser) = .ok status t ∧
      KeepsResults mmapReplayer.systemCalls t.history := by
  obtain ⟨status, t, hreturns⟩ := returns_mmapWorld
  have hfree := (noSigtrap_mmapWorld 4096).sigtrapFree mmapReplayer bareUser
  refine ⟨status, t, hreturns, (keepsResults_iff_answersMapsAsRecorded hfree hreturns).2 ?_⟩
  intro i call x hcall _ _ v hkernel
  obtain rfl : call = recordedMmap := by
    have hmem := List.mem_of_getElem? hcall
    exact List.mem_singleton.1 hmem
  exact returns_rax hkernel

set_option maxRecDepth 20000 in
/-- The kernel answers with `-ENOMEM`, and the replay goes on as if nothing had happened. -/
theorem not_keepsResults_mmap : ∃ status t,
    mmapReplayer.startReplaying (mmapWorld (-12)) (Tracee.init bareUser) = .ok status t ∧
      ¬KeepsResults mmapReplayer.systemCalls t.history := by
  have hrun : ∃ status t,
      mmapReplayer.startReplaying (mmapWorld (-12)) (Tracee.init bareUser) = .ok status t ∧
        (visits t.history).map (fun x => x.exit.regs .rax) = [-12] := by
    refine ⟨_, _, rfl, ?_⟩
    rfl
  obtain ⟨status, t, hreturns, hrax⟩ := hrun
  refine ⟨status, t, hreturns, fun hkeeps => ?_⟩
  obtain ⟨x, hx, hsame⟩ := hkeeps 0 recordedMmap rfl (by decide)
  have hother : ((visits t.history).map fun x => x.exit.regs .rax)[0]? = some (x.exit.regs .rax) := by
    rw [List.getElem?_map, hx]
    rfl
  rw [hrax, hsame] at hother
  exact absurd hother (by decide)

end RrPython
