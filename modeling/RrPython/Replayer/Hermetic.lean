import RrPython.Replayer.Results
import RrPython.Replayer.Virtual

/-!
# Hermetic — what of the kernel gets through to a replay

Replays of one recording on two kernels, compared by the machine that both run, are the same where the
kernels answer the calls that need to happen alike.  Nothing else of a kernel gets through.
-/

namespace RrPython

open Foundation Creplayer Replayer

/-- The two kernels answer the recorded calls that need to happen in the same way. -/
def SameAnswers (calls : List SystemCall) (w w' : World) : Prop :=
  ∀ (i : Nat) (call : SystemCall) (u : UserState), calls[i]? = some call →
    RunsForReal calls i call → call.num = u.nr.toNat →
      w.kernel (2 * i + 1) (u.wrapped call) = w'.kernel (2 * i + 1) (u.wrapped call)

/-- What a caller, and the program in the sandbox, can tell of a replay. -/
structure SameReplay (x y : EStateM.Result ReplayError Tracee Int) : Prop where
  outcome : outcome x = outcome y
  entries : entries (endState x).history = entries (endState y).history
  shown : stdoutBuffers (endState x).history = stdoutBuffers (endState y).history

namespace Virtual

variable {self : Replayer} {w w' : World}

theorem step_sameAnswers (huser : w.user = w'.user) (hanswers : SameAnswers self.systemCalls w w')
    {i : Nat} {call : SystemCall} (hcall : self.systemCalls[i]? = some call) :
    step self w i call = step self w' i call := by
  have henter : enter w i = enter w' i := by
    simp only [enter, huser]
  unfold step
  rw [henter]
  congr 1
  funext u
  unfold expect
  split_ifs with hnum
  · rfl
  · -- the entry is the expected one, so a kernel is asked only for what both answer alike
    congr 1
    funext _
    congr 1
    funext _
    unfold answer
    cases hdecision : shouldSimulateSystemCall self.systemCalls i with
    | error e =>
        rfl
    | ok simulates =>
        cases simulates with
        | true =>
            rfl
        | false =>
            have hreal := (runsForReal_iff hcall).2 hdecision
            simp only [run, hanswers i call u hcall hreal (not_not.1 hnum)]

theorem replay_sameAnswers (hattach : w.attach = w'.attach) (huser : w.user = w'.user)
    (hanswers : SameAnswers self.systemCalls w w') : replay self w = replay self w' := by
  have hbegin : attach w = attach w' := by
    simp only [attach, hattach]
  have hloop : forEach (step self w) 0 self.systemCalls = forEach (step self w') 0 self.systemCalls :=
    forEach_congr (fun _ _ hcall => step_sameAnswers huser hanswers hcall) List.drop_zero
  have hexit : exitStatus w self.systemCalls.length = exitStatus w' self.systemCalls.length := by
    simp only [exitStatus, enter, huser]
  rw [replay, replay, hbegin, hloop, hexit]

end Virtual

/-- The kernel under a replay matters only for the calls that need to happen: if two of them answer
these alike, the same program is replayed in the same way on both, whatever they would do with any
other call.  No `SIGTRAP` may be delivered on either. -/
theorem startReplaying_hermetic {self : Replayer} {w w' : World} (hattach : w.attach = w'.attach)
    (huser : w.user = w'.user) (hanswers : SameAnswers self.systemCalls w w')
    {before before' : UserState} (hfree : SigtrapFree self w before)
    (hfree' : SigtrapFree self w' before') :
    SameReplay (self.startReplaying w (Tracee.init before))
      (self.startReplaying w' (Tracee.init before')) := by
  have hreplay := Virtual.replay_sameAnswers hattach huser hanswers
  have hleft := hfree.alike
  have hright := hfree'.alike
  rw [← hreplay] at hright
  have htrace := hleft.endState fun _ _ _ _ h => h.2
  have htrace' := hright.endState fun _ _ _ _ h => h.2
  refine ⟨?_, ?_, ?_⟩
  · exact (hleft.outcome_eq fun _ _ _ _ h => h.1).trans (hright.outcome_eq fun _ _ _ _ h => h.1).symm
  · exact htrace.1.symm.trans htrace'.1
  · exact htrace.2.symm.trans htrace'.2

/-- A recorded getpid, which is simulated, and a recorded mmap, which is not. -/
def pidAndMapReplayer : Replayer where
  systemCalls :=
    [{ registers := PtRegs.toRegisters (PtRegs.set (fun _ => 0) .origRax 39)
       returnValue := 1
       memoryCopies := [] }, recordedMmap]
  stdoutCallback := none

/-- The tracee calls getpid, mmap and `exit_group`, under a kernel that knows it as `pid`. -/
def hostWorld (pid : Word) : World where
  attach := .stopped bareUser
  user := fun n u => .syscall { u with
    regs := PtRegs.set u.regs .origRax (if n = 0 then 39 else if n = 2 then 9 else 231) }
  kernel := fun _ u =>
    .returns { u with regs := PtRegs.set u.regs .rax (if u.nr = 9 then 4096 else pid) }

theorem sigtrapFree_hostWorld (self : Replayer) (pid : Word) :
    SigtrapFree self (hostWorld pid) bareUser := by
  have hw : (hostWorld pid).NoSigtrap := fun _ _ _ heq => UserOutcome.noConfusion heq
  exact hw.sigtrapFree self bareUser

theorem sameAnswers_hostWorld (pid pid' : Word) :
    SameAnswers pidAndMapReplayer.systemCalls (hostWorld pid) (hostWorld pid') := by
  intro i call u hcall hreal hnum
  rw [runsForReal_iff hcall] at hreal
  match i, hcall with
  | 0, _ =>
      exact absurd hreal (by decide)
  | 1, hcall =>
      cases hcall
      have hmmap : (u.nr.toNat : Int) = 9 := hnum.symm
      have hnr : (u.wrapped recordedMmap).nr = 9 := by
        rw [wrapped_nr]
        exact BitVec.eq_of_toNat_eq (by exact_mod_cast hmmap)
      simp only [hostWorld, hnr, if_true]

/-- The number that the kernel would answer getpid with does not get through. -/
theorem startReplaying_hermetic_hostWorld :
    SameReplay (pidAndMapReplayer.startReplaying (hostWorld 1) (Tracee.init bareUser))
      (pidAndMapReplayer.startReplaying (hostWorld 2) (Tracee.init bareUser)) :=
  @startReplaying_hermetic pidAndMapReplayer (hostWorld 1) (hostWorld 2) rfl rfl
    (sameAnswers_hostWorld 1 2) bareUser bareUser (sigtrapFree_hostWorld pidAndMapReplayer 1)
    (sigtrapFree_hostWorld pidAndMapReplayer 2)

end RrPython
