import RrPython.Replayer.Turn

/-!
# Passage — what one recorded call does to a tracee at its entry stop

`run_tracee_through_system_call` from the stop at which it finds the tracee: what is handed to the
callback, which of the two ways the tracee is taken, and the state in which it is left.
-/

namespace RrPython

open Foundation Creplayer Replayer

/-- A recorded write to descriptor 1. -/
def SystemCall.WritesStdout (call : SystemCall) : Prop :=
  call.num = writeSysCall ∧ call.registers .rdi = 1

instance (call : SystemCall) : Decidable call.WritesStdout :=
  inferInstanceAs (Decidable (_ ∧ _))

/-- What the callback is called with, the tracee being in the state `u`. -/
def HandedOver (self : Replayer) (call : SystemCall) (u : UserState) (printed : List TraceeEvent) :
    Prop :=
  if self.stdoutCallback.isSome ∧ call.WritesStdout then
    ∃ (t : Tracee) (buffer : Option (List Byte)), t.user = u ∧
      readFromTracee (call.registers .rsi) (call.registers .rdx) t = .ok buffer t ∧
        printed = [.stdout buffer]
  else printed = []

/-- The tracee has been taken from its entry stop as `t` through the recorded call at `i`. -/
structure Passage (replayer : Replayer) (w : World) (i : Nat) (call : SystemCall) (t t' : Tracee) :
    Prop where
  history : ∃ printed pass v, HandedOver replayer call t.user printed ∧
    Passes replayer.systemCalls i call t.user.nr pass ∧
      t'.history = t.history ++ .consumed call :: (printed ++ [pass, .left v])
  user : ¬RunsForReal replayer.systemCalls i call ∧
      t'.user = simulatedUser t.user.mem call (PtRegs.toRegisters t.user.regs) ∨
    RunsForReal replayer.systemCalls i call ∧
      w.kernel t.clock (t.user.wrapped call) = .returns t'.user

variable {self : Replayer} {w : World} {t : Tracee} {i : Nat} {call : SystemCall}

@[simp] theorem log_user (t : Tracee) (events : List TraceeEvent) : (t.log events).user = t.user := rfl

theorem HandedOver.printed {u : UserState} {printed : List TraceeEvent}
    (h : HandedOver self call u printed) : Printed printed := by
  unfold HandedOver at h
  split_ifs at h
  · obtain ⟨_, buffer, _, _, rfl⟩ := h
    simp [Printed]
  · simp [Printed, h]

theorem callStdoutCallback_handsOver (self : Replayer) (call : SystemCall) (t : Tracee) :
    Ends (self.callStdoutCallbackIfRelevant call) t
      (fun _ t' => ∃ printed, HandedOver self call t.user printed ∧ t' = t.log printed)
      (fun _ _ => True) := by
  have hnothing : ¬(self.stdoutCallback.isSome ∧ call.WritesStdout) →
      ∃ printed, HandedOver self call t.user printed ∧ t = t.log printed := by
    intro hnot
    exact ⟨[], by rw [HandedOver, if_neg hnot], by simp [Tracee.log]⟩
  unfold callStdoutCallbackIfRelevant
  cases hcallback : self.stdoutCallback with
  | none =>
      exact hnothing (by simp [hcallback])
  | some callback =>
      dsimp only
      split_ifs with hwrites
      · have hread := readFromTracee_frame (t := t) (call.registers .rsi) (call.registers .rdx)
        unfold Ends at hread ⊢
        cases hresult : readFromTracee (call.registers .rsi) (call.registers .rdx) t with
        | error e t' =>
            rw [bind_of_error hresult]
            trivial
        | ok buffer t' =>
            rw [hresult] at hread
            obtain rfl : t' = t := hread
            rw [bind_of_ok hresult, modify_bind, get_bind]
            have hone : HandedOver self call t'.user [.stdout buffer] := by
              rw [HandedOver, if_pos ⟨by simp [hcallback], hwrites⟩]
              exact ⟨t', buffer, rfl, hresult, rfl⟩
            cases callback (t'.log [.stdout buffer]).clock buffer with
            | true =>
                exact ⟨_, hone, rfl⟩
            | false =>
                trivial
      · exact hnothing fun h => hwrites h.2

/-- Both ways through a recorded call, from the entry stop on. -/
theorem runTraceeThroughSystemCall_passage (hcall : self.systemCalls[i]? = some call)
    (hstop : t.stop = .syscallEntry t.user.nr) :
    Ends (self.runTraceeThroughSystemCall w i call) t (fun _ t' => Passage self w i call t t')
      (fun _ _ => True) := by
  have hstopped := Tracee.stopped_syscallEntry hstop
  unfold Ends
  rw [runTraceeThroughSystemCall, bind_of_ok (getRegisters_ok hstopped)]
  by_cases hnum : call.num = t.user.nr.toNat
  · rw [bind_of_ok (raiseOnUnexpectedState_ok hnum), modify_bind]
    refine (callStdoutCallback_handsOver self call (t.log [.consumed call])).bind ?_
    -- the callback leaves the tracee alone
    rintro _ t' ⟨printed, hprinted, rfl⟩
    unfold Ends
    have hstop' : ((t.log [.consumed call]).log printed).stop = .syscallEntry t.user.nr := hstop
    rcases shouldSimulateSystemCall_cases hcall with ⟨hdecision, hreal⟩ | ⟨hdecision, hreal⟩
    · rw [bind_of_ok (decideWhetherToSimulate_ok hdecision), if_pos rfl]
      by_cases hwritable : CopiesWritable t.user.mem call.memoryCopies
      · rw [simulate_ok hstop' _ hwritable]
        refine ⟨⟨printed, _, (afterInvalidSysCall t t.user.nr (PtRegs.toRegisters t.user.regs)).user,
          hprinted, .simulated hreal, ?_⟩, Or.inl ⟨hreal, rfl⟩⟩
        simp [afterInvalidSysCall, Tracee.arrive]
      · obtain ⟨mem, herror⟩ := simulate_error (w := w) hstop' (PtRegs.toRegisters t.user.regs) hwritable
        rw [herror]
        trivial
    · rw [bind_of_ok (decideWhetherToSimulate_ok hdecision), if_neg (by decide)]
      have hmsb := hreal.msb hnum
      cases hkernel : w.kernel t.clock (t.user.wrapped call) with
      | exits =>
          have herror := wrapAndRun_exits (t := (t.log [.consumed call]).log printed) hstop' hmsb hkernel
          simp only [log_user] at herror
          rw [herror]
          trivial
      | returns v =>
          have hrun := wrapAndRun_returns (t := (t.log [.consumed call]).log printed) hstop' hmsb hkernel
          simp only [log_user] at hrun
          rw [hrun]
          unfold raiseOnUnexpectedReturnValue
          split_ifs
          · trivial
          · refine ⟨⟨printed, _, v, hprinted, .real hreal, ?_⟩, Or.inr ⟨hreal, hkernel⟩⟩
            simp [Tracee.arrive]
  · rw [bind_of_error (raiseOnUnexpectedState_error hnum)]
    trivial

end RrPython
