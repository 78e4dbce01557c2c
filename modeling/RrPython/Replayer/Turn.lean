import RrPython.Replayer.Trapped

/-!
# Turn — what one turn of the replay loop does to the tracee

A turn finds the tracee between two calls, takes it to the entry of the next one and through it, or
gives up on the way.  `Turn` is all that the one can leave behind and `TurnFails` all that the other
can.  What is proved about whole replays knows a turn by these two only, and goes through the loop by
`startReplaying_rule`.  All of this is about replays to whose tracee no `SIGTRAP` is delivered.
-/

namespace RrPython

open Foundation Creplayer Replayer

/-! ## Between two calls -/

/-- Leaving a stop other than a syscall entry. -/
inductive GoesBack : Stop → List TraceeEvent → Prop
  | signalled : GoesBack .signalled []
  | exited : GoesBack .exited []
  | returned (u : UserState) : GoesBack .syscallExit [.returned u]

namespace Tracee

/-- Where the turn for the call at `i` finds the tracee, which has been resumed twice for each call
before. -/
structure ReadyFor (t : Tracee) (i : Nat) : Prop where
  stop : t.stop = .signalled ∨ t.stop = .exited ∨ t.stop = .syscallExit
  clock : t.clock = 2 * i

theorem ReadyFor.goesBack {t : Tracee} {i : Nat} (h : t.ReadyFor i) : GoesBack t.stop t.goingBack := by
  rcases h.stop with hstop | hstop | hstop
  · simp only [goingBack, hstop]
    exact .signalled
  · simp only [goingBack, hstop]
    exact .exited
  · simp only [goingBack, hstop]
    exact .returned t.user

/-- The tracee at the entry of the next syscall. -/
def entering (t : Tracee) (u : UserState) : Tracee :=
  t.arrive (.syscallEntry u.nr) u (t.goingBack ++ [.entered u])

end Tracee

/-- Why the tracee does not come to the entry of the syscall with the number `expected` that comes
after `i` others. -/
inductive EntryFails (w : World) (i : Nat) (expected : Int) (t : Tracee) : ReplayError → Tracee → Prop
  /-- It does not come to any. -/
  | noEntry {message : String} {t' : Tracee} (hhistory : t'.history = t.history ++ t.goingBack)
      (h : t.stop = .exited ∨ ∀ u, w.user (2 * i) t.user ≠ .syscall u) :
      EntryFails w i expected t (.systemError message) t'
  | unexpected {u : UserState} (huser : w.user (2 * i) t.user = .syscall u)
      (hnum : expected ≠ u.nr.toNat) :
      EntryFails w i expected t (unexpectedSysCallException expected u.nr.toNat) (t.entering u)

/-- The tracee is resumed, and its registers are read at the entry that it comes to. -/
theorem Tracee.ReadyFor.enter {α : Type} {w : World} {t : Tracee} {i : Nat} (h : t.ReadyFor i)
    (hw : w.NoSigtrap) (expected : Int) {next : Registers → ReplayM α} {post : α → Tracee → Prop}
    {exc : ReplayError → Tracee → Prop} (hfails : ∀ e t', EntryFails w i expected t e t' → exc e t')
    (hnext : ∀ u, w.user (2 * i) t.user = .syscall u →
      Ends (next (PtRegs.toRegisters u.regs)) (t.entering u) post exc) :
    Ends (do
        runUntilEnterOrExitOfNextSyscall w
        let registers ← getRegisters
        next registers) t post exc := by
  unfold Ends
  by_cases hexited : t.stop = .exited
  · -- the request fails
    have hgone : ¬t.Stopped := by
      simp [Tracee.Stopped, hexited]
    have hback : t.goingBack = [] := by
      simp [Tracee.goingBack, hexited]
    rw [bind_of_error (runUntil_error hgone)]
    refine hfails _ _ (.noEntry ?_ (Or.inl hexited))
    rw [hback, List.append_nil]
  · -- from a signal stop as from a syscall exit, the tracee goes on in user mode
    have hstop : t.stop = .signalled ∨ t.stop = .syscallExit :=
      h.stop.imp id fun hstop => hstop.resolve_left hexited
    have hclock := h.clock
    cases huser : w.user t.clock t.user with
    | syscall u =>
        rw [bind_of_ok (runUntil_syscall hstop huser),
          bind_of_ok (getRegisters_ok (Tracee.stopped_syscallEntry rfl))]
        exact hnext u (hclock ▸ huser)
    | signal sig u =>
        have hsig : sig ≠ sigtrap := by
          rintro rfl
          exact hw _ _ _ huser
        rw [bind_of_error (runUntil_signal hstop hsig huser)]
        refine hfails _ _ (.noEntry rfl (Or.inr fun u' => ?_))
        rw [← hclock, huser]
        exact fun hne => UserOutcome.noConfusion hne
    | exits =>
        -- it has no registers to read any more
        have hgone : ¬(t.arrive .exited t.user t.goingBack).Stopped := by
          simp [Tracee.Stopped, Tracee.arrive]
        rw [bind_of_ok (runUntil_exits hstop huser), bind_of_error (getRegisters_error hgone)]
        refine hfails _ _ (.noEntry rfl (Or.inr fun u => ?_))
        rw [← hclock, huser]
        exact fun hne => UserOutcome.noConfusion hne

/-! ## The call -/

/-- How the recorded call at `i` lets a tracee that enters with `nr` through the kernel. -/
inductive Passes (calls : List SystemCall) (i : Nat) (call : SystemCall) (nr : Word) :
    TraceeEvent → Prop
  | simulated (h : ¬RunsForReal calls i call) : Passes calls i call nr (.skipped nr (-5))
  | real (h : RunsForReal calls i call) : Passes calls i call nr (.executed nr nr)

def Printed (events : List TraceeEvent) : Prop :=
  ∀ e ∈ events, ∃ buffer, e = .stdout buffer

/-- The registers with which a recorded call is run for real: an mmap goes to the recorded address. -/
def wrappedRegs (call : SystemCall) (regs : PtRegs) : PtRegs :=
  if call.num = mmapSysCall then
    PtRegs.set (PtRegs.set regs .rdi (BitVec.ofInt 64 call.returnValue)) .r10
      (regs .r10 ||| BitVec.ofInt 64 SyscallHandlers.mapFixed)
  else regs

def UserState.wrapped (u : UserState) (call : SystemCall) : UserState :=
  { u with regs := wrappedRegs call u.regs }

/-- What the recorded call at `i` makes of a tracee that enters it in the state `u`.  The tracee has
then been resumed twice for each call before this one, and once to get here. -/
inductive Effect (calls : List SystemCall) (w : World) (i : Nat) (call : SystemCall) (u : UserState) :
    UserState → Prop
  | simulated (hsimulated : ¬RunsForReal calls i call)
      (hwritable : CopiesWritable u.mem call.memoryCopies) :
      Effect calls w i call u (simulatedUser u.mem call (PtRegs.toRegisters u.regs))
  | real {v : UserState} (hreal : RunsForReal calls i call)
      (hkernel : w.kernel (2 * i + 1) (u.wrapped call) = .returns v)
      (hvalid : call.returnValue = (v.regs .rax).toNat ∨ call.num ∈ sysCallsToIgnoreInValidation) :
      Effect calls w i call u v

/-- From between two calls as `t`, the tracee has entered the recorded call at `i` in the state `u`,
and `rest` has happened to it behind the callback. -/
structure Within (w : World) (i : Nat) (call : SystemCall) (t : Tracee) (u : UserState)
    (rest : List TraceeEvent) (t' : Tracee) : Prop where
  user : w.user (2 * i) t.user = .syscall u
  num : call.num = u.nr.toNat
  history : ∃ printed, Printed printed ∧
    t'.history = t.history ++ (t.goingBack ++ (.entered u :: .consumed call :: (printed ++ rest)))

/-- A turn has taken the tracee from `t` through the recorded call at `i`. -/
structure Turn (calls : List SystemCall) (w : World) (i : Nat) (call : SystemCall) (t : Tracee)
    (u : UserState) (t' : Tracee) : Prop where
  within : ∃ pass v, Passes calls i call u.nr pass ∧ Within w i call t u [pass, .left v] t'
  effect : Effect calls w i call u t'.user
  stop : t'.stop = .syscallExit
  clock : t'.clock = 2 * (i + 1)

theorem Turn.readyFor {calls : List SystemCall} {w : World} {i : Nat} {call : SystemCall}
    {t t' : Tracee} {u : UserState} (h : Turn calls w i call t u t') : t'.ReadyFor (i + 1) :=
  ⟨Or.inr (Or.inr h.stop), h.clock⟩

/-- Why a turn gives up, and what it leaves behind. -/
inductive TurnFails (self : Replayer) (w : World) (i : Nat) (call : SystemCall) (t : Tracee) :
    ReplayError → Tracee → Prop
  | entry {e : ReplayError} {t' : Tracee} (h : EntryFails w i call.num t e t') :
      TurnFails self w i call t e t'
  | stdout {e : ReplayError} {u : UserState} {t' : Tracee} (h : Within w i call t u [] t')
      (hcallback : self.stdoutCallback ≠ none) (he : e.OfAccess ∨ e = .callback) :
      TurnFails self w i call t e t'
  /-- A copy of a simulated call cannot be written. -/
  | unwritable {u v : UserState} {t' : Tracee} (h : Within w i call t u [.skipped u.nr (-5), .left v] t')
      (hsimulated : ¬RunsForReal self.systemCalls i call)
      (hunwritable : ¬CopiesWritable u.mem call.memoryCopies) :
      TurnFails self w i call t (.systemError inputOutputError) t'
  /-- A call that is run for real ends the tracee. -/
  | exits {u : UserState} {t' : Tracee} (h : Within w i call t u [.executed u.nr u.nr] t')
      (hreal : RunsForReal self.systemCalls i call)
      (hkernel : w.kernel (2 * i + 1) (u.wrapped call) = .exits) :
      TurnFails self w i call t (.systemError noSuchProcess) t'
  /-- A call that is run for real returns something else. -/
  | otherValue {u v : UserState} {t' : Tracee}
      (h : Within w i call t u [.executed u.nr u.nr, .left v] t')
      (hreal : RunsForReal self.systemCalls i call)
      (hkernel : w.kernel (2 * i + 1) (u.wrapped call) = .returns v)
      (hvalue : call.returnValue ≠ (v.regs .rax).toNat)
      (hnum : call.num ∉ sysCallsToIgnoreInValidation) :
      TurnFails self w i call t
        (unexpectedSystemCallReturnValueException call.returnValue (v.regs .rax).toNat) t'

section Turn

variable {self : Replayer} {calls : List SystemCall} {w : World} {t t' : Tracee} {i : Nat}
  {call : SystemCall} {u : UserState}

/-- More happens within the call. -/
theorem Within.more (h : Within w i call t u [] t') {rest : List TraceeEvent} {t'' : Tracee}
    (hhistory : t''.history = t'.history ++ rest) : Within w i call t u rest t'' := by
  obtain ⟨printed, hprinted, hbefore⟩ := h.history
  refine ⟨h.user, h.num, printed, hprinted, ?_⟩
  rw [hhistory, hbefore]
  simp

/-- A call that happens for real has the number of a syscall. -/
theorem RunsForReal.msb (h : RunsForReal calls i call) {nr : Word} (hnum : call.num = nr.toNat) :
    nr.msb = false := by
  have hsmall : call.num < 1000 := by
    rcases h with h | ⟨h | h, _⟩ | ⟨h, _⟩
    · simp only [ShouldSimulate.sysCallsNotToSimulate, List.mem_cons, List.not_mem_nil, or_false] at h
      rcases h with h | h | h | h <;> rw [h] <;> decide
    · rw [h]
      decide
    · rw [h]
      decide
    · rw [h]
      decide
  rw [BitVec.msb_eq_false_iff_two_mul_lt]
  omega

@[simp] theorem wrapped_nr (u : UserState) (call : SystemCall) : (u.wrapped call).nr = u.nr := by
  simp only [UserState.nr, UserState.wrapped, wrappedRegs]
  split_ifs
  · rw [PtRegs.set_other _ _ (by decide), PtRegs.set_other _ _ (by decide)]
  · rfl

theorem getNewRegisterValues_wrapped (call : SystemCall) (regs : PtRegs) :
    ∃ registers, getNewRegisterValuesForSystemCall call (PtRegs.toRegisters regs) t = .ok registers t ∧
      (fun r => BitVec.ofInt 64 (registers r)) = wrappedRegs call regs := by
  unfold getNewRegisterValuesForSystemCall SyscallHandlers.handler wrappedRegs
  by_cases hmmap : call.num = 9
  · rw [if_pos hmmap, if_pos (show call.num = mmapSysCall from hmmap)]
    refine ⟨(Registers.assign (PtRegs.toRegisters regs) .rdi call.returnValue).assign .r10
      (Int.lor (PtRegs.toRegisters regs .r10) SyscallHandlers.mapFixed), ?_, ?_⟩
    · show SyscallHandlers.getMmapRegisters call (PtRegs.toRegisters regs) t = _
      rw [SyscallHandlers.getMmapRegisters, bind_of_ok (constructRegisters_toList _)]
      rfl
    · funext r
      by_cases hr10 : r = .r10
      · subst hr10
        have hor : Int.lor ((regs .r10).toNat : Int) SyscallHandlers.mapFixed =
            (((regs .r10).toNat ||| 16 : Nat) : Int) := rfl
        simp only [Registers.assign, Function.update_self, PtRegs.set_same, PtRegs.toRegisters, hor]
        rw [BitVec.ofInt_natCast, BitVec.ofNat_or, BitVec.ofNat_toNat, BitVec.setWidth_eq]
        rfl
      · by_cases hrdi : r = .rdi
        · subst hrdi
          simp [Registers.assign, PtRegs.set]
        · simp [Registers.assign, PtRegs.set, PtRegs.toRegisters, hr10, hrdi]
  · rw [if_neg hmmap, if_neg (show ¬call.num = mmapSysCall from hmmap)]
    refine ⟨PtRegs.toRegisters regs, rfl, ?_⟩
    funext r
    exact ofInt_toNat (regs r)

/-- The callback is called, or not, and may raise an exception. -/
theorem callStdoutCallback_ends (self : Replayer) (call : SystemCall) :
    Ends (self.callStdoutCallbackIfRelevant call) t
      (fun _ t' => ∃ printed, Printed printed ∧ t' = t.log printed)
      (fun e t' => (self.stdoutCallback ≠ none ∧ (e.OfAccess ∨ e = .callback)) ∧
        ∃ printed, Printed printed ∧ t' = t.log printed) := by
  have hnothing : ∃ printed, Printed printed ∧ t = t.log printed :=
    ⟨[], by simp [Printed], by simp [Tracee.log]⟩
  unfold callStdoutCallbackIfRelevant
  cases self.stdoutCallback with
  | none =>
      exact hnothing
  | some callback =>
      dsimp only
      split_ifs
      · refine ((readFromTracee_frame (t := t) _ _).mono (fun _ _ h => h) ?_).bind ?_
        · rintro e t' ⟨haccess, rfl⟩
          exact ⟨⟨by simp, Or.inl haccess⟩, hnothing⟩
        · rintro buffer t' rfl
          have hone : ∃ printed, Printed printed ∧ t'.log [.stdout buffer] = t'.log printed :=
            ⟨[.stdout buffer], by simp [Printed], rfl⟩
          unfold Ends
          rw [modify_bind, get_bind]
          cases callback (t'.log [.stdout buffer]).clock buffer with
          | true =>
              exact hone
          | false =>
              exact ⟨⟨by simp, Or.inr rfl⟩, hone⟩
      · exact hnothing

/-- A call that is simulated. -/
theorem Within.simulate (h : Within w i call t u [] t') (hstop : t'.stop = .syscallEntry u.nr)
    (huser : t'.user = u) (hclock : t'.clock = 2 * i + 1)
    (hsimulated : ¬RunsForReal self.systemCalls i call) :
    Ends (simulateSystemCallForTracee w call (PtRegs.toRegisters u.regs)) t'
      (fun _ t'' => ∃ u, Turn self.systemCalls w i call t u t'')
      (fun e t'' => TurnFails self w i call t e t'') := by
  by_cases hwritable : CopiesWritable u.mem call.memoryCopies
  · refine Ends.of_eq_ok (simulate_ok hstop _ (huser ▸ hwritable)) ?_
    refine ⟨u, ⟨_, _, .simulated hsimulated, h.more rfl⟩, ?_, rfl, ?_⟩
    · rw [huser]
      exact .simulated hsimulated hwritable
    · show t'.clock + 1 = 2 * (i + 1)
      omega
  · obtain ⟨mem, herror⟩ := simulate_error (w := w) hstop (PtRegs.toRegisters u.regs)
      (huser ▸ hwritable)
    exact Ends.of_eq_error herror (.unwritable (h.more rfl) hsimulated hwritable)

/-- What is left of running a call for real once the registers are set. -/
theorem wrapAndRun_eq (hstop : t.Stopped) (call : SystemCall) :
    wrapAndRunRealSystemCallInTracee w call (PtRegs.toRegisters t.user.regs) t =
      (do
        runUntilEnterOrExitOfNextSyscall w
        let registers ← getRegisters
        raiseOnUnexpectedReturnValue call registers : ReplayM Unit)
        (t.setRegs (wrappedRegs call t.user.regs)) := by
  obtain ⟨registers, hnew, hregs⟩ := getNewRegisterValues_wrapped (t := t) call t.user.regs
  have hset := setRegistersInTracee_ok hstop registers
  rw [hregs] at hset
  rw [wrapAndRunRealSystemCallInTracee, bind_of_ok hnew, bind_of_ok hset]

section Real

variable {nr : Word} (hstop : t.stop = .syscallEntry nr) (hmsb : t.user.nr.msb = false)

include hstop hmsb

/-- The kernel runs the wrapped call, and what it returned with is compared. -/
theorem wrapAndRun_returns {v : UserState}
    (hkernel : w.kernel t.clock (t.user.wrapped call) = .returns v) :
    wrapAndRunRealSystemCallInTracee w call (PtRegs.toRegisters t.user.regs) t =
      raiseOnUnexpectedReturnValue call (PtRegs.toRegisters v.regs)
        (t.arrive .syscallExit v [.executed nr t.user.nr, .left v]) := by
  -- the new registers ask for the same syscall
  have hnr : (t.setRegs (wrappedRegs call t.user.regs)).user.nr = t.user.nr := wrapped_nr t.user call
  have hstop' : (t.setRegs (wrappedRegs call t.user.regs)).stop = .syscallEntry nr := hstop
  have hrun := runUntil_returns (w := w) hstop' (by rw [hnr]; exact hmsb) hkernel
  rw [hnr] at hrun
  rw [wrapAndRun_eq (Tracee.stopped_syscallEntry hstop), bind_of_ok hrun,
    bind_of_ok (getRegisters_ok (Tracee.stopped_syscallExit rfl))]
  rfl

/-- The wrapped call ends the tracee, whose registers cannot be read any more. -/
theorem wrapAndRun_exits (hkernel : w.kernel t.clock (t.user.wrapped call) = .exits) :
    wrapAndRunRealSystemCallInTracee w call (PtRegs.toRegisters t.user.regs) t =
      .error (.systemError noSuchProcess)
        (t.arrive .exited (t.user.wrapped call) [.executed nr t.user.nr]) := by
  have hnr : (t.setRegs (wrappedRegs call t.user.regs)).user.nr = t.user.nr := wrapped_nr t.user call
  have hstop' : (t.setRegs (wrappedRegs call t.user.regs)).stop = .syscallEntry nr := hstop
  have hrun := runUntil_ended (w := w) hstop' (by rw [hnr]; exact hmsb) hkernel
  rw [hnr] at hrun
  rw [wrapAndRun_eq (Tracee.stopped_syscallEntry hstop), bind_of_ok hrun]
  exact bind_of_error (getRegisters_error (by simp [Tracee.Stopped, Tracee.arrive]))

end Real

/-- A call that is run for real. -/
theorem Within.wrapAndRun (h : Within w i call t u [] t') (hstop : t'.stop = .syscallEntry u.nr)
    (huser : t'.user = u) (hclock : t'.clock = 2 * i + 1) (hreal : RunsForReal self.systemCalls i call) :
    Ends (wrapAndRunRealSystemCallInTracee w call (PtRegs.toRegisters u.regs)) t'
      (fun _ t'' => ∃ u, Turn self.systemCalls w i call t u t'')
      (fun e t'' => TurnFails self w i call t e t'') := by
  subst huser
  have hmsb := hreal.msb h.num
  unfold Ends
  cases hkernel : w.kernel t'.clock (t'.user.wrapped call) with
  | exits =>
      rw [wrapAndRun_exits hstop hmsb hkernel]
      rw [hclock] at hkernel
      exact .exits (h.more rfl) hreal hkernel
  | returns v =>
      rw [wrapAndRun_returns hstop hmsb hkernel]
      rw [hclock] at hkernel
      have hwithin : Within w i call t t'.user [.executed t'.user.nr t'.user.nr, .left v]
          (t'.arrive .syscallExit v [.executed t'.user.nr t'.user.nr, .left v]) := h.more rfl
      unfold raiseOnUnexpectedReturnValue
      split_ifs with hvalid
      · exact .otherValue hwithin hreal hkernel hvalid.1 hvalid.2
      · refine ⟨t'.user, ⟨_, _, .real hreal, hwithin⟩, .real hreal hkernel ?_, rfl, ?_⟩
        · rwa [not_and_or, not_not, not_not] at hvalid
        · show t'.clock + 1 = 2 * (i + 1)
          omega

/-- One turn of the loop. -/
theorem Tracee.ReadyFor.turn (h : t.ReadyFor i) (hw : w.NoSigtrap)
    (hcall : self.systemCalls[i]? = some call) :
    Ends (self.replaySystemCall w i call) t (fun _ t' => ∃ u, Turn self.systemCalls w i call t u t')
      (fun e t' => TurnFails self w i call t e t') := by
  refine h.enter hw call.num (fun e t' => .entry) fun u huser => ?_
  unfold Ends
  by_cases hnum : call.num = u.nr.toNat
  · -- the recorded syscall: print it if it is a write to stdout, then decide
    rw [bind_of_ok (raiseOnUnexpectedState_ok hnum), modify_bind]
    have hwithin : ∀ {printed}, Printed printed →
        Within w i call t u [] (((t.entering u).log [.consumed call]).log printed) := by
      intro printed hprinted
      refine ⟨huser, hnum, printed, hprinted, ?_⟩
      simp [Tracee.entering, Tracee.arrive]
    refine ((callStdoutCallback_ends self call).mono (fun _ _ h => h) ?_).bind ?_
    · rintro e t' ⟨⟨hcallback, he⟩, printed, hprinted, rfl⟩
      exact .stdout (hwithin hprinted) hcallback he
    · rintro _ t' ⟨printed, hprinted, rfl⟩
      have hclock : (((t.entering u).log [.consumed call]).log printed).clock = 2 * i + 1 := by
        rw [← h.clock]
        rfl
      unfold Ends
      rcases shouldSimulateSystemCall_cases hcall with ⟨hdecision, hreal⟩ | ⟨hdecision, hreal⟩
      · rw [bind_of_ok (decideWhetherToSimulate_ok hdecision)]
        exact (hwithin hprinted).simulate rfl rfl hclock hreal
      · rw [bind_of_ok (decideWhetherToSimulate_ok hdecision)]
        exact (hwithin hprinted).wrapAndRun rfl rfl hclock hreal
  · -- another syscall: raised before anything is done to the tracee
    rw [bind_of_error (raiseOnUnexpectedState_error hnum)]
    exact .entry (.unexpected huser hnum)

/-- The tracee has come to `exit_group` after `i` other syscalls, in the state `u`, and has been let
through it, whether it returned or not. -/
structure LastTurn (w : World) (i : Nat) (t : Tracee) (u : UserState) (status : Int) (t' : Tracee) :
    Prop where
  user : w.user (2 * i) t.user = .syscall u
  num : exitGroupSysCall = u.nr.toNat
  status : status = (u.regs .rdi).toNat
  history : ∃ rest, (rest = [] ∨ ∃ v, rest = [.left v]) ∧
    t'.history = t.history ++ (t.goingBack ++ (.entered u :: .executed u.nr u.nr :: rest))

theorem Tracee.ReadyFor.lastTurn (h : t.ReadyFor i) (hw : w.NoSigtrap) :
    Ends (getExitStatus w) t (fun status t' => ∃ u, LastTurn w i t u status t')
      (fun e t' => EntryFails w i exitGroupSysCall t e t') := by
  refine h.enter hw exitGroupSysCall (fun _ _ hfails => hfails) fun u huser => ?_
  unfold Ends
  by_cases hnum : exitGroupSysCall = u.nr.toNat
  · have hsame : ¬Registers.sysCall (PtRegs.toRegisters u.regs) ≠ exitGroupSysCall :=
      fun hne => hne hnum.symm
    have hnr : (t.entering u).user.nr.msb = false := by
      show u.nr.msb = false
      rw [BitVec.msb_eq_false_iff_two_mul_lt]
      unfold exitGroupSysCall at hnum
      omega
    rw [if_neg hsame]
    -- the status was read at the entry, so it does not matter whether `exit_group` returns
    rcases runUntil_executed (w := w) (t := t.entering u) rfl hnr with ⟨v, hrun⟩ | hrun
    · rw [bind_of_ok hrun]
      refine ⟨u, huser, hnum, rfl, [.left v], Or.inr ⟨v, rfl⟩, ?_⟩
      simp [Tracee.entering, Tracee.arrive]
    · rw [bind_of_ok hrun]
      refine ⟨u, huser, hnum, rfl, [], Or.inl rfl, ?_⟩
      simp [Tracee.entering, Tracee.arrive]
  · have hother : Registers.sysCall (PtRegs.toRegisters u.regs) ≠ exitGroupSysCall :=
      fun heq => hnum heq.symm
    rw [if_pos hother]
    exact .unexpected huser hnum

end Turn

/-! ## The loop -/

/-- How the replayer finds a tracee that it can attach to. -/
inductive Attached (w : World) (before : UserState) : Tracee → Prop
  | stopped {u : UserState} (h : w.attach = .stopped u) :
      Attached w before { Tracee.init before with stop := .signalled, user := u }
  | exited (h : w.attach = .exited) : Attached w before { Tracee.init before with stop := .exited }

theorem Attached.readyFor {w : World} {before : UserState} {t : Tracee} (h : Attached w before t) :
    t.ReadyFor 0 := by
  cases h with
  | stopped h =>
      exact ⟨Or.inl rfl, rfl⟩
  | exited h =>
      exact ⟨Or.inr (Or.inl rfl), rfl⟩

/-- The rule for the loop: what holds once the replayer has attached, and what every turn keeps, holds
when the last turn begins. -/
theorem startReplaying_loop (self : Replayer) (w : World) (before : UserState)
    {I : Nat → Tracee → Prop} {post : Int → Tracee → Prop} {exc : ReplayError → Tracee → Prop}
    (hrefused : ∀ message, w.attach = .refused message →
      exc (.systemError message) (Tracee.init before))
    (hattached : ∀ t, Attached w before t → I 0 t)
    (hturn : ∀ i call t, self.systemCalls[i]? = some call → t.ReadyFor i → I i t →
      Ends (self.replaySystemCall w i call) t (fun _ t' => t'.ReadyFor (i + 1) ∧ I (i + 1) t') exc)
    (hlast : ∀ t, t.ReadyFor self.systemCalls.length → I self.systemCalls.length t →
      Ends (getExitStatus w) t post exc) :
    Ends (self.startReplaying w) (Tracee.init before) post exc := by
  have hloop : ∀ {t : Tracee}, Attached w before t → Ends (do
      forEach (self.replaySystemCall w) 0 self.systemCalls
      getExitStatus w) t post exc := by
    intro t ht
    have hall := Ends.forEach (I := fun n (t : Tracee) => t.ReadyFor n ∧ I n t)
      (fun i call t hcall h => hturn i call t hcall h.1 h.2) List.drop_zero
      ⟨ht.readyFor, hattached t ht⟩
    refine hall.bind fun _ t' h' => ?_
    rw [Nat.zero_add] at h'
    exact hlast t' h'.1 h'.2
  unfold Ends
  rw [startReplaying]
  cases hattach : w.attach with
  | refused message =>
      rw [bind_of_error (attach_refused hattach)]
      exact hrefused message hattach
  | stopped u =>
      rw [bind_of_ok (attach_stopped hattach)]
      exact hloop (.stopped hattach)
  | exited =>
      rw [bind_of_ok (attach_exited hattach)]
      exact hloop (.exited hattach)

/-! ### A replay without a SIGTRAP -/

section Untrapped

variable {w : World} {i : Nat} {call : SystemCall} {t t' : Tracee}

theorem EntryFails.of_untrapped {expected : Int} {e : ReplayError}
    (h : EntryFails w.untrapped i expected t e t') : EntryFails w i expected t e t' := by
  cases h with
  | noEntry hhistory h =>
      exact .noEntry hhistory (h.imp id fun hnone u huser => hnone u (untrapped_user_syscall.2 huser))
  | unexpected huser hnum =>
      exact .unexpected (untrapped_user_syscall.1 huser) hnum

theorem Within.of_untrapped {u : UserState} {rest : List TraceeEvent}
    (h : Within w.untrapped i call t u rest t') : Within w i call t u rest t' :=
  ⟨untrapped_user_syscall.1 h.user, h.num, h.history⟩

/-- The kernel is the same. -/
theorem Effect.of_untrapped {calls : List SystemCall} {u v : UserState}
    (h : Effect calls w.untrapped i call u v) : Effect calls w i call u v := by
  cases h with
  | simulated hsimulated hwritable =>
      exact .simulated hsimulated hwritable
  | real hreal hkernel hvalid =>
      exact .real hreal hkernel hvalid

theorem Turn.of_untrapped {calls : List SystemCall} {u : UserState}
    (h : Turn calls w.untrapped i call t u t') : Turn calls w i call t u t' := by
  obtain ⟨pass, v, hpass, hwithin⟩ := h.within
  exact ⟨⟨pass, v, hpass, hwithin.of_untrapped⟩, h.effect.of_untrapped, h.stop, h.clock⟩

theorem TurnFails.of_untrapped {self : Replayer} {e : ReplayError}
    (h : TurnFails self w.untrapped i call t e t') : TurnFails self w i call t e t' := by
  cases h with
  | entry h =>
      exact .entry h.of_untrapped
  | stdout h hcallback he =>
      exact .stdout h.of_untrapped hcallback he
  | unwritable h hsimulated hunwritable =>
      exact .unwritable h.of_untrapped hsimulated hunwritable
  | exits h hreal hkernel =>
      exact .exits h.of_untrapped hreal hkernel
  | otherValue h hreal hkernel hvalue hnum =>
      exact .otherValue h.of_untrapped hreal hkernel hvalue hnum

theorem LastTurn.of_untrapped {u : UserState} {status : Int} (h : LastTurn w.untrapped i t u status t') :
    LastTurn w i t u status t' :=
  ⟨untrapped_user_syscall.1 h.user, h.num, h.status, h.history⟩

end Untrapped

/-- The rule by what a turn can leave behind. -/
theorem startReplaying_rule (self : Replayer) (w : World) (before : UserState)
    {I : Nat → Tracee → Prop} {post : Int → Tracee → Prop} {exc : ReplayError → Tracee → Prop}
    (hfree : SigtrapFree self w before)
    (hrefused : ∀ message, w.attach = .refused message →
      exc (.systemError message) (Tracee.init before))
    (hattached : ∀ t, Attached w before t → I 0 t)
    (hturn : ∀ i call t u t', self.systemCalls[i]? = some call → t.ReadyFor i → I i t →
      Turn self.systemCalls w i call t u t' → I (i + 1) t')
    (hfails : ∀ i call t e t', self.systemCalls[i]? = some call → t.ReadyFor i → I i t →
      TurnFails self w i call t e t' → exc e t')
    (hlast : ∀ t u status t', t.ReadyFor self.systemCalls.length → I self.systemCalls.length t →
      LastTurn w self.systemCalls.length t u status t' → post status t')
    (hlastFails : ∀ t e t', t.ReadyFor self.systemCalls.length → I self.systemCalls.length t →
      EntryFails w self.systemCalls.length exitGroupSysCall t e t' → exc e t') :
    Ends (self.startReplaying w) (Tracee.init before) post exc := by
  have hw := untrapped_noSigtrap w
  refine hfree.ends (startReplaying_loop self w.untrapped before (I := I) hrefused ?_ ?_ ?_)
  · intro t ht
    cases ht with
    | stopped hattach =>
        exact hattached _ (.stopped hattach)
    | exited hattach =>
        exact hattached _ (.exited hattach)
  · intro i call t hcall hready h
    refine (hready.turn hw hcall).mono ?_ fun e t' ht =>
      hfails i call t e t' hcall hready h ht.of_untrapped
    rintro _ t' ⟨u, ht⟩
    exact ⟨ht.readyFor, hturn i call t u t' hcall hready h ht.of_untrapped⟩
  · intro t hready h
    refine (hready.lastTurn hw).mono ?_ fun e t' ht => hlastFails t e t' hready h ht.of_untrapped
    rintro status t' ⟨u, hu⟩
    exact hlast t u status t' hready h hu.of_untrapped

/-! ### A world without the signal -/

section NoSigtrap

variable {self : Replayer} {w : World} {i : Nat} {call : SystemCall} {t t' : Tracee} {u : UserState}

theorem not_trapped_goingBack (t : Tracee) : ¬Trapped t.goingBack := by
  unfold Tracee.goingBack
  split <;> simp

theorem Printed.not_trapped {printed : List TraceeEvent} (h : Printed printed) : ¬Trapped printed := by
  rintro ⟨u, hu⟩
  obtain ⟨buffer, heq⟩ := h _ hu
  cases heq

theorem Passes.not_trapped {calls : List SystemCall} {nr : Word} {pass : TraceeEvent}
    (h : Passes calls i call nr pass) (u : UserState) : pass ≠ .trapped u := by
  cases h <;> exact fun heq => TraceeEvent.noConfusion heq

theorem Within.not_trapped {rest : List TraceeEvent} (h : Within w i call t u rest t')
    (ht : ¬Trapped t.history) (hrest : ¬Trapped rest) : ¬Trapped t'.history := by
  obtain ⟨printed, hprinted, hhistory⟩ := h.history
  simp [hhistory, ht, hrest, hprinted.not_trapped, not_trapped_goingBack]

theorem EntryFails.not_trapped {expected : Int} {e : ReplayError} (h : EntryFails w i expected t e t')
    (ht : ¬Trapped t.history) : ¬Trapped t'.history := by
  cases h with
  | noEntry hhistory =>
      simp [hhistory, ht, not_trapped_goingBack]
  | unexpected =>
      simp [Tracee.entering, Tracee.arrive, ht, not_trapped_goingBack]

theorem TurnFails.not_trapped {e : ReplayError} (h : TurnFails self w i call t e t')
    (ht : ¬Trapped t.history) : ¬Trapped t'.history := by
  cases h with
  | entry h =>
      exact h.not_trapped ht
  | stdout h =>
      exact h.not_trapped ht (by simp)
  | unwritable h =>
      exact h.not_trapped ht (by simp)
  | exits h =>
      exact h.not_trapped ht (by simp)
  | otherValue h =>
      exact h.not_trapped ht (by simp)

/-- In a world without the signal none is delivered in any replay. -/
theorem World.NoSigtrap.sigtrapFree (hw : w.NoSigtrap) (self : Replayer) (before : UserState) :
    SigtrapFree self w before := by
  have hends : Ends (self.startReplaying w) (Tracee.init before)
      (fun _ t => ¬Trapped t.history) (fun _ t => ¬Trapped t.history) := by
    refine startReplaying_loop self w before (I := fun _ t => ¬Trapped t.history) ?_ ?_ ?_ ?_
    · exact fun _ _ => not_trapped_nil
    · intro t ht
      cases ht <;> exact not_trapped_nil
    · intro i call t hcall hready ht
      refine (hready.turn hw hcall).mono ?_ fun e t' hfails => hfails.not_trapped ht
      rintro _ t' ⟨u, hturn⟩
      obtain ⟨pass, v, hpass, hwithin⟩ := hturn.within
      exact ⟨hturn.readyFor, hwithin.not_trapped ht (by simp [hpass.not_trapped])⟩
    · intro t hready ht
      refine (hready.lastTurn hw).mono ?_ fun e t' hfails => hfails.not_trapped ht
      rintro status t' ⟨u, hlast⟩
      obtain ⟨rest, hrest, hhistory⟩ := hlast.history
      rcases hrest with rfl | ⟨v, rfl⟩ <;> simp [hhistory, ht, not_trapped_goingBack]
  unfold SigtrapFree
  cases hresult : self.startReplaying w (Tracee.init before) with
  | ok status t =>
      exact hends.of_ok hresult
  | error e t =>
      exact hends.of_error hresult

end NoSigtrap

end RrPython
