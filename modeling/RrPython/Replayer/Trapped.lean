import RrPython.Foundation.Relational
import RrPython.Replayer.Replayer

/-!
# Trapped — a delivered SIGTRAP is taken for a syscall stop

`creplayer.c` knows a syscall stop by its signal alone, so a `SIGTRAP` that reaches the tracee turns the
entries that follow into exits.  A replay to whose tracee none is delivered goes on as in a world
that has no such signal, `World.untrapped`; what is proved about replays in such a world holds of it.
-/

namespace RrPython

open Foundation Creplayer Replayer

/-- A `SIGTRAP` has been delivered to the tracee. -/
def Trapped (history : List TraceeEvent) : Prop :=
  ∃ u, TraceeEvent.trapped u ∈ history

@[simp] theorem not_trapped_nil : ¬Trapped [] := by
  simp [Trapped]

@[simp] theorem trapped_append {history events : List TraceeEvent} :
    Trapped (history ++ events) ↔ Trapped history ∨ Trapped events := by
  simp only [Trapped, List.mem_append, exists_or]

@[simp] theorem trapped_cons {e : TraceeEvent} {events : List TraceeEvent} :
    Trapped (e :: events) ↔ (∃ u, e = .trapped u) ∨ Trapped events := by
  simp only [Trapped, List.mem_cons, exists_or, eq_comm]

theorem Trapped.append {history : List TraceeEvent} (h : Trapped history) (events : List TraceeEvent) :
    Trapped (history ++ events) :=
  trapped_append.2 (Or.inl h)

/-- No `SIGTRAP` reaches the tracee. -/
def World.NoSigtrap (w : World) : Prop :=
  ∀ n u v, w.user n u ≠ .signal sigtrap v

/-- A signal that stops the tracee and does not look like a syscall stop. -/
def sigstop : Nat := 19

/-- The same world with another signal in the place of each `SIGTRAP`. -/
def World.untrapped (w : World) : World :=
  { w with
    user := fun n u =>
      match w.user n u with
      | .signal sig v => .signal (if sig = sigtrap then sigstop else sig) v
      | outcome => outcome }

/-! ## The world without the signal -/

section Untrapped

variable {w : World} {n : Nat} {u v : UserState}

theorem untrapped_noSigtrap (w : World) : w.untrapped.NoSigtrap := by
  intro n u v
  simp only [World.untrapped]
  cases w.user n u with
  | syscall u' =>
      exact fun heq => UserOutcome.noConfusion heq
  | signal sig u' =>
      dsimp only
      split_ifs with hsig
      · intro heq
        cases heq
      · intro heq
        cases heq
        exact hsig rfl
  | exits =>
      exact fun heq => UserOutcome.noConfusion heq

theorem untrapped_user (h : ∀ v, w.user n u ≠ .signal sigtrap v) :
    w.untrapped.user n u = w.user n u := by
  simp only [World.untrapped]
  cases huser : w.user n u with
  | syscall u' =>
      rfl
  | signal sig u' =>
      have hsig : sig ≠ sigtrap := by
        rintro rfl
        exact h u' huser
      simp only [if_neg hsig]
  | exits =>
      rfl

@[simp] theorem untrapped_user_syscall :
    w.untrapped.user n u = .syscall v ↔ w.user n u = .syscall v := by
  simp only [World.untrapped]
  cases w.user n u <;> simp

end Untrapped

/-! ## The same until a SIGTRAP -/

/-- The history only grows, so a `SIGTRAP` stays in it; a computation without one does what `y` does. -/
abbrev SameUntrapped {α : Type} (x y : ReplayM α) : Prop :=
  SameUnless (fun t : Tracee => Trapped t.history) x y

/-! ### Requests on the stopped tracee -/

section Requests

theorem modify_untrapped {g : Tracee → Tracee} (h : ∀ t, t.history <+: (g t).history) :
    SameUntrapped (modify g) (modify g) := by
  refine .modify fun t ht => ?_
  obtain ⟨events, hevents⟩ := h t
  exact hevents ▸ ht.append events

theorem checkStopped_untrapped : SameUntrapped checkStopped checkStopped :=
  SameUnless.get.bind fun _ => .ite (.pure _) (.throw _)

theorem ptraceGetRegs_untrapped : SameUntrapped ptraceGetRegs ptraceGetRegs :=
  checkStopped_untrapped.bind fun _ => SameUnless.get.bind fun _ => .pure _

theorem ptracePeekText_untrapped (addr : Word) :
    SameUntrapped (ptracePeekText addr) (ptracePeekText addr) := by
  refine checkStopped_untrapped.bind fun _ => SameUnless.get.bind fun t => ?_
  cases t.user.mem.load addr wordSize with
  | some bytes =>
      exact .pure _
  | none =>
      exact .throw _

/-- Whether it succeeds or not, it changes nothing but memory. -/
theorem ptracePokeData_untrapped (addr data : Word) :
    SameUntrapped (ptracePokeData addr data) (ptracePokeData addr data) := by
  refine .refl fun t ht => ?_
  by_cases h : t.Stopped
  · rw [ptracePokeData, bind_of_ok (checkStopped_ok h), get_bind]
    simp only [set_bind]
    split_ifs <;> exact ht
  · rw [ptracePokeData, bind_of_error (checkStopped_error h)]
    exact ht

theorem setRegistersInTracee_untrapped (values : List Int) :
    SameUntrapped (setRegistersInTracee values) (setRegistersInTracee values) := by
  refine .ite (.throw _) (ptraceGetRegs_untrapped.bind fun _ => ?_)
  exact checkStopped_untrapped.bind fun _ => modify_untrapped fun _ => List.prefix_rfl

theorem writeBufferToTracee_untrapped (words : Nat) (addr : Word) (buffer : List Byte) :
    SameUntrapped (writeBufferToTracee words addr buffer) (writeBufferToTracee words addr buffer) := by
  induction words generalizing addr buffer with
  | zero =>
      refine .ite ?_ (.pure _)
      exact (ptracePeekText_untrapped addr).bind fun _ => ptracePokeData_untrapped _ _
  | succ words ih =>
      exact (ptracePokeData_untrapped _ _).bind fun _ => ih _ _

theorem copyMemoryCopiesToTracee_untrapped (copies : List MemoryCopy) :
    SameUntrapped (copyMemoryCopiesToTracee copies) (copyMemoryCopiesToTracee copies) := by
  induction copies with
  | nil =>
      exact .pure _
  | cons c copies ih =>
      exact (writeBufferToTracee_untrapped _ _ _).bind fun _ => ih

theorem readFromTracee_untrapped (address length : Int) :
    SameUntrapped (readFromTracee address length) (readFromTracee address length) := by
  refine .refl fun t ht => ?_
  have hframe := readFromTracee_frame (t := t) address length
  cases hread : readFromTracee address length t with
  | ok buffer t' =>
      rw [hframe.of_ok hread]
      exact ht
  | error e t' =>
      rw [(hframe.of_error hread).2]
      exact ht

theorem constructRegisters_untrapped (values : List Int) :
    SameUntrapped (constructRegisters values) (constructRegisters values) := by
  unfold constructRegisters
  cases Registers.ofList values with
  | some registers =>
      exact .pure _
  | none =>
      exact .throw _

theorem getRegisters_untrapped : SameUntrapped getRegisters getRegisters :=
  (ptraceGetRegs_untrapped.bind fun _ => .pure _).bind constructRegisters_untrapped

end Requests

/-! ### Resuming -/

section Resuming

variable {w : World} {t t' : Tracee} {status : WaitStatus}

/-- Resuming adds to the history. -/
theorem ptraceSyscall_history (h : w.ptraceSyscall t = some (status, t')) :
    t.history <+: t'.history := by
  have huser : ∀ {t t' : Tracee} {status : WaitStatus}, w.runUser t = (status, t') →
      t.history <+: t'.history := by
    intro t t' status hrun
    unfold World.runUser at hrun
    split at hrun <;> cases hrun <;> exact List.prefix_append _ _
  unfold World.ptraceSyscall at h
  split at h
  · cases h
  · exact huser (Option.some.inj h)
  · have hrun := Option.some.inj h
    unfold World.runKernel at hrun
    split_ifs at hrun
    · cases hrun
      exact List.prefix_append _ _
    · split at hrun <;> cases hrun <;> exact List.prefix_append _ _
  · exact (List.prefix_append _ _).trans (huser (Option.some.inj h))
  · cases h

/-- A stop by a `SIGTRAP` is in the history; any other is the same in both worlds. -/
theorem runUser_untrapped (h : w.runUser t = (status, t')) (hfree : ¬Trapped t'.history) :
    w.untrapped.runUser t = (status, t') := by
  have hother : ∀ v, w.user t.clock t.user ≠ .signal sigtrap v := by
    intro v hv
    simp only [World.runUser, hv, if_true, Prod.mk.injEq] at h
    refine hfree ⟨v, ?_⟩
    rw [← h.2]
    exact List.mem_append_right _ List.mem_cons_self
  rw [← h]
  unfold World.runUser
  rw [untrapped_user hother]

theorem ptraceSyscall_untrapped (h : w.ptraceSyscall t = some (status, t'))
    (hfree : ¬Trapped t'.history) : w.untrapped.ptraceSyscall t = some (status, t') := by
  cases hstop : t.stop with
  | detached =>
      simp [World.ptraceSyscall, hstop] at h
  | signalled =>
      simp only [World.ptraceSyscall, hstop, Option.some.injEq] at h ⊢
      exact runUser_untrapped h hfree
  | syscallEntry nr =>
      simp only [World.ptraceSyscall, hstop] at h ⊢
      exact h
  | syscallExit =>
      simp only [World.ptraceSyscall, hstop, Option.some.injEq] at h ⊢
      exact runUser_untrapped h hfree
  | exited =>
      simp [World.ptraceSyscall, hstop] at h

theorem ptraceSyscall_none_untrapped (h : w.ptraceSyscall t = none) :
    w.untrapped.ptraceSyscall t = none := by
  cases hstop : t.stop <;> simp_all [World.ptraceSyscall]

theorem runUntil_untrapped (w : World) :
    SameUntrapped (runUntilEnterOrExitOfNextSyscall w) (runUntilEnterOrExitOfNextSyscall w.untrapped) := by
  -- where the request succeeds, the replayer ends in the state of the tracee at the stop
  have hend : ∀ {t t' : Tracee} {status : WaitStatus}, w.ptraceSyscall t = some (status, t') →
      endState (runUntilEnterOrExitOfNextSyscall w t) = t' := by
    intro t t' status h
    rw [runUntilEnterOrExitOfNextSyscall, get_bind, h]
    dsimp only
    rw [set_bind]
    cases status with
    | stopped sig =>
        dsimp only
        split_ifs <;> rfl
    | exited =>
        rfl
  refine ⟨fun t ht => ?_, fun t ht => ?_⟩
  · cases hrun : w.ptraceSyscall t with
    | none =>
        rw [runUntilEnterOrExitOfNextSyscall, get_bind, hrun]
        exact ht
    | some result =>
        obtain ⟨status, t'⟩ := result
        obtain ⟨events, hevents⟩ := ptraceSyscall_history hrun
        rw [hend hrun, ← hevents]
        exact ht.append events
  · cases hrun : w.ptraceSyscall t with
    | none =>
        simp only [runUntilEnterOrExitOfNextSyscall, get_bind, hrun, ptraceSyscall_none_untrapped hrun]
    | some result =>
        obtain ⟨status, t'⟩ := result
        rw [hend hrun] at ht
        simp only [runUntilEnterOrExitOfNextSyscall, get_bind, hrun, ptraceSyscall_untrapped hrun ht]

end Resuming

/-! ### The replay -/

section Replay

variable (self : Replayer) (w : World) (call : SystemCall) (registers : Registers)

theorem getNewRegisterValues_untrapped :
    SameUntrapped (getNewRegisterValuesForSystemCall call registers)
      (getNewRegisterValuesForSystemCall call registers) := by
  unfold getNewRegisterValuesForSystemCall SyscallHandlers.handler
  split_ifs
  · exact (constructRegisters_untrapped _).bind fun _ => .pure _
  · exact .pure _

theorem simulate_untrapped :
    SameUntrapped (simulateSystemCallForTracee w call registers)
      (simulateSystemCallForTracee w.untrapped call registers) := by
  refine (constructRegisters_untrapped _).bind fun _ => ?_
  refine (setRegistersInTracee_untrapped _).bind fun _ => ?_
  refine (runUntil_untrapped w).bind fun _ => ?_
  refine (copyMemoryCopiesToTracee_untrapped _).bind fun _ => ?_
  exact (constructRegisters_untrapped _).bind fun _ => setRegistersInTracee_untrapped _

theorem wrapAndRun_untrapped :
    SameUntrapped (wrapAndRunRealSystemCallInTracee w call registers)
      (wrapAndRunRealSystemCallInTracee w.untrapped call registers) := by
  refine (getNewRegisterValues_untrapped _ _).bind fun _ => ?_
  refine (setRegistersInTracee_untrapped _).bind fun _ => ?_
  refine (runUntil_untrapped w).bind fun _ => ?_
  exact getRegisters_untrapped.bind fun _ => .ite (.throw _) (.pure _)

theorem callStdoutCallback_untrapped :
    SameUntrapped (self.callStdoutCallbackIfRelevant call) (self.callStdoutCallbackIfRelevant call) := by
  unfold callStdoutCallbackIfRelevant
  cases self.stdoutCallback with
  | none =>
      exact .pure _
  | some callback =>
      refine .ite ?_ (.pure _)
      refine (readFromTracee_untrapped _ _).bind fun buffer => ?_
      refine (modify_untrapped fun _ => List.prefix_append _ _).bind fun _ => ?_
      exact SameUnless.get.bind fun _ => .ite (.pure _) (.throw _)

theorem replaySystemCall_untrapped (i : Nat) :
    SameUntrapped (self.replaySystemCall w i call) (self.replaySystemCall w.untrapped i call) := by
  refine (runUntil_untrapped w).bind fun _ => getRegisters_untrapped.bind fun registers => ?_
  refine SameUnless.bind (.ite (.throw _) (.pure _)) fun _ => ?_
  refine (modify_untrapped fun _ => List.prefix_append _ _).bind fun _ => ?_
  refine (callStdoutCallback_untrapped self call).bind fun _ => ?_
  have hdecide : SameUntrapped (self.decideWhetherToSimulate i) (self.decideWhetherToSimulate i) := by
    unfold decideWhetherToSimulate
    cases shouldSimulateSystemCall self.systemCalls i with
    | ok simulate =>
        exact .pure _
    | error e =>
        exact .throw _
  exact hdecide.bind fun _ => .ite (simulate_untrapped w call _) (wrapAndRun_untrapped w call _)

theorem getExitStatus_untrapped : SameUntrapped (getExitStatus w) (getExitStatus w.untrapped) := by
  refine (runUntil_untrapped w).bind fun _ => getRegisters_untrapped.bind fun _ => ?_
  exact .ite (.throw _) ((runUntil_untrapped w).bind fun _ => .pure _)

theorem attach_untrapped :
    SameUntrapped (attachToTraceeAndBegin w) (attachToTraceeAndBegin w.untrapped) := by
  show SameUntrapped (attachToTraceeAndBegin w) (attachToTraceeAndBegin w)
  unfold attachToTraceeAndBegin
  cases w.attach with
  | refused message =>
      exact .throw _
  | stopped u =>
      exact modify_untrapped fun _ => List.prefix_rfl
  | exited =>
      exact modify_untrapped fun _ => List.prefix_rfl

theorem startReplaying_sameUntrapped :
    SameUntrapped (self.startReplaying w) (self.startReplaying w.untrapped) := by
  refine (attach_untrapped w).bind fun _ => ?_
  refine (SameUnless.forEach (fun i call => replaySystemCall_untrapped self w call i) _ _).bind fun _ => ?_
  exact getExitStatus_untrapped w

/-- No `SIGTRAP` is delivered to the tracee during the replay. -/
def SigtrapFree (before : UserState) : Prop :=
  ¬Trapped (endState (self.startReplaying w (Tracee.init before))).history

/-- Such a replay is one of a world without the signal. -/
theorem startReplaying_untrapped {before : UserState} (hfree : SigtrapFree self w before) :
    self.startReplaying w (Tracee.init before) = self.startReplaying w.untrapped (Tracee.init before) :=
  (startReplaying_sameUntrapped self w).same _ hfree

theorem SigtrapFree.ends {self : Replayer} {w : World} {before : UserState} {post : Int → Tracee → Prop}
    {exc : ReplayError → Tracee → Prop} (hfree : SigtrapFree self w before)
    (h : Ends (self.startReplaying w.untrapped) (Tracee.init before) post exc) :
    Ends (self.startReplaying w) (Tracee.init before) post exc := by
  unfold Ends at h ⊢
  rwa [startReplaying_untrapped self w hfree]

end Replay

end RrPython
