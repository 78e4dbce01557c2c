import RrPython.Foundation.Relational
import RrPython.Replayer.Stdout
import RrPython.Replayer.Visits

/-!
# Virtual — the machine on which a replayed program believes to run

The replayer stops its tracee twice for each syscall, rewrites its registers and lets the kernel run
or skip the call.  Seen from inside there are no stops: a program enters a syscall and comes out of
it with the registers and the memory that the recording, or for a few calls the kernel, gives it.
`Virtual.replay` is that machine, one step for each syscall, and the replayer is proved to be an
implementation of it, except that it loses count where a `SIGTRAP` is delivered.
-/

namespace RrPython

open Foundation Creplayer Replayer

/-! ## The machine -/

/-- A program on the machine. -/
structure Guest where
  /-- Its registers and memory, unless it is gone. -/
  user : Option UserState
  /-- The states in which it has entered a syscall. -/
  entered : List UserState
  /-- What the stdout callback has been called with. -/
  shown : List (Option (List Byte))

def Guest.init : Guest where
  user := none
  entered := []
  shown := []

def Guest.setUser (p : Guest) (user : Option UserState) : Guest :=
  { p with user }

def Guest.enter (p : Guest) (u : UserState) : Guest :=
  { p with user := some u, entered := p.entered ++ [u] }

def Guest.handOver (p : Guest) (buffer : Option (List Byte)) : Guest :=
  { p with shown := p.shown ++ [buffer] }

instance (mem : ByteMemory) (copies : List MemoryCopy) : Decidable (CopiesWritable mem copies) :=
  inferInstanceAs (Decidable (∀ c ∈ copies, Writable mem c.toAddress c.buffer.length))

abbrev VirtualM := EStateM ReplayError Guest

namespace Virtual

/-- What reading memory gives, which changes nothing. -/
def read (mem : ByteMemory) (address length : Int) : Except ReplayError (Option (List Byte)) :=
  if length < -2 ^ 31 ∨ 2 ^ 31 ≤ length then .error .overflowError
  else if length < 0 then .ok none
  else if mem.Mapped (BitVec.ofInt 64 address) (coveredBytes length.toNat) then
    .ok (mem.load (BitVec.ofInt 64 address) length.toNat)
  else .error (.systemError inputOutputError)

/-- The program runs to its next syscall, having made `i` before. -/
def enter (w : World) (i : Nat) : VirtualM UserState := do
  let p ← get
  match p.user with
  | none => throw (.systemError noSuchProcess)
  | some u =>
      match w.user (2 * i) u with
      | .syscall u => do
          modify (Guest.enter · u)
          pure u
      | .signal _ _ => throw (.systemError "Pid stopped by signal")
      | .exits => throw (.systemError noSuchProcess)

def expect (num : Int) (u : UserState) : VirtualM Unit :=
  if num ≠ u.nr.toNat then throw (unexpectedSysCallException num u.nr.toNat) else pure ()

def showStdout (self : Replayer) (i : Nat) (call : SystemCall) (u : UserState) : VirtualM Unit :=
  match self.stdoutCallback with
  | none => pure ()
  | some callback =>
      if call.WritesStdout then
        match read u.mem (call.registers .rsi) (call.registers .rdx) with
        | .error e => throw e
        | .ok buffer => do
            modify (Guest.handOver · buffer)
            if callback (2 * i + 1) buffer then pure () else throw .callback
      else pure ()

/-- The recording's answer to the syscall. -/
def simulate (call : SystemCall) (u : UserState) : VirtualM Unit :=
  if CopiesWritable u.mem call.memoryCopies then
    modify (Guest.setUser · (some (simulatedUser u.mem call (PtRegs.toRegisters u.regs))))
  else throw (.systemError inputOutputError)

/-- The kernel's answer, to a call that is the program's but for where an mmap goes. -/
def run (w : World) (i : Nat) (call : SystemCall) (u : UserState) : VirtualM Unit :=
  match w.kernel (2 * i + 1) (u.wrapped call) with
  | .exits => throw (.systemError noSuchProcess)
  | .returns v =>
      if call.returnValue ≠ (v.regs .rax).toNat ∧ call.num ∉ sysCallsToIgnoreInValidation then
        throw (unexpectedSystemCallReturnValueException call.returnValue (v.regs .rax).toNat)
      else modify (Guest.setUser · (some v))

def answer (self : Replayer) (w : World) (i : Nat) (call : SystemCall) (u : UserState) :
    VirtualM Unit :=
  match shouldSimulateSystemCall self.systemCalls i with
  | .error e => throw (.shouldSimulate e)
  | .ok true => simulate call u
  | .ok false => run w i call u

/-- From one syscall to the end of the next. -/
def step (self : Replayer) (w : World) (i : Nat) (call : SystemCall) : VirtualM Unit := do
  let u ← enter w i
  expect call.num u
  showStdout self i call u
  answer self w i call u

/-- The kernel's part in `exit_group` shows nowhere. -/
def exitStatus (w : World) (n : Nat) : VirtualM Int := do
  let u ← enter w n
  expect exitGroupSysCall u
  pure (u.regs .rdi).toNat

def attach (w : World) : VirtualM Unit :=
  match w.attach with
  | .refused message => throw (.systemError message)
  | .stopped u => modify (Guest.setUser · (some u))
  | .exited => pure ()

def replay (self : Replayer) (w : World) : VirtualM Int := do
  attach w
  forEach (step self w) 0 self.systemCalls
  exitStatus w self.systemCalls.length

end Virtual

/-! ## The tracee as a guest -/

/-- What the machine has of a tracee between two calls. -/
def Tracee.guest (t : Tracee) : Guest where
  user := if t.stop = .exited then none else some t.user
  entered := entries t.history
  shown := stdoutBuffers t.history

/-- The tracee and the guest have entered the same syscalls in the same states, and the same has been
shown of both. -/
def SameTrace (t : Tracee) (p : Guest) : Prop :=
  p.entered = entries t.history ∧ p.shown = stdoutBuffers t.history

namespace Virtual

section Simulation

variable {self : Replayer} {w : World} {t : Tracee} {p : Guest} {i : Nat} {call : SystemCall}
  {u : UserState}

/-- The replayer reads what the machine reads. -/
theorem readFromTracee_eq (h : t.Stopped) (address length : Int) :
    readFromTracee address length t =
      match read t.user.mem address length with
      | .ok buffer => .ok buffer t
      | .error e => .error e t := by
  unfold readFromTracee read
  split_ifs with hint hneg hmapped
  · rfl
  · rfl
  · obtain ⟨bytes, hload, hread⟩ := readBufferFromTracee_ok h rfl hmapped
    rw [bind_of_ok hread, hload]
    rfl
  · rw [bind_of_error (readBufferFromTracee_error h rfl hmapped)]

theorem stdoutBuffers_goingBack (t : Tracee) : stdoutBuffers t.goingBack = [] := by
  unfold Tracee.goingBack
  split <;> rfl

/-- Both go on to the next syscall, and both find the same registers there. -/
theorem enter_alike {α β : Type} (hready : t.ReadyFor i) (hw : w.NoSigtrap) {next : Registers → ReplayM α}
    {next' : UserState → VirtualM β} {post : α → Tracee → β → Guest → Prop}
    (hnext : ∀ u, w.user (2 * i) t.user = .syscall u →
      Alike post SameTrace (next (PtRegs.toRegisters u.regs) (t.entering u))
        (next' u (t.guest.enter u))) :
    Alike post SameTrace
      ((do
        runUntilEnterOrExitOfNextSyscall w
        let registers ← getRegisters
        next registers : ReplayM α) t)
      ((enter w i >>= next') t.guest) := by
  by_cases hexited : t.stop = .exited
  · have hgone : ¬t.Stopped := by
      simp [Tracee.Stopped, hexited]
    have hguest : enter w i t.guest = .error (.systemError noSuchProcess) t.guest := by
      simp only [enter, get_bind, Tracee.guest, hexited, if_pos]
      rfl
    rw [bind_of_error (runUntil_error hgone), bind_of_error hguest]
    exact ⟨rfl, rfl, rfl⟩
  · have hstop : t.stop = .signalled ∨ t.stop = .syscallExit :=
      hready.stop.imp id fun hstop => hstop.resolve_left hexited
    have henter : enter w i t.guest =
        (match w.user (2 * i) t.user with
        | .syscall u => do
            modify (Guest.enter · u)
            pure u
        | .signal _ _ => throw (.systemError "Pid stopped by signal")
        | .exits => throw (.systemError noSuchProcess) : VirtualM UserState) t.guest := by
      simp only [enter, get_bind, Tracee.guest, hexited, if_false]
    have hclock := hready.clock
    cases huser : w.user (2 * i) t.user with
    | syscall u =>
        rw [huser] at henter
        have hrun := runUntil_syscall hstop (hclock ▸ huser)
        have hguest : enter w i t.guest = .ok u (t.guest.enter u) := henter
        rw [bind_of_ok hrun, bind_of_ok (getRegisters_ok (Tracee.stopped_syscallEntry rfl)),
          bind_of_ok hguest]
        exact hnext u huser
    | signal sig u =>
        have hsig : sig ≠ sigtrap := by
          rintro rfl
          exact hw _ _ _ huser
        rw [huser] at henter
        have hrun := runUntil_signal hstop hsig (hclock ▸ huser)
        have hguest : enter w i t.guest = .error (.systemError "Pid stopped by signal") t.guest := henter
        rw [bind_of_error hrun, bind_of_error hguest]
        refine ⟨rfl, ?_, ?_⟩
        · simp [Tracee.guest, Tracee.arrive, entries_goingBack]
        · simp [Tracee.guest, Tracee.arrive, stdoutBuffers_goingBack]
    | exits =>
        rw [huser] at henter
        have hrun := runUntil_exits hstop (hclock ▸ huser)
        have hguest : enter w i t.guest = .error (.systemError noSuchProcess) t.guest := henter
        have hgone : ¬(t.arrive .exited t.user t.goingBack).Stopped := by
          simp [Tracee.Stopped, Tracee.arrive]
        rw [bind_of_ok hrun, bind_of_error (getRegisters_error hgone), bind_of_error hguest]
        refine ⟨rfl, ?_, ?_⟩
        · simp [Tracee.guest, Tracee.arrive, entries_goingBack]
        · simp [Tracee.guest, Tracee.arrive, stdoutBuffers_goingBack]

/-- The tracee is at the entry of the syscall that the guest has entered after `i` others. -/
structure Inside (i : Nat) (u : UserState) (t : Tracee) (p : Guest) : Prop where
  stop : t.stop = .syscallEntry u.nr
  user : t.user = u
  clock : t.clock = 2 * i + 1
  trace : SameTrace t p

theorem inside_enter (hready : t.ReadyFor i) (u : UserState) :
    Inside i u (t.entering u) (t.guest.enter u) := by
  refine ⟨rfl, rfl, ?_, ?_, ?_⟩
  · rw [← hready.clock]
    rfl
  · simp [Tracee.entering, Tracee.arrive, Tracee.guest, Guest.enter, entries_goingBack]
  · have hnone : stdoutBuffers (t.goingBack ++ [.entered u]) = [] := by
      rw [stdoutBuffers_append, stdoutBuffers_goingBack]
      rfl
    simp [Tracee.entering, Tracee.arrive, Tracee.guest, Guest.enter, hnone]

/-- What is no entry and nothing shown may happen to the tracee alone. -/
theorem SameTrace.log (h : SameTrace t p) {t' : Tracee} {events : List TraceeEvent}
    (hhistory : t'.history = t.history ++ events) (hentries : entries events = [])
    (hbuffers : stdoutBuffers events = []) : SameTrace t' p := by
  obtain ⟨hentered, hshown⟩ := h
  refine ⟨?_, ?_⟩
  · rw [hhistory, entries_append, hentries, List.append_nil, hentered]
  · rw [hhistory, stdoutBuffers_append, hbuffers, List.append_nil, hshown]

theorem showStdout_alike (h : Inside i u t p) :
    Alike (fun _ t' _ p' => Inside i u t' p') SameTrace (self.callStdoutCallbackIfRelevant call t)
      (showStdout self i call u p) := by
  have hread := readFromTracee_eq (Tracee.stopped_syscallEntry h.stop) (call.registers .rsi)
    (call.registers .rdx)
  rw [h.user] at hread
  unfold callStdoutCallbackIfRelevant showStdout
  cases self.stdoutCallback with
  | none =>
      exact h
  | some callback =>
      dsimp only
      by_cases hwrites : call.WritesStdout
      · have hwrites' : call.num = writeSysCall ∧ call.registers .rdi = 1 := hwrites
        rw [if_pos hwrites, if_pos hwrites']
        cases hbuffer : read u.mem (call.registers .rsi) (call.registers .rdx) with
        | error e =>
            rw [hbuffer] at hread
            rw [bind_of_error hread]
            exact ⟨rfl, h.trace⟩
        | ok buffer =>
            rw [hbuffer] at hread
            have htrace : SameTrace (t.log [.stdout buffer]) (p.handOver buffer) := by
              obtain ⟨hentered, hshown⟩ := h.trace
              refine ⟨?_, ?_⟩
              · simp [Guest.handOver, hentered, entries]
              · simp [Guest.handOver, hshown, stdoutBuffers]
            have hclock : (t.log [.stdout buffer]).clock = 2 * i + 1 := h.clock
            rw [bind_of_ok hread, modify_bind, get_bind, hclock]
            dsimp only
            rw [modify_bind]
            cases callback (2 * i + 1) buffer with
            | true =>
                exact ⟨h.stop, h.user, hclock, htrace⟩
            | false =>
                exact ⟨rfl, htrace⟩
      · have hwrites' : ¬(call.num = writeSysCall ∧ call.registers .rdi = 1) := hwrites
        rw [if_neg hwrites, if_neg hwrites']
        exact h

/-- The state after a call. -/
theorem guest_setUser (htrace : SameTrace t p) (hstop : t.stop = .syscallExit) :
    p.setUser (some t.user) = t.guest := by
  obtain ⟨hentered, hshown⟩ := htrace
  simp [Guest.setUser, Tracee.guest, hstop, hentered, hshown]

theorem simulate_alike (h : Inside i u t p) :
    Alike (fun _ t' _ p' => t'.ReadyFor (i + 1) ∧ p' = t'.guest) SameTrace
      (simulateSystemCallForTracee w call (PtRegs.toRegisters u.regs) t) (simulate call u p) := by
  have hmem : t.user.mem = u.mem := congrArg UserState.mem h.user
  have hclock : t.clock + 1 = 2 * (i + 1) := by
    have hclock := h.clock
    omega
  have htrace : ∀ {t' : Tracee} {v : UserState},
      t'.history = t.history ++ [.skipped u.nr (-5), .left v] → SameTrace t' p :=
    fun hhistory => SameTrace.log h.trace hhistory rfl rfl
  unfold simulate
  by_cases hwritable : CopiesWritable u.mem call.memoryCopies
  · rw [if_pos hwritable, simulate_ok h.stop _ (hmem ▸ hwritable), hmem]
    have hguest := guest_setUser
      (t := { afterInvalidSysCall t u.nr (PtRegs.toRegisters u.regs) with
        user := simulatedUser u.mem call (PtRegs.toRegisters u.regs) })
      (htrace (v := (afterInvalidSysCall t u.nr (PtRegs.toRegisters u.regs)).user) rfl) rfl
    exact ⟨⟨Or.inr (Or.inr rfl), hclock⟩, hguest⟩
  · obtain ⟨mem, herror⟩ := simulate_error (w := w) h.stop (PtRegs.toRegisters u.regs)
      (hmem ▸ hwritable)
    rw [if_neg hwritable, herror]
    exact ⟨rfl, htrace rfl⟩

theorem run_alike (h : Inside i u t p) (hmsb : u.nr.msb = false) :
    Alike (fun _ t' _ p' => t'.ReadyFor (i + 1) ∧ p' = t'.guest) SameTrace
      (wrapAndRunRealSystemCallInTracee w call (PtRegs.toRegisters u.regs) t) (run w i call u p) := by
  obtain ⟨hstop, rfl, hclock, htrace⟩ := h
  unfold run
  cases hkernel : w.kernel (2 * i + 1) (t.user.wrapped call) with
  | exits =>
      rw [wrapAndRun_exits hstop hmsb (hclock ▸ hkernel)]
      exact ⟨rfl, SameTrace.log htrace rfl rfl rfl⟩
  | returns v =>
      have htrace' : SameTrace (t.arrive .syscallExit v [.executed t.user.nr t.user.nr, .left v]) p :=
        SameTrace.log htrace rfl rfl rfl
      rw [wrapAndRun_returns hstop hmsb (hclock ▸ hkernel)]
      unfold raiseOnUnexpectedReturnValue
      by_cases hvalue : call.returnValue ≠ (v.regs .rax).toNat ∧ call.num ∉ sysCallsToIgnoreInValidation
      · have hvalue' : call.returnValue ≠ PtRegs.toRegisters v.regs .rax ∧
            call.num ∉ sysCallsToIgnoreInValidation := hvalue
        rw [if_pos hvalue']
        dsimp only
        rw [if_pos hvalue]
        exact ⟨rfl, htrace'⟩
      · have hvalue' : ¬(call.returnValue ≠ PtRegs.toRegisters v.regs .rax ∧
            call.num ∉ sysCallsToIgnoreInValidation) := hvalue
        rw [if_neg hvalue']
        dsimp only
        rw [if_neg hvalue]
        refine ⟨⟨Or.inr (Or.inr rfl), ?_⟩, guest_setUser htrace' rfl⟩
        show t.clock + 1 = 2 * (i + 1)
        omega

/-- A turn of the loop is one step of the machine. -/
theorem step_alike (hready : t.ReadyFor i) (hw : w.NoSigtrap)
    (hcall : self.systemCalls[i]? = some call) :
    Alike (fun _ t' _ p' => t'.ReadyFor (i + 1) ∧ p' = t'.guest) SameTrace
      (self.replaySystemCall w i call t) (step self w i call t.guest) := by
  refine enter_alike hready hw fun u _ => ?_
  have hinside := inside_enter hready u
  unfold expect
  by_cases hnum : call.num = u.nr.toNat
  · rw [bind_of_ok (raiseOnUnexpectedState_ok hnum), modify_bind, if_neg (not_not_intro hnum)]
    have hconsumed : Inside i u ((t.entering u).log [.consumed call]) (t.guest.enter u) :=
      ⟨rfl, rfl, hinside.clock, SameTrace.log hinside.trace rfl rfl rfl⟩
    show Alike _ _ _ ((showStdout self i call u >>= _) (t.guest.enter u))
    refine (showStdout_alike hconsumed).bind fun _ t' _ p' hinside' => ?_
    unfold answer
    rcases shouldSimulateSystemCall_cases hcall with ⟨hdecision, _⟩ | ⟨hdecision, hreal⟩
    · rw [bind_of_ok (decideWhetherToSimulate_ok hdecision), hdecision]
      exact simulate_alike hinside'
    · rw [bind_of_ok (decideWhetherToSimulate_ok hdecision), hdecision]
      exact run_alike hinside' (hreal.msb hnum)
  · rw [bind_of_error (raiseOnUnexpectedState_error hnum), if_pos hnum]
    exact ⟨rfl, hinside.trace⟩

/-- The last turn lets the guest through `exit_group`. -/
theorem exitStatus_alike (hready : t.ReadyFor i) (hw : w.NoSigtrap) :
    Alike (fun status t' status' p' => status = status' ∧ SameTrace t' p') SameTrace
      (getExitStatus w t) (exitStatus w i t.guest) := by
  refine enter_alike hready hw fun u _ => ?_
  have hinside := inside_enter hready u
  unfold expect
  by_cases hnum : exitGroupSysCall = u.nr.toNat
  · have hsame : ¬Registers.sysCall (PtRegs.toRegisters u.regs) ≠ exitGroupSysCall :=
      fun hne => hne hnum.symm
    have hmsb : (t.entering u).user.nr.msb = false := by
      show u.nr.msb = false
      rw [BitVec.msb_eq_false_iff_two_mul_lt]
      unfold exitGroupSysCall at hnum
      omega
    rw [if_neg hsame, if_neg (not_not_intro hnum)]
    rcases runUntil_executed (w := w) hinside.stop hmsb with ⟨v, hrun⟩ | hrun
    · rw [bind_of_ok hrun]
      exact ⟨rfl, SameTrace.log hinside.trace rfl rfl rfl⟩
    · rw [bind_of_ok hrun]
      exact ⟨rfl, SameTrace.log hinside.trace rfl rfl rfl⟩
  · have hother : Registers.sysCall (PtRegs.toRegisters u.regs) ≠ exitGroupSysCall :=
      fun hsame => hnum hsame.symm
    rw [if_pos hother, if_pos hnum]
    exact ⟨rfl, hinside.trace⟩

theorem attach_alike (before : UserState) :
    Alike (fun _ t _ p => t.ReadyFor 0 ∧ p = t.guest) SameTrace
      (attachToTraceeAndBegin w (Tracee.init before)) (attach w Guest.init) := by
  unfold attach
  cases hattach : w.attach with
  | refused message =>
      rw [attach_refused hattach]
      exact ⟨rfl, rfl, rfl⟩
  | stopped u =>
      rw [attach_stopped hattach]
      exact ⟨⟨Or.inl rfl, rfl⟩, rfl⟩
  | exited =>
      rw [attach_exited hattach]
      exact ⟨⟨Or.inr (Or.inl rfl), rfl⟩, rfl⟩

theorem replay_alike (self : Replayer) (hw : w.NoSigtrap) (before : UserState) :
    Alike (fun status t status' p => status = status' ∧ SameTrace t p) SameTrace
      (self.startReplaying w (Tracee.init before)) (replay self w Guest.init) := by
  refine (attach_alike before).bind ?_
  rintro _ t _ _ ⟨hready, rfl⟩
  have hloop : Alike (fun _ t' _ p' => t'.ReadyFor (0 + self.systemCalls.length) ∧ p' = t'.guest)
      SameTrace (forEach (self.replaySystemCall w) 0 self.systemCalls t)
      (forEach (step self w) 0 self.systemCalls t.guest) := by
    refine Alike.forEach (I := fun i t p => Tracee.ReadyFor t i ∧ p = t.guest) ?_ List.drop_zero
      ⟨hready, rfl⟩
    rintro i call t _ hcall ⟨hready, rfl⟩
    exact step_alike hready hw hcall
  refine hloop.bind ?_
  rintro _ t' _ _ ⟨hready', rfl⟩
  rw [Nat.zero_add] at hready'
  exact exitStatus_alike hready' hw

/-- A signal is a signal to the machine. -/
theorem enter_untrapped (w : World) (i : Nat) : enter w.untrapped i = enter w i := by
  funext p
  simp only [enter, get_bind]
  cases p.user with
  | none =>
      rfl
  | some u =>
      simp only [World.untrapped]
      cases w.user (2 * i) u <;> rfl

theorem replay_untrapped (self : Replayer) (w : World) : replay self w.untrapped = replay self w := by
  have hstep : step self w.untrapped = step self w := by
    funext i call
    simp only [step, enter_untrapped]
    rfl
  simp only [replay, exitStatus, hstep, enter_untrapped]
  rfl

end Simulation

end Virtual

theorem SigtrapFree.alike {self : Replayer} {w : World} {before : UserState}
    (hfree : SigtrapFree self w before) :
    Alike (fun status t status' p => status = status' ∧ SameTrace t p) SameTrace
      (self.startReplaying w (Tracee.init before)) (Virtual.replay self w Guest.init) := by
  rw [startReplaying_untrapped self w hfree, ← Virtual.replay_untrapped self w]
  exact Virtual.replay_alike self (untrapped_noSigtrap w) before

/-- A replay without a delivered `SIGTRAP` is a run of the machine: it returns the status that the machine
returns or raises what the machine raises, and up to there the tracee has entered the same syscalls in the
same states, and the callback has been called with the same buffers. -/
theorem startReplaying_virtual {self : Replayer} {w : World} {before : UserState}
    (hfree : SigtrapFree self w before) :
    outcome (self.startReplaying w (Tracee.init before)) = outcome (Virtual.replay self w Guest.init) ∧
      SameTrace (endState (self.startReplaying w (Tracee.init before)))
        (endState (Virtual.replay self w Guest.init)) :=
  ⟨hfree.alike.outcome_eq fun _ _ _ _ h => h.1, hfree.alike.endState fun _ _ _ _ h => h.2⟩

/-- The two reads of the recording are two steps of the machine. -/
theorem startReplaying_virtual_twoReads :
    outcome (readsReplayer.startReplaying readsWorld (Tracee.init bareUser)) =
        outcome (Virtual.replay readsReplayer readsWorld Guest.init) ∧
      SameTrace (endState (readsReplayer.startReplaying readsWorld (Tracee.init bareUser)))
        (endState (Virtual.replay readsReplayer readsWorld Guest.init)) :=
  startReplaying_virtual (noSigtrap_readsWorld.sigtrapFree readsReplayer bareUser)

end RrPython
