import RrPython.Pipeline.Session
import RrPython.Replayer.Visits

/-!
# DeterministicReplay — a replay repeats the recorded execution

The replayer puts a tracee that runs the recorded program through the recorded rounds.  As long as it
can write the recorded copies, the tracee leaves each syscall in the state in which the process left
it, so its program takes it to the same next syscall.  Writing a copy goes word by word and needs the
whole of the last word; where a copy ends just before unmapped memory, the replay stops.
-/

namespace RrPython

open Foundation Creplayer Replayer

/-- The replay has come to its end, and has taken the tracee through the exits. -/
def Reproduces (exits : List UserState) : EStateM.Result ReplayError Tracee Int → Prop
  | .ok _ t => returned t.history = exits
  | .error _ _ => False

/-- The tracee is stopped with `user` and then runs the program. -/
structure Runs (program : Program) (user : UserState) (w : World) : Prop where
  attach : w.attach = .stopped user
  user : ∀ n u, w.user n u = .syscall (program u)

/-- From syscall to syscall there is no signal. -/
theorem Runs.noSigtrap {program : Program} {user : UserState} {w : World} (h : Runs program user w) :
    w.NoSigtrap := by
  intro n u v heq
  rw [h.user] at heq
  cases heq

namespace Round

/-- All words that a copy of the round covers, the last one as a whole, are mapped in the process. -/
def WordsMapped (r : Round) : Prop :=
  ∀ c ∈ r.copies, r.entry.mem.Mapped c.toAddr (coveredBytes c.bytes.length)

/-- No copy is too long for an `int`. -/
def Short (r : Round) : Prop :=
  ∀ c ∈ r.copies, c.bytes.length < 2 ^ 31

theorem memoryCopies_systemCall (p : Pid) (r : Round) :
    (r.systemCall p).memoryCopies = r.copies.map CopyRecord.toMemoryCopy := rfl

theorem num_systemCall (p : Pid) (r : Round) : (r.systemCall p).num = r.entry.nr.toNat := rfl

theorem writable_toMemoryCopy {c : CopyRecord} (hc : c.bytes.length < 2 ^ 31) (mem : ByteMemory) :
    Writable mem c.toMemoryCopy.toAddress c.toMemoryCopy.buffer.length ↔
      mem.Mapped c.toAddr (coveredBytes c.bytes.length) := by
  simp only [Writable, CopyRecord.toMemoryCopy, ofInt_toNat, intLength_small hc]

theorem written_toMemoryCopy {c : CopyRecord} (hc : c.bytes.length < 2 ^ 31) (mem : ByteMemory) :
    written mem c.toMemoryCopy.toAddress c.toMemoryCopy.buffer = c.apply mem := by
  simp only [written, CopyRecord.toMemoryCopy, ofInt_toNat, intLength_small hc, List.take_length,
    CopyRecord.apply]

theorem copiesWritable_iff {r : Round} (p : Pid) (hshort : r.Short) :
    CopiesWritable r.entry.mem (r.systemCall p).memoryCopies ↔ r.WordsMapped := by
  rw [memoryCopies_systemCall, CopiesWritable, List.forall_mem_map]
  exact forall₂_congr fun c hc => writable_toMemoryCopy (hshort c hc) r.entry.mem

theorem appliedCopies_eq {cs : List CopyRecord} (hshort : ∀ c ∈ cs, c.bytes.length < 2 ^ 31)
    (mem : ByteMemory) :
    appliedCopies mem (cs.map CopyRecord.toMemoryCopy) = cs.foldl CopyRecord.apply mem := by
  induction cs generalizing mem with
  | nil =>
      rfl
  | cons c cs ih =>
      have hhead := written_toMemoryCopy (hshort c (by simp)) mem
      rw [List.map_cons, List.foldl_cons, ← hhead]
      exact ih (fun c' hc' => hshort c' (by simp [hc'])) _

/-- Simulating the recorded call of a round turns its entry into its exit. -/
theorem simulatedUser_eq {r : Round} (p : Pid) (hexplained : r.Explained) (hshort : r.Short) :
    simulatedUser r.entry.mem (r.systemCall p) (PtRegs.toRegisters r.entry.regs) = r.exit := by
  have hregs := simulatedUser_regs r.entry.mem (TracedSyscall.record p r.traced) r.entry.regs
  have hmem : (simulatedUser r.entry.mem (r.systemCall p) (PtRegs.toRegisters r.entry.regs)).mem =
      applyItems r.entry.mem r.items := by
    rw [simulatedUser, memoryCopies_systemCall]
    exact appliedCopies_eq hshort r.entry.mem
  rw [hexplained, ← hmem]
  exact congrArg (fun regs => UserState.mk regs _) hregs

end Round

/-! ## One round -/

/-- What the two sides of a replay agree on beforehand: `rounds` is an execution of the program from
`user` up to its `exit_group`, and the calls recorded of it are all to be simulated. -/
structure Replayable (program : Program) (user : UserState) (p : Pid) (rounds : List Round) : Prop where
  alternates : Alternates program Round.entry Round.exit user rounds
  explained : ∀ r ∈ rounds, r.Explained
  short : ∀ r ∈ rounds, r.Short
  exits : (program (lastExit Round.exit user rounds)).nr = Kernel.nrExitGroup
  simulated : ∀ i < rounds.length,
    shouldSimulateSystemCall (rounds.map (Round.systemCall p)) i = .ok true

/-- The replayer of the recorded calls, without a callback. -/
def replayerOf (p : Pid) (rounds : List Round) : Replayer where
  systemCalls := rounds.map (Round.systemCall p)
  stdoutCallback := none

/-- The tracee has been taken through the first `n` rounds, and is where they left the process. -/
structure TakenThrough (user : UserState) (rounds : List Round) (n : Nat) (t : Tracee) : Prop where
  stop : t.stop = .signalled ∨ t.stop = .syscallExit
  user : t.user = lastExit Round.exit user (rounds.take n)
  exits : returned (t.history ++ t.goingBack) = (rounds.take n).map Round.exit
  mapped : ∀ r ∈ rounds.take n, r.WordsMapped

section Replay

variable {program : Program} {user : UserState} {p : Pid} {rounds : List Round} {w : World}
  {t : Tracee} {n : Nat}

/-- The program of the tracee takes it to the entry that comes next in the execution. -/
theorem TakenThrough.entered (h : TakenThrough user rounds n t) (hw : Runs program user w) :
    w.user (2 * n) t.user = .syscall (program (lastExit Round.exit user (rounds.take n))) := by
  rw [hw.user, h.user]

/-- It cannot fail to get there. -/
theorem TakenThrough.not_entryFails (h : TakenThrough user rounds n t) (hw : Runs program user w)
    {expected : Int}
    (hnum : expected = (program (lastExit Round.exit user (rounds.take n))).nr.toNat)
    {e : ReplayError} {t' : Tracee} (hfails : EntryFails w n expected t e t') : False := by
  cases hfails with
  | noEntry _ hnone =>
      rcases hnone with hexited | hnone
      · rcases h.stop with hstop | hstop <;> rw [hstop] at hexited <;> cases hexited
      · exact hnone _ (h.entered hw)
  | unexpected huser hother =>
      rw [h.entered hw] at huser
      cases huser
      exact hother hnum

section Round

variable {r : Round}

/-- The next call is that of the round, and the tracee enters it as the process did. -/
theorem TakenThrough.entry_eq (h : TakenThrough user rounds n t) (hw : Runs program user w)
    (hreplay : Replayable program user p rounds) (hr : rounds[n]? = some r) {u : UserState}
    {rest : List TraceeEvent} {t' : Tracee} (hwithin : Within w n (r.systemCall p) t u rest t') :
    u = r.entry := by
  have huser := hwithin.user
  rw [h.entered hw] at huser
  cases huser
  exact (hreplay.alternates.entry_eq hr).symm

theorem Replayable.not_runsForReal (hreplay : Replayable program user p rounds)
    (hr : rounds[n]? = some r) : ¬RunsForReal (rounds.map (Round.systemCall p)) n (r.systemCall p) := by
  intro hreal
  have hcall : (rounds.map (Round.systemCall p))[n]? = some (r.systemCall p) := by
    rw [List.getElem?_map, hr]
    rfl
  have hdecision := (runsForReal_iff hcall).1 hreal
  rw [hreplay.simulated n (List.getElem?_eq_some_iff.1 hr).1] at hdecision
  cases hdecision

/-- A turn of the loop takes the tracee through one more round. -/
theorem TakenThrough.turn (h : TakenThrough user rounds n t) (hw : Runs program user w)
    (hreplay : Replayable program user p rounds) (hr : rounds[n]? = some r) {u : UserState} {t' : Tracee}
    (hturn : Turn (rounds.map (Round.systemCall p)) w n (r.systemCall p) t u t') :
    TakenThrough user rounds (n + 1) t' := by
  have hmem := List.mem_of_getElem? hr
  have hshort := hreplay.short r hmem
  obtain ⟨pass, v, hpass, hwithin⟩ := hturn.within
  obtain rfl := h.entry_eq hw hreplay hr hwithin
  have htake : rounds.take (n + 1) = rounds.take n ++ [r] := by
    rw [List.take_add_one, hr]
    rfl
  -- the simulation ends in the exit of the round, and its copies can be written
  have hexit : t'.user = r.exit ∧ r.WordsMapped := by
    have heffect := hturn.effect
    generalize t'.user = u at heffect
    cases heffect with
    | simulated _ hwritable =>
        exact ⟨Round.simulatedUser_eq p (hreplay.explained r hmem) hshort,
          (Round.copiesWritable_iff p hshort).1 hwritable⟩
    | real hreal _ _ =>
        exact absurd hreal (hreplay.not_runsForReal hr)
  refine ⟨Or.inr hturn.stop, ?_, ?_, ?_⟩
  · rw [htake, lastExit_concat]
    exact hexit.1
  · -- the new exit is the only thing that has returned since
    have hnone : returned [pass, .left v] = [] := by
      cases hpass <;> rfl
    obtain ⟨behind, _, hreturned, hhistory⟩ := hwithin.behindEntry (by cases hpass <;> rfl) hnone
    have hback : t'.goingBack = [.returned t'.user] := by
      simp [Tracee.goingBack, hturn.stop]
    have hone : returned (.entered r.entry :: behind) = [] := hreturned
    rw [htake, List.map_append, ← h.exits, hback, hhistory, returned_append, returned_append, hone,
      hexit.1, List.append_nil]
    rfl
  · intro r' hr'
    rw [htake] at hr'
    rcases List.mem_append.1 hr' with hr' | hr'
    · exact h.mapped r' hr'
    · exact List.mem_singleton.1 hr' ▸ hexit.2

/-- A turn fails only at a copy that cannot be written. -/
theorem TakenThrough.turnFails (h : TakenThrough user rounds n t) (hw : Runs program user w)
    (hreplay : Replayable program user p rounds) (hr : rounds[n]? = some r) {e : ReplayError}
    {t' : Tracee} (hfails : TurnFails (replayerOf p rounds) w n (r.systemCall p) t e t') :
    ¬∀ r ∈ rounds, r.WordsMapped := by
  have hmem := List.mem_of_getElem? hr
  cases hfails with
  | entry hentry =>
      refine (h.not_entryFails hw ?_ hentry).elim
      rw [← hreplay.alternates.entry_eq hr]
      exact Round.num_systemCall p r
  | stdout _ hcallback =>
      exact absurd rfl hcallback
  | unwritable hwithin _ hunwritable =>
      obtain rfl := h.entry_eq hw hreplay hr hwithin
      exact fun hall => hunwritable ((Round.copiesWritable_iff p (hreplay.short r hmem)).2 (hall r hmem))
  | exits _ hreal =>
      exact absurd hreal (hreplay.not_runsForReal hr)
  | otherValue _ hreal =>
      exact absurd hreal (hreplay.not_runsForReal hr)

end Round

/-! ## Whole replays -/

/-- Behind the last round comes `exit_group`, and nothing returns from it. -/
theorem TakenThrough.lastTurn (h : TakenThrough user rounds rounds.length t) {u : UserState} {status : Int}
    {t' : Tracee} (hlast : LastTurn w rounds.length t u status t') :
    returned t'.history = rounds.map Round.exit ∧ ∀ r ∈ rounds, r.WordsMapped := by
  obtain ⟨rest, hrest, hhistory⟩ := hlast.history
  have hexits := h.exits
  have hmapped := h.mapped
  rw [List.take_length] at hexits hmapped
  refine ⟨?_, hmapped⟩
  have hnone : returned (.entered u :: .executed u.nr u.nr :: rest) = [] := by
    rcases hrest with rfl | ⟨v, rfl⟩ <;> rfl
  rw [hhistory, ← List.append_assoc, returned_append, hexits, hnone, List.append_nil]

/-- The replay goes through all rounds, or stops at a copy that it cannot write. -/
theorem replay_ends (hw : Runs program user w) (hreplay : Replayable program user p rounds)
    (before : UserState) :
    Ends ((replayerOf p rounds).startReplaying w) (Tracee.init before)
      (fun _ t => returned t.history = rounds.map Round.exit ∧ ∀ r ∈ rounds, r.WordsMapped)
      (fun _ _ => ¬∀ r ∈ rounds, r.WordsMapped) := by
  have hround : ∀ {i : Nat} {call : SystemCall}, (replayerOf p rounds).systemCalls[i]? = some call →
      ∃ r, rounds[i]? = some r ∧ r.systemCall p = call := by
    intro i call hcall
    simpa [replayerOf] using hcall
  have hlength : (replayerOf p rounds).systemCalls.length = rounds.length := by
    simp [replayerOf]
  refine startReplaying_rule _ w before (hw.noSigtrap.sigtrapFree _ before)
    (I := fun n t => TakenThrough user rounds n t) ?_ ?_ ?_ ?_ ?_ ?_
  · intro message hrefused
    rw [hw.attach] at hrefused
    cases hrefused
  · intro t ht
    cases ht with
    | stopped hattach =>
        rw [hw.attach] at hattach
        cases hattach
        exact ⟨Or.inl rfl, rfl, rfl, by simp⟩
    | exited hattach =>
        rw [hw.attach] at hattach
        cases hattach
  · intro i call t u t' hcall _ h hturn
    obtain ⟨r, hr, rfl⟩ := hround hcall
    exact h.turn hw hreplay hr hturn
  · intro i call t e t' hcall _ h hfails
    obtain ⟨r, hr, rfl⟩ := hround hcall
    exact h.turnFails hw hreplay hr hfails
  · intro t u status t' _ h hlast
    rw [hlength] at h hlast
    exact h.lastTurn hlast
  · intro t e t' _ h hfails
    rw [hlength] at h hfails
    refine (h.not_entryFails hw ?_ hfails).elim
    rw [List.take_length, hreplay.exits]
    rfl

theorem replay_reproduces_iff (hw : Runs program user w) (hreplay : Replayable program user p rounds)
    (before : UserState) :
    Reproduces (rounds.map Round.exit) ((replayerOf p rounds).startReplaying w (Tracee.init before)) ↔
      ∀ r ∈ rounds, r.WordsMapped := by
  have hends := replay_ends hw hreplay before
  cases hresult : (replayerOf p rounds).startReplaying w (Tracee.init before) with
  | ok status t =>
      obtain ⟨hreturned, hmapped⟩ := hends.of_ok hresult
      exact ⟨fun _ => hmapped, fun _ => hreturned⟩
  | error e t =>
      exact ⟨fun hnever => hnever.elim, fun hmapped => hends.of_error hresult hmapped⟩

end Replay

/-! ## Recording and replaying -/

theorem Session.Kept.replayable {program : Program} {p : Pid} {user : UserState} {S : Session}
    (h : S.Kept program p user) (hdone : S.Done) (hshort : ∀ r ∈ S.process.rounds, r.Short)
    (hsimulated : ∀ i < S.process.rounds.length,
      shouldSimulateSystemCall (S.process.rounds.map (Round.systemCall p)) i = .ok true) :
    Replayable program user p S.process.rounds := by
  obtain ⟨hin, hnr⟩ := hdone.exiting
  refine ⟨h.explained.rounds, h.explained.exits, hshort, ?_, hsimulated⟩
  rw [← (h.explained.inside hin).1]
  exact hnr

/-- Every session that is recorded without disturbance loads as the calls of its process.  If all of
them are to be simulated, replaying them on a tracee that starts in the same state with the same
program reproduces every exit exactly if all words covered by recorded copies are mapped. -/
theorem startReplaying_reproduces_iff {program : Program} {p : Pid} (hp : p ≠ 0)
    {taskPtRegs : Pid → PtRegs} {user : UserState} {es : List Event} {S : Session}
    (hrun : run (Session.step program p) (Session.init p taskPtRegs user) es = .ok S)
    (hadmits : AllSteps (Session.step program p) (Session.Admits program p)
      (Session.init p taskPtRegs user) es)
    (hdone : S.Done) (hshort : ∀ r ∈ S.process.rounds, r.Short) {w : World}
    (hw : Runs program user w) (before : UserState) :
    Loader.loadSystemCalls S.sys.delivered = .ok (S.process.rounds.map (Round.systemCall p), []) ∧
      ((∀ i < S.process.rounds.length,
          shouldSimulateSystemCall (S.process.rounds.map (Round.systemCall p)) i = .ok true) →
        (Reproduces (S.process.rounds.map Round.exit)
            ((replayerOf p S.process.rounds).startReplaying w (Tracee.init before)) ↔
          ∀ r ∈ S.process.rounds, r.WordsMapped)) := by
  have hkept := Session.kept_run hp hrun hadmits
  refine ⟨hkept.loads hdone.drained, fun hsimulated => ?_⟩
  exact replay_reproduces_iff hw (hkept.replayable hdone hshort hsimulated) before

/-! ### A read of one byte -/

/-- `read` first, then `exit_group`. -/
def readOnce : Program := fun u =>
  { u with regs := if u.regs .rcx = 0 then PtRegs.set u.regs .rcx 1 else PtRegs.set u.regs .origRax 231 }

/-- All registers are 0, and the page at 0x400000 is mapped. -/
def onePage : UserState where
  regs := fun _ => 0
  mem := fun a => if (a - 0x400000).toNat < 4096 then some 0 else none

def readEntry : PtRegs := PtRegs.set (fun _ => 0) .rcx 1

def readExit : PtRegs := PtRegs.set readEntry .rax 1

/-- Process 1 reads one byte into `addr`, calls `exit_group` and has its record read out. -/
def readByteInto (addr : Word) : List Event :=
  [.enterSyscall 1 readEntry (some 16), .enterWrite 1 .putUser1 (PtRegs.set (fun _ => 7) .rcx addr)
      (some 32), .exitWrite 1 0 (fun _ => 0), .exitSyscall 1 readExit,
    .enterSyscall 1 (PtRegs.set readExit .origRax 231) (some 48),
    .read { buf := 0, size := 4096, nonblock := true, signalPending := false, faults := [] }]

/-- A tracee that runs `readOnce` in one page. -/
def readingWorld : World where
  attach := .stopped onePage
  user := fun _ u => .syscall (readOnce u)
  kernel := fun _ _ => .exits

theorem runs_readingWorld : Runs readOnce onePage readingWorld :=
  ⟨rfl, fun _ _ => rfl⟩

set_option maxRecDepth 20000 in
theorem admits_readByteInto {addr : Word} (haddr : (addr - 0x400000).toNat < 4096) :
    AllSteps (Session.step readOnce 1) (Session.Admits readOnce 1)
      (Session.init 1 (fun _ _ => 0) onePage) (readByteInto addr) := by
  refine ⟨?_, fun S₁ h₁ => ⟨?_, fun S₂ h₂ => ⟨?_, fun S₃ h₃ => ⟨?_, fun S₄ h₄ => ⟨?_,
    fun S₅ h₅ => ⟨?_, fun _ _ => trivial⟩⟩⟩⟩⟩⟩
  · exact ⟨fun _ => rfl, fun _ => ⟨rfl, by decide⟩, by simp⟩
  · cases h₁
    exact ⟨fun _ => rfl, trivial, by simp⟩
  · cases h₁
    cases h₂
    refine ⟨trivial, fun _ fn regs rest hcalls => ?_, by simp⟩
    cases hcalls
    refine ⟨List.mem_singleton.2 rfl, rfl, fun _ => ByteMemory.mapped_succ.2 ⟨?_, ByteMemory.mapped_zero⟩⟩
    show (if (addr - 0x400000).toNat < 4096 then some 0 else none : Option Byte).isSome
    rw [if_pos haddr]
    rfl
  · cases h₁
    cases h₂
    cases h₃
    refine ⟨fun _ => Nat.le_of_ble_eq_true rfl, fun _ => ⟨?_, rfl⟩, by simp⟩
    show ¬Kernel.neverReturns (readEntry .origRax)
    decide
  · cases h₁
    cases h₂
    cases h₃
    cases h₄
    exact ⟨fun _ => rfl, fun _ => ⟨rfl, fun _ => rfl⟩, by simp⟩
  · cases h₁
    cases h₂
    cases h₃
    cases h₄
    cases h₅
    refine ⟨trivial, trivial, fun r hr => ?_⟩
    cases hr
    exact ⟨by simp [UserSpace.Reliable, ReadArgs.user], Nat.le_of_ble_eq_true rfl⟩

/-- The one round of `readByteInto addr`. -/
def readRound (addr : Word) : Round where
  entry := readOnce onePage
  exit := { regs := readExit, mem := onePage.mem.store addr [7] }
  items := [.write { fromAddr := 0, toAddr := addr, len := 1, bytes := [7] }]

set_option maxRecDepth 20000 in
theorem run_readByteInto (addr : Word) :
    ∃ S, run (Session.step readOnce 1) (Session.init 1 (fun _ _ => 0) onePage) (readByteInto addr) = .ok S ∧
      S.Done ∧ S.process.rounds = [readRound addr] :=
  ⟨_, rfl, ⟨⟨List.mem_singleton.2 rfl, rfl⟩, rfl⟩, rfl⟩

theorem short_readRound (addr : Word) : (readRound addr).Short := by
  simp [Round.Short, Round.copies, readRound, Item.copies]

theorem simulated_readRound (addr : Word) : ∀ i < [readRound addr].length,
    shouldSimulateSystemCall ([readRound addr].map (Round.systemCall 1)) i = .ok true := by
  intro i hi
  obtain rfl : i = 0 := by simpa using hi
  rfl

theorem wordsMapped_readRound {addr : Word} :
    (readRound addr).WordsMapped ↔ onePage.mem.Mapped addr 8 := by
  simp [Round.WordsMapped, Round.copies, readRound, Item.copies, coveredBytes, wordSize, readOnce]

/-- A read into the last word of the page is reproduced. -/
theorem startReplaying_reproduces_iff_readByte :
    ∃ S, run (Session.step readOnce 1) (Session.init 1 (fun _ _ => 0) onePage) (readByteInto 0x400ff8) =
        .ok S ∧
      Reproduces (S.process.rounds.map Round.exit)
        ((replayerOf 1 S.process.rounds).startReplaying readingWorld (Tracee.init onePage)) := by
  obtain ⟨S, hrun, hdone, hrounds⟩ := run_readByteInto 0x400ff8
  have hshort : ∀ r ∈ S.process.rounds, r.Short := by
    rw [hrounds]
    exact List.forall_mem_singleton.2 (short_readRound 0x400ff8)
  have hreplay := (startReplaying_reproduces_iff (by decide) hrun (admits_readByteInto (by decide)) hdone
    hshort runs_readingWorld onePage).2
  rw [hrounds] at hreplay
  refine ⟨S, hrun, ?_⟩
  rw [hrounds]
  refine (hreplay (simulated_readRound 0x400ff8)).2 (List.forall_mem_singleton.2 ?_)
  exact wordsMapped_readRound.2 (by decide)

/-- A read into the last byte of the page is recorded, but the byte cannot be written on its own. -/
theorem not_startReplaying_reproduces :
    ¬∀ (program : Program) (p : Pid) (taskPtRegs : Pid → PtRegs) (user : UserState) (es : List Event)
      (S : Session) (w : World) (before : UserState), p ≠ 0 →
      run (Session.step program p) (Session.init p taskPtRegs user) es = .ok S →
      AllSteps (Session.step program p) (Session.Admits program p)
        (Session.init p taskPtRegs user) es → S.Done → (∀ r ∈ S.process.rounds, r.Short) →
      Runs program user w →
      Loader.loadSystemCalls S.sys.delivered = .ok (S.process.rounds.map (Round.systemCall p), []) ∧
        ((∀ i < S.process.rounds.length,
            shouldSimulateSystemCall (S.process.rounds.map (Round.systemCall p)) i = .ok true) →
          Reproduces (S.process.rounds.map Round.exit)
            ((replayerOf p S.process.rounds).startReplaying w (Tracee.init before))) := by
  intro h
  obtain ⟨S, hrun, hdone, hrounds⟩ := run_readByteInto 0x400fff
  have hadmits := admits_readByteInto (show ((0x400fff : Word) - 0x400000).toNat < 4096 by decide)
  have hshort : ∀ r ∈ S.process.rounds, r.Short := by
    rw [hrounds]
    exact List.forall_mem_singleton.2 (short_readRound 0x400fff)
  have hsimulated : ∀ i < S.process.rounds.length,
      shouldSimulateSystemCall (S.process.rounds.map (Round.systemCall 1)) i = .ok true := by
    rw [hrounds]
    exact simulated_readRound 0x400fff
  have hreproduces := (h readOnce 1 _ _ _ S readingWorld onePage (by decide) hrun hadmits hdone hshort
    runs_readingWorld).2 hsimulated
  have hreplayable := (Session.kept_run (by decide) hrun hadmits).replayable hdone hshort hsimulated
  have hmapped := (replay_reproduces_iff runs_readingWorld hreplayable onePage).1 hreproduces
  rw [hrounds, List.forall_mem_singleton, wordsMapped_readRound] at hmapped
  exact absurd hmapped (by decide)

end RrPython
