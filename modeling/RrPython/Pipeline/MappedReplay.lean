import RrPython.Pipeline.DeterministicReplay

/-!
# MappedReplay — replaying a process that maps memory

A real process opens libraries, maps them and moves its heap.  These calls are not in its record but
happen again, under a wrapper that leaves its marks: behind an mmap, `rdi` and `r10` are not what they
were in the recorded process.  A program that does not look at them there is replayed as a whole, as
long as the kernel does again what it did.
-/

namespace RrPython

open Foundation Creplayer Replayer

/-! ## The recorded process -/

/-- What the loader makes of the rounds of `p`. -/
def callsOf (p : Pid) (rounds : List Round) : List SystemCall :=
  rounds.map (Round.systemCall p)

/-- The rounds are an execution of the program from `user` up to its `exit_group`.  The record tells
what a call has done that is going to be simulated; the others may have done anything. -/
structure RunsTo (program : Program) (user : UserState) (p : Pid) (rounds : List Round) : Prop where
  alternates : Alternates program Round.entry Round.exit user rounds
  explained : ∀ i r, rounds[i]? = some r → ¬RealAt (callsOf p rounds) i → r.Explained
  short : ∀ r ∈ rounds, r.Short
  exits : (program (lastExit Round.exit user rounds)).nr = Kernel.nrExitGroup

/-- The program does not look at what the wrapper of an mmap leaves behind. -/
def Overlooks (program : Program) (p : Pid) (rounds : List Round) : Prop :=
  ∀ r ∈ rounds, program (r.exit.wrapped (r.systemCall p)) = program r.exit

/-- The kernel does to the tracee what it did to the process, in the calls that happen again. -/
def DoesAgain (w : World) (p : Pid) (rounds : List Round) : Prop :=
  ∀ i r, rounds[i]? = some r → RealAt (callsOf p rounds) i →
    w.kernel (2 * i + 1) (r.entry.wrapped (r.systemCall p)) =
      .returns (r.exit.wrapped (r.systemCall p))

namespace Round

/-- The round as the tracee goes through it. -/
def replayed (p : Pid) (r : Round) : Visit where
  entry := r.entry
  exit := r.exit.wrapped (r.systemCall p)

/-- The copies of a simulated call can be written, and a call that happens again has not returned an
error where its return value is compared. -/
structure Repeatable (p : Pid) (rounds : List Round) (i : Nat) (r : Round) : Prop where
  simulated : ¬RealAt (callsOf p rounds) i → r.WordsMapped
  real : RealAt (callsOf p rounds) i → 0 ≤ (r.systemCall p).returnValue ∨
    (r.systemCall p).num ∈ sysCallsToIgnoreInValidation

end Round

section Calls

variable {p : Pid} {rounds : List Round} {n : Nat} {r : Round}

theorem callsOf_getElem? (hr : rounds[n]? = some r) : (callsOf p rounds)[n]? = some (r.systemCall p) := by
  rw [callsOf, List.getElem?_map, hr]
  rfl

theorem exists_round {call : SystemCall} (hcall : (callsOf p rounds)[n]? = some call) :
    ∃ r, rounds[n]? = some r ∧ call = r.systemCall p := by
  rw [callsOf, List.getElem?_map] at hcall
  obtain ⟨r, hr, rfl⟩ := Option.map_eq_some_iff.1 hcall
  exact ⟨r, hr, rfl⟩

theorem realAt_round (hr : rounds[n]? = some r) :
    RealAt (callsOf p rounds) n ↔ RunsForReal (callsOf p rounds) n (r.systemCall p) :=
  realAt_iff (callsOf_getElem? hr)

/-- A simulated call has no wrapper. -/
theorem wrapped_of_simulated (hr : rounds[n]? = some r) (hsimulated : ¬RealAt (callsOf p rounds) n)
    (u : UserState) : u.wrapped (r.systemCall p) = u := by
  have hnum : (r.systemCall p).num ≠ mmapSysCall := by
    intro hmmap
    refine hsimulated ((realAt_round hr).2 (Or.inl ?_))
    rw [hmmap]
    decide
  rw [UserState.wrapped, wrappedRegs, if_neg hnum]

theorem wrapped_rax (u : UserState) (call : SystemCall) : (u.wrapped call).regs .rax = u.regs .rax := by
  simp only [UserState.wrapped, wrappedRegs]
  split_ifs
  · rw [PtRegs.set_other _ _ (by decide), PtRegs.set_other _ _ (by decide)]
  · rfl

/-- A return value is compared as an unsigned number with a signed one. -/
theorem returnValue_eq_iff (r : Round) :
    (r.systemCall p).returnValue = ((r.exit.wrapped (r.systemCall p)).regs .rax).toNat ↔
      0 ≤ (r.systemCall p).returnValue := by
  have hret : (r.systemCall p).returnValue = (r.exit.regs .rax).toInt := rfl
  have hlt := (r.exit.regs .rax).isLt
  rw [wrapped_rax, hret, BitVec.toInt_eq_toNat_cond]
  split_ifs <;> omega

end Calls

/-! ## One call after the other -/

section Replay

variable {program : Program} {user : UserState} {p : Pid} {rounds : List Round} {w : World}
  {t : Tracee} {n : Nat}

/-- The wrappers have not changed where the program goes. -/
theorem Overlooks.lastExit_eq (h : Overlooks program p rounds) (n : Nat) :
    program (lastExit Visit.exit user ((rounds.map (Round.replayed p)).take n)) =
      program (lastExit Round.exit user (rounds.take n)) := by
  rw [← List.map_take]
  rcases List.eq_nil_or_concat (rounds.take n) with hnone | ⟨rs, r, htake⟩
  · rw [hnone]
    rfl
  · have hmem : r ∈ rounds := by
      refine List.mem_of_mem_take (i := n) ?_
      rw [htake]
      simp
    rw [htake, List.concat_eq_append, List.map_append, List.map_singleton, lastExit_concat,
      lastExit_concat]
    exact h r hmem

/-- Behind the visits that are those of the rounds, the program enters the next round. -/
theorem entry_of_visits (hw : Runs program user w) (hprocess : RunsTo program user p rounds)
    (hoverlooks : Overlooks program p rounds) {r : Round} {u : UserState} (hr : rounds[n]? = some r)
    (huser : w.user (2 * n) (lastExit Visit.exit user ((rounds.map (Round.replayed p)).take n)) =
      .syscall u) : u = r.entry := by
  rw [hw.user, hoverlooks.lastExit_eq] at huser
  cases huser
  exact (hprocess.alternates.entry_eq hr).symm

/-- What a call does to the tracee is what it did to the process, but for the wrapper. -/
theorem exit_of_effect (hprocess : RunsTo program user p rounds) (hagain : DoesAgain w p rounds)
    {r : Round} {v : UserState} (hr : rounds[n]? = some r)
    (heffect : Effect (callsOf p rounds) w n (r.systemCall p) r.entry v) :
    v = r.exit.wrapped (r.systemCall p) ∧ r.Repeatable p rounds n := by
  have hmem := List.mem_of_getElem? hr
  have hshort := hprocess.short r hmem
  cases heffect with
  | simulated hsimulated hwritable =>
      have hnot : ¬RealAt (callsOf p rounds) n := fun hreal => hsimulated ((realAt_round hr).1 hreal)
      refine ⟨?_, fun _ => (Round.copiesWritable_iff p hshort).1 hwritable, fun hreal => absurd hreal hnot⟩
      rw [wrapped_of_simulated hr hnot]
      exact Round.simulatedUser_eq p (hprocess.explained n r hr hnot) hshort
  | real hreal hkernel hvalid =>
      have hat := (realAt_round hr).2 hreal
      rw [hagain n r hr hat] at hkernel
      cases hkernel
      refine ⟨rfl, fun hnot => absurd hat hnot, fun _ => ?_⟩
      exact hvalid.imp (returnValue_eq_iff r).1 id

variable (hw : Runs program user w) (hprocess : RunsTo program user p rounds)
  (hoverlooks : Overlooks program p rounds) (hagain : DoesAgain w p rounds)

include hw hprocess hoverlooks hagain

/-- All visits are those of the rounds. -/
theorem Taken.visits_eq {xs : List Visit} (h : Taken (callsOf p rounds) w user xs) :
    xs = (rounds.map (Round.replayed p)).take xs.length := by
  induction h with
  | nil =>
      rfl
  | @concat xs call x _ henter heffect ih =>
      obtain ⟨r, hr, rfl⟩ := exists_round henter.recorded
      have huser := henter.user
      rw [ih, List.length_take, List.length_map] at huser
      have hlt := (List.getElem?_eq_some_iff.1 hr).1
      rw [min_eq_left hlt.le] at huser
      have hentry := entry_of_visits hw hprocess hoverlooks hr huser
      rw [hentry] at heffect
      have hexit := (exit_of_effect hprocess hagain hr heffect).1
      have hx : x = r.replayed p := by
        cases x
        simp only [Round.replayed, Visit.mk.injEq]
        exact ⟨hentry, hexit⟩
      have hget : (rounds.map (Round.replayed p))[xs.length]? = some x := by
        rw [List.getElem?_map, hr, hx]
        rfl
      rw [List.length_append, List.length_singleton, List.take_add_one, hget, ← ih]
      rfl

/-- The tracee is taken to the entry of the next round. -/
theorem TakenTo.entered_eq (h : TakenTo (callsOf p rounds) w user n t) :
    w.user (2 * n) t.user = .syscall (program (lastExit Round.exit user (rounds.take n))) := by
  have hvisits := Taken.visits_eq hw hprocess hoverlooks hagain h.taken
  rw [h.length] at hvisits
  rw [h.user, hvisits, hw.user, hoverlooks.lastExit_eq]

theorem TakenTo.not_entryFails (h : TakenTo (callsOf p rounds) w user n t) {expected : Int}
    (hnum : expected = (program (lastExit Round.exit user (rounds.take n))).nr.toNat) {e : ReplayError}
    {t' : Tracee} (hfails : EntryFails w n expected t e t') : False := by
  have hentered := TakenTo.entered_eq hw hprocess hoverlooks hagain h
  cases hfails with
  | noEntry _ hnone =>
      rcases hnone with hexited | hnone
      · rcases h.stop with hstop | hstop | ⟨_, hattach⟩
        · rw [hexited] at hstop
          cases hstop
        · rw [hexited] at hstop
          cases hstop
        · exact hattach user hw.attach
      · exact hnone _ hentered
  | unexpected huser hother =>
      rw [hentered] at huser
      cases huser
      exact hother hnum

end Replay

/-! ## Recording and replaying -/

/-- The run of the module has recorded the rounds of `p`, with nothing refused and with every record
read out. -/
structure Records (p : Pid) (taskPtRegs : Pid → PtRegs) (es : List Event) (rounds : List Round) (s : Sys) :
    Prop where
  run : run Sys.step (Sys.init p taskPtRegs) es = .ok s
  undisturbed : AllSteps Sys.step (Sys.Undisturbed p) (Sys.init p taskPtRegs) es
  clean : AllSteps Sys.step Sys.CleanRead (Sys.init p taskPtRegs) es
  readsAll : AllSteps Sys.step Sys.ReadsAll (Sys.init p taskPtRegs) es
  log : (trace p (taskPtRegs p) es).log = rounds.map Round.traced
  drained : s.kernel.recordedSyscalls = []

variable {p : Pid} {taskPtRegs : Pid → PtRegs} {es : List Event} {rounds : List Round} {s : Sys}

theorem Records.loads (h : Records p taskPtRegs es rounds s) (hp : p ≠ 0) :
    Loader.loadSystemCalls s.delivered = .ok (callsOf p rounds, []) := by
  have hsized := Sys.appended_sized h.run
  have hstream : s.delivered = s.appended.flatMap Record.dump := by
    have hcomplete := (Sys.complete_run_iff (Sys.inv_init p taskPtRegs) rfl h.clean h.run).2 h.readsAll
    rwa [Sys.Complete, Sys.queued_nil h.drained, dumps, List.flatMap_nil, List.append_nil] at hcomplete
  have hcalls : s.appended.map Record.toSystemCall = callsOf p rounds := by
    rw [(Sys.follows_run hp h.run h.undisturbed).appended]
    rw [h.log, List.map_map, List.map_map]
    rfl
  rw [hstream, ← hcalls]
  exact Loader.loadSystemCalls_dumps fun R hR =>
    ⟨(hsized R hR).amount_eq, fun c hc => ((hsized R hR).copies c hc).len_eq⟩

end RrPython
