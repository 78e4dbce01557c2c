import RrPython.Pipeline.Execution
import RrPython.Recorder.Delivery
import RrPython.Recorder.Faithful
import RrPython.Replayer.Loader

/-!
# Session — recording one process from start to `exit_group`

The module and the recorded process step together, among the events of all other processes.  When
nothing is refused to the module and its records are read out whole, the loader makes of the stream
one recorded call for each round of the process.
-/

namespace RrPython

open Foundation

structure Session where
  sys : Sys
  process : Execution

/-- The recorded call of a round of `p`. -/
def Round.systemCall (p : Pid) (r : Round) : SystemCall :=
  Record.toSystemCall (TracedSyscall.record p r.traced)

namespace Session

/-- `p` is the recorded process and has not been inside the kernel yet. -/
def init (p : Pid) (taskPtRegs : Pid → PtRegs) (user : UserState) : Session where
  sys := Sys.init p taskPtRegs
  process := Execution.init (taskPtRegs p) user

def step (program : Program) (p : Pid) (S : Session) (e : Event) : Except Fault Session := do
  let sys ← S.sys.step e
  pure { sys, process := S.process.observe program p e }

/-- The module is refused nothing, the process is one that can be recorded, and a reader of the dump
has room for all that there is. -/
structure Admits (program : Program) (p : Pid) (S : Session) (e : Event) : Prop where
  undisturbed : S.sys.Undisturbed p e
  conforms : S.process.Conforms program p e
  reads : ∀ r, e = .read r → r.user.Reliable ∧ S.sys.ReadsAll e

/-- The process has come to its `exit_group`, and nothing is left in the FIFO. -/
structure Done (S : Session) : Prop where
  exiting : S.process.InExitGroup
  drained : S.sys.kernel.recordedSyscalls = []

variable {program : Program} {p : Pid} {taskPtRegs : Pid → PtRegs} {user : UserState}

theorem step_ok {S S' : Session} {e : Event} (h : S.step program p e = .ok S') :
    S.sys.step e = .ok S'.sys ∧ S'.process = S.process.observe program p e := by
  cases hsys : S.sys.step e with
  | ok sys =>
      simp only [step, hsys, bind, Except.bind, pure, Except.pure, Except.ok.injEq] at h
      subst h
      exact ⟨rfl, rfl⟩
  | error f =>
      simp [step, hsys, bind, Except.bind] at h

/-- What holds between the module and the process during a session. -/
structure Kept (program : Program) (p : Pid) (user : UserState) (S : Session) : Prop where
  follows : Sys.Follows p S.sys S.process.trace
  complete : S.sys.Complete
  sized : ∀ R ∈ S.sys.appended, Record.Sized R
  explained : S.process.Explained program user

theorem kept_init : Kept program p user (init p taskPtRegs user) :=
  ⟨Sys.follows_init p taskPtRegs, rfl, by simp [init, Sys.init], Execution.explained_init (taskPtRegs p)⟩

/-- A read that has room for the whole queue is a clean one. -/
theorem Admits.cleanRead {S : Session} {e : Event} (he : S.Admits program p e) :
    S.sys.CleanRead e ∧ S.sys.ReadsAll e := by
  cases e with
  | read r =>
      obtain ⟨hreliable, hall⟩ := he.reads r rfl
      refine ⟨⟨hreliable, fun R hR => ?_⟩, hall⟩
      have hone := dumpLen_le_dumpsLen hR
      have hsize : dumpsLen S.sys.kernel.queued ≤ r.size.toNat := hall
      have hword := r.size.isLt
      omega
  | _ =>
      exact ⟨trivial, trivial⟩

theorem Kept.step (hp : p ≠ 0) {S S' : Session} (h : S.Kept program p user) {e : Event}
    (he : S.Admits program p e) (hs : S.step program p e = .ok S') : S'.Kept program p user := by
  obtain ⟨hsys, hprocess⟩ := step_ok hs
  obtain ⟨hclean, hall⟩ := he.cleanRead
  have hinv := h.follows.inv
  refine ⟨?_, (h.complete.step hinv hclean hsys).1 hall,
    Sys.appended_sized_step hinv h.sized hsys, ?_⟩
  · rw [hprocess, Execution.trace_observe]
    exact h.follows.step hp he.undisturbed hsys
  · rw [hprocess]
    exact h.explained.step hinv h.follows.tracks.calls he.conforms hsys

theorem kept_run (hp : p ≠ 0) {es : List Event} {S : Session}
    (hrun : run (step program p) (init p taskPtRegs user) es = .ok S)
    (hadmits : AllSteps (step program p) (Admits program p) (init p taskPtRegs user) es) :
    S.Kept program p user := by
  refine run_preserves (I := fun S _ => S.Kept program p user) (fun (c : Unit) _ => c) ?_ (c := ())
    kept_init hadmits hrun
  intro S _ e S' h he hs
  exact h.step hp he hs

/-- Loading what was read out gives the calls of the process, in the order in which it made them. -/
theorem Kept.loads {S : Session} (h : S.Kept program p user)
    (hdrained : S.sys.kernel.recordedSyscalls = []) :
    Loader.loadSystemCalls S.sys.delivered = .ok (S.process.rounds.map (Round.systemCall p), []) := by
  -- nothing is left in the FIFO, so the stream is the dump of all that was pushed
  have hstream : S.sys.delivered = S.sys.appended.flatMap Record.dump := by
    have hcomplete := h.complete
    rwa [Sys.Complete, Sys.queued_nil hdrained, dumps, List.flatMap_nil, List.append_nil] at hcomplete
  have hcalls : S.sys.appended.map Record.toSystemCall =
      S.process.rounds.map (Round.systemCall p) := by
    rw [h.follows.appended, h.explained.log, List.map_map, List.map_map]
    rfl
  rw [hstream, ← hcalls]
  exact Loader.loadSystemCalls_dumps fun R hR =>
    ⟨(h.sized R hR).amount_eq, fun c hc => ((h.sized R hR).copies c hc).len_eq⟩

end Session

end RrPython
