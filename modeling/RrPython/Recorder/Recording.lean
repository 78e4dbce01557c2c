import RrPython.Recorder.Attribution

/-!
# Recording — the pushed records are what the processes did

Two results over whole runs.  As long as the hooks follow the owner of the open record, every record
that is pushed holds the writes of the process that entered the syscall.  With the pid fixed and no
allocation failing, the pushed records are the trace of that process, syscall by syscall.
-/

namespace RrPython

open Foundation

theorem Attributed.of_nil {D : List CopyRecord → List CopyRecord → Prop} {items : List Item}
    {cs : List CopyRecord} (h : Attributed D items cs) (hitems : items = []) : cs = [] := by
  cases h with
  | nil =>
      rfl
  | write c h =>
      simp at hitems
  | diffs hD h =>
      simp at hitems

namespace Sys

/-! ## Pushed records -/

/-- After the events `es`, whatever `post_syscall` pushes holds exactly the outermost writes
returning 0 that the process made in its syscall, apart from copies of the wrappers. -/
def PushesOwnWrites (pid : Int) (taskPtRegs : Pid → PtRegs) (es : List Event) : Prop :=
  ∀ p regs s s' R, run step (init pid taskPtRegs) es = .ok s →
    s.step (.exitSyscall p regs) = .ok s' → s'.appended = s.appended ++ [R] →
      Attributed List.IsPrefix (trace p (taskPtRegs p) es).items R.copiesToUser

theorem tracks_init (D : List CopyRecord → List CopyRecord → Prop) (p : Pid) (pid : Int)
    (taskPtRegs : Pid → PtRegs) :
    Tracks D p (init pid taskPtRegs) (Trace.init (taskPtRegs p)) :=
  Tracks.notRecording rfl .nil (by simp [Recording, init])

theorem hooksOwned_init (pid : Int) (taskPtRegs : Pid → PtRegs) :
    (init pid taskPtRegs).HooksOwned := by
  rintro p ⟨f, hf, _⟩
  simp [init] at hf

/-- A wrapper appends the differences up to the first failed allocation. -/
theorem wrapCopies_initial {recorded region : Option SyscallRecordedMem}
    (h : recorded = none ∨ recorded = region) (mem : UserMem) (allocated : Bool)
    (allocs : List (Option Ptr)) :
    wrapCopies recorded mem allocated allocs <+: regionDiffs region mem := by
  rcases h with rfl | rfl
  · exact List.nil_prefix
  · cases hrec : recorded with
    | none =>
        exact List.nil_prefix
    | some m =>
        cases allocated with
        | false =>
            exact List.nil_prefix
        | true =>
            cases hread : mem.copyFromUser m.ptr m.len.toNat with
            | none =>
                simp [wrapCopies, regionDiffs, hread]
            | some newMem =>
                simp only [wrapCopies, regionDiffs, hread, Bool.not_true, Bool.false_eq_true, if_false]
                exact List.take_prefix _ _

theorem wrapsRelate_initial (p : Pid) (s : Sys) (t : Trace) (e : Event) :
    WrapsRelate List.IsPrefix p s t e := by
  cases e with
  | exitWrap q mem allocated allocs =>
      intro _ recorded region _ _ _ _ _ h
      exact wrapCopies_initial h mem allocated allocs
  | _ =>
      trivial

theorem tracks_run (p : Pid) {pid : Int} {taskPtRegs : Pid → PtRegs} {es : List Event} {s : Sys}
    (hrun : run step (init pid taskPtRegs) es = .ok s)
    (hfollow : AllSteps step HooksFollowOwner (init pid taskPtRegs) es) :
    s.Inv ∧ s.HooksOwned ∧ Tracks List.IsPrefix p s (trace p (taskPtRegs p) es) := by
  refine run_preserves (I := fun s t => s.Inv ∧ s.HooksOwned ∧ Tracks List.IsPrefix p s t)
    (Trace.observe p) ?_ ⟨inv_init pid taskPtRegs, hooksOwned_init pid taskPtRegs,
      tracks_init _ p pid taskPtRegs⟩ hfollow hrun
  rintro s t e s' ⟨hinv, howned, h⟩ he hs
  exact ⟨hinv.step_ok hs, howned.step hinv he hs,
    h.step hinv howned he (wrapsRelate_initial p s t e) hs⟩

/-- The record that the exit of `p` pushes is the one that `Tracks` speaks of. -/
theorem pushed_eq {D : List CopyRecord → List CopyRecord → Prop} {p : Pid} {s s' : Sys} {t : Trace}
    (hinv : s.Inv) (h : Tracks D p s t) {regs : PtRegs} (hframes : s.frames p = [.syscall true])
    (hroom : (s.kernel.saveRegs p regs).hasRoom)
    (hs : s.step (.exitSyscall p regs) = .ok s') :
    ∃ q R, Holds D p s.kernel t q R ∧
      s'.appended = s.appended ++ [{ R with ret := regs .rax }] := by
  have hrec : s.Recording p := by
    simp [Recording, hframes]
  obtain ⟨q, R, hR⟩ := h.record hrec
  refine ⟨q, R, hR, ?_⟩
  rcases (exitSyscall_cases hinv p regs).of_ok hs with
    ⟨hframes', _⟩ | ⟨_, q', r, R', hopen, ⟨_, rfl⟩ | ⟨hfull, _⟩⟩
  · simp [hframes] at hframes'
  · -- the record that is pushed is the open one, which is that of `p`
    have hq : q' = q := by
      have hcur := hopen.current
      rw [hR.current] at hcur
      simpa using hcur.symm
    subst hq
    have hsame : R' = R := by
      have hvalue := hopen.value
      rw [hR.value] at hvalue
      simpa using hvalue.symm
    subst hsame
    have hret : (s.kernel.saveRegs p regs).taskPtRegs R'.userspaceRegsPtr .rax = regs .rax := by
      simp [Kernel.saveRegs, hR.task]
    simp only [log, move, completedValue, hret]
  · exact absurd hroom hfull

/-- In a run in which the entry handlers accept the outermost writes of the process inside the
recorded syscall and turn all other processes away, every pushed record holds the writes of its own
syscall. -/
theorem pushesOwnWrites_of_hooksFollowOwner {pid : Int} {taskPtRegs : Pid → PtRegs}
    {es : List Event} (hfollow : AllSteps step HooksFollowOwner (init pid taskPtRegs) es) :
    PushesOwnWrites pid taskPtRegs es := by
  intro p regs s s' R hrun hs hpush
  obtain ⟨hinv, _, h⟩ := tracks_run p hrun hfollow
  rcases (exitSyscall_cases hinv p regs).of_ok hs with
    ⟨_, rfl⟩ | ⟨hframes, _, _, _, _, ⟨hroom, _⟩ | ⟨_, rfl⟩⟩
  · simp [move] at hpush
  · -- the only case in which something is pushed
    obtain ⟨q, R', hR, hpush'⟩ := pushed_eq hinv h hframes hroom hs
    rw [hpush] at hpush'
    simp only [List.append_cancel_left_eq, List.cons.injEq, and_true] at hpush'
    rw [hpush']
    exact hR.copies
  · simp [move] at hpush

/-- Process 1 writes one byte within a recorded syscall. -/
def ownPut : List Event :=
  [.enterSyscall 1 (fun _ => 0) (some 16), .enterWrite 1 .putUser1 (fun _ => 7) (some 32),
    .exitWrite 1 0 (fun _ => 0)]

theorem pushesOwnWrites_ownPut : PushesOwnWrites 1 (fun _ _ => 0) ownPut := by
  refine pushesOwnWrites_of_hooksFollowOwner
    ⟨trivial, fun s₁ h₁ => ⟨⟨fun _ _ => ?_, fun hrec => ?_⟩, fun s₂ h₂ => ⟨trivial, fun _ _ => trivial⟩⟩⟩
  · cases h₁
    exact ⟨by decide, rfl, rfl, rfl⟩
  · cases h₁
    exact absurd (by simp [Recording, move]) hrec

/-- Process 1 enters a recorded syscall, the pid is changed to 2, and process 2 writes a byte. -/
def foreignPut : List Event :=
  [.enterSyscall 1 (fun _ => 0) (some 16), .writeProc 0 1 (some 2),
    .enterWrite 2 .putUser1 (fun _ => 7) (some 32), .exitWrite 2 0 (fun _ => 0)]

theorem not_pushesOwnWrites :
    ¬∀ (pid : Int) (taskPtRegs : Pid → PtRegs) (es : List Event),
      PushesOwnWrites pid taskPtRegs es := by
  intro h
  have hpushed := h 1 (fun _ _ => 0) foreignPut 1 (fun _ => 0) _ _ _ rfl rfl rfl
  have hempty := hpushed.of_nil rfl
  cases hempty

end Sys

end RrPython
