import RrPython.Recorder.Ownership

/-!
# NullSafety — the return handlers and the record that may be gone

The entry handlers of the copy, put and wrapper probes check `current_syscall_record`; the return
handlers do not.  The record is there whenever they need it as long as no `post_syscall` runs while
another process is inside such a probe.
-/

namespace RrPython

open Foundation

/-- The entry handler of a copy, put or wrapper probe answered 0. -/
def Frame.Hooked : Frame → Prop
  | .syscall _ => False
  | .write _ hooked => hooked = true
  | .wrap recorded => recorded.isSome

namespace Sys

/-- The process is inside a copy, put or wrapper probe whose return handler will run. -/
def InHook (s : Sys) (p : Pid) : Prop :=
  ∃ f ∈ s.frames p, f.Hooked

/-- `e` runs `post_put` or `post_copy` on the path that appends `current_copy`. -/
def WriteSucceeds (s : Sys) : Event → Prop
  | .exitWrite p returnValue _ => returnValue = 0 ∧ ∃ fn rest, s.frames p = .write fn true :: rest
  | _ => False

/-- `e` runs `post_wrap_syscall` past its allocation and its `copy_from_user`. -/
def WrapSucceeds (s : Sys) : Event → Prop
  | .exitWrap p mem allocated _ => allocated = true ∧ ∃ recorded rest,
      s.frames p = .wrap (some recorded) :: rest ∧
        (mem.copyFromUser recorded.ptr recorded.len.toNat).isSome
  | _ => False

/-- What the success paths of the return handlers take for granted. -/
structure PointersPresent (s : Sys) (e : Event) : Prop where
  write : s.WriteSucceeds e →
    s.kernel.currentSyscallRecord.isSome ∧ s.kernel.currentCopy.isSome
  wrap : s.WrapSucceeds e → s.kernel.currentSyscallRecord.isSome

/-- A process that leaves a recorded syscall leaves no other process inside a probe. -/
def LeavesNobodyInHook (s : Sys) : Event → Prop
  | .exitSyscall p _ => s.Recording p → ∀ q, q ≠ p → ¬s.InHook q
  | _ => True

/-- Whoever is inside a probe finds the record open. -/
def HooksHaveRecord (s : Sys) : Prop :=
  ∀ p, s.InHook p → s.kernel.currentSyscallRecord.isSome

/-! ## One event -/

theorem hooksHaveRecord_move {s : Sys} (h : s.HooksHaveRecord) {p : Pid} {fs : List Frame} {k : Kernel}
    (hk : k.currentSyscallRecord = s.kernel.currentSyscallRecord)
    (hfs : ∀ f ∈ fs, f.Hooked → s.InHook p ∨ s.kernel.currentSyscallRecord.isSome) :
    (s.move p fs k).HooksHaveRecord := by
  rintro q ⟨f, hf, hhook⟩
  change k.currentSyscallRecord.isSome
  rw [hk]
  by_cases hq : q = p
  · subst hq
    rcases hfs f (by simpa [move] using hf) hhook with hin | hsome
    · exact h q hin
    · exact hsome
  · exact h q ⟨f, by simpa [move, hq] using hf, hhook⟩

/-- The stack only lost its innermost function. -/
theorem hooked_tail {s : Sys} {p : Pid} {g : Frame} {rest : List Frame}
    (hframes : s.frames p = g :: rest) : ∀ f ∈ rest, f.Hooked →
      s.InHook p ∨ s.kernel.currentSyscallRecord.isSome := by
  intro f hf hhook
  exact Or.inl ⟨f, by simp [hframes, hf], hhook⟩

theorem preWrapSyscall_isSome {k : Kernel} {current : Pid} {w : SyscallWrapper} {regs : PtRegs}
    {mem : UserMem} {allocated : Bool}
    (h : (k.preWrapSyscall current w regs mem allocated).isSome) :
    ¬k.notRecorded current ∧ k.currentSyscallRecord.isSome ∧
      k.preWrapSyscall current w regs mem allocated = w.readRegion regs (k.taskPtRegs current) mem := by
  unfold Kernel.preWrapSyscall at h ⊢
  split at h
  · simp at h
  · rename_i hpid
    split at h
    · simp at h
    · rename_i hopen
      split at h
      · simp at h
      · rename_i halloc
        refine ⟨hpid, ?_, by simp [hpid, hopen, halloc]⟩
        cases hcur : k.currentSyscallRecord with
        | none =>
            simp [hcur] at hopen
        | some q =>
            rfl

theorem HooksHaveRecord.step {s s' : Sys} (hinv : s.Inv) (h : s.HooksHaveRecord) {e : Event}
    (he : s.LeavesNobodyInHook e) (hs : s.step e = .ok s') : s'.HooksHaveRecord := by
  cases e with
  | enterSyscall p regs a =>
      obtain ⟨hframes, ⟨rfl, _⟩ | ⟨q, _, rfl, _⟩⟩ := (enterSyscall_cases s p regs a).of_ok hs
      · exact hooksHaveRecord_move h rfl (by simp [Frame.Hooked])
      · intro p' _
        rfl
  | exitSyscall p regs =>
      -- the process leaves its recorded syscall, and no other one is inside a probe
      have hgone : s.Recording p → ∀ {k : Kernel}, (s.move p [] k).HooksHaveRecord := by
        rintro hrec k q ⟨f, hf, hhook⟩
        by_cases hq : q = p
        · subst hq
          simp [move] at hf
        · exact absurd ⟨f, by simpa [move, hq] using hf, hhook⟩ (he hrec q hq)
      rcases (exitSyscall_cases hinv p regs).of_ok hs with
        ⟨hframes, rfl⟩ | ⟨hframes, q, r, R, _, ⟨_, rfl⟩ | ⟨_, rfl⟩⟩
      · exact hooksHaveRecord_move h rfl (by simp)
      · exact hgone (by simp [Recording, hframes])
      · exact hgone (by simp [Recording, hframes])
  | enterWrite p fn regs a =>
      rcases (enterWrite_cases s p fn regs a).of_ok hs with
        ⟨rfl, _⟩ | ⟨c, _, rfl, _, hopen, _, _, _⟩
      · apply hooksHaveRecord_move h rfl
        intro f hf hhook
        rcases List.mem_cons.1 hf with rfl | hf
        · simp [Frame.Hooked] at hhook
        · exact Or.inl ⟨f, hf, hhook⟩
      · -- accepted, so a record is open
        exact hooksHaveRecord_move h rfl fun _ _ _ => Or.inr hopen
  | exitWrite p returnValue mem =>
      obtain ⟨fn, hooked, rest, hframes,
        ⟨_, rfl⟩ | ⟨_, c, regs, _, _, _, ⟨_, rfl⟩ | ⟨_, q, r, R, _, rfl⟩⟩⟩ :=
        (exitWrite_cases hinv p returnValue mem).of_ok hs
      · exact hooksHaveRecord_move h rfl (hooked_tail hframes)
      · exact hooksHaveRecord_move h rfl (hooked_tail hframes)
      · exact hooksHaveRecord_move h rfl (hooked_tail hframes)
  | enterWrap p w regs mem allocated =>
      cases hs
      apply hooksHaveRecord_move h rfl
      intro f hf hhook
      rcases List.mem_cons.1 hf with rfl | hf
      · -- `pre_wrap_syscall` went past its check, so a record is open
        exact Or.inr (preWrapSyscall_isSome hhook).2.1
      · exact Or.inl ⟨f, hf, hhook⟩
  | exitWrap p mem allocated allocs =>
      obtain ⟨recorded, rest, k', hframes, rfl, hw⟩ :=
        (exitWrap_cases hinv p mem allocated allocs).of_ok hs
      exact hooksHaveRecord_move h hw.current (hooked_tail hframes)
  | writeProc ppos count parsed =>
      cases hs
      rcases writeProc_eq s.kernel ppos count parsed with heq | ⟨pid, _, heq⟩
      · simpa [writePid, heq] using h
      · intro p hp
        change ((s.kernel.writeProc ppos count parsed).1).currentSyscallRecord.isSome
        rw [heq]
        exact h p hp
  | read r =>
      obtain ⟨k', u, n, _, _, rfl, _, _, hrecord, _, _⟩ := (read_cases hinv r).of_ok hs
      intro p hp
      change k'.currentSyscallRecord.isSome
      rw [hrecord.pointer]
      exact h p hp

/-! ## Every run -/

theorem hooksHaveRecord_run {pid : Int} {taskPtRegs : Pid → PtRegs} {es : List Event} {s : Sys}
    (hrun : run step (init pid taskPtRegs) es = .ok s)
    (halone : AllSteps step LeavesNobodyInHook (init pid taskPtRegs) es) :
    s.Inv ∧ s.HooksHaveRecord := by
  refine run_preserves (I := fun s _ => s.Inv ∧ s.HooksHaveRecord) (fun (c : Unit) _ => c) ?_
    (c := ()) ⟨inv_init pid taskPtRegs, ?_⟩ halone hrun
  · rintro s _ e s' ⟨hinv, h⟩ he hs
    exact ⟨hinv.step_ok hs, h.step hinv he hs⟩
  · rintro p ⟨f, hf, _⟩
    simp [init] at hf

theorem pointersPresent {s : Sys} (hinv : s.Inv) (h : s.HooksHaveRecord) (e : Event) :
    s.PointersPresent e := by
  cases e with
  | exitWrite p returnValue mem =>
      refine ⟨?_, fun hf => hf.elim⟩
      rintro ⟨_, fn, rest, hframes⟩
      refine ⟨h p ⟨.write fn true, by simp [hframes], rfl⟩, ?_⟩
      -- whoever is inside a hooked write holds the copy lock
      exact hinv.copy.held_of_pos (i := p) (by simp [hframes])
  | exitWrap p mem allocated allocs =>
      refine ⟨fun hf => hf.elim, ?_⟩
      rintro ⟨_, recorded, rest, hframes, _⟩
      exact h p ⟨.wrap (some recorded), by simp [hframes], rfl⟩
  | _ =>
      exact ⟨fun hf => hf.elim, fun hf => hf.elim⟩

/-- Only a return handler of a copy, put or wrapper probe can dereference `NULL`. -/
theorem nullDeref_inHook {s : Sys} (hinv : s.Inv) {e : Event} (h : s.step e = .error .nullDeref) :
    s.kernel.currentSyscallRecord = none ∧ ∃ p, s.InHook p := by
  have hstops : s.Stops .nullDeref := (hinv.step e).of_error h
  have hnone : s.kernel.currentSyscallRecord = none := by
    simpa [Stops] using hstops
  refine ⟨hnone, ?_⟩
  cases e with
  | enterSyscall p regs a =>
      have hf := (enterSyscall_cases s p regs a).of_error h
      cases hf
  | exitSyscall p regs =>
      have hf := (exitSyscall_cases hinv p regs).of_error h
      cases hf
  | enterWrite p fn regs a =>
      have hf := (enterWrite_cases s p fn regs a).of_error h
      cases hf
  | exitWrite p returnValue mem =>
      simp only [step, exitWrite] at h
      split at h
      · rename_i fn rest hframes
        exact ⟨p, .write fn true, by simp [hframes], rfl⟩
      · cases h
      · cases h
  | enterWrap p w regs mem allocated =>
      cases h
  | exitWrap p mem allocated allocs =>
      simp only [step, exitWrap] at h
      split at h
      · rename_i recorded rest hframes
        exact ⟨p, .wrap (some recorded), by simp [hframes], rfl⟩
      · cases h
      · cases h
  | writeProc ppos count parsed =>
      cases h
  | read r =>
      have hf := (read_cases hinv r).of_error h
      cases hf

/-- In a run in which no process leaves a recorded syscall while another one is inside a probe, every
return handler finds its pointers and no hook dereferences `NULL`. -/
theorem pointersPresent_of_leavesNobodyInHook {pid : Int} {taskPtRegs : Pid → PtRegs}
    {es : List Event} {s : Sys} (hrun : run step (init pid taskPtRegs) es = .ok s)
    (halone : AllSteps step LeavesNobodyInHook (init pid taskPtRegs) es) (e : Event) :
    s.PointersPresent e ∧ s.step e ≠ .error .nullDeref := by
  obtain ⟨hinv, h⟩ := hooksHaveRecord_run hrun halone
  refine ⟨pointersPresent hinv h e, ?_⟩
  intro hnull
  obtain ⟨hnone, p, hp⟩ := nullDeref_inHook hinv hnull
  simpa [hnone] using h p hp

/-- Process 1 copies within a recorded syscall and leaves it. -/
def ownWrite : List Event :=
  [.enterSyscall 1 (fun _ => 0) (some 16), .enterWrite 1 .copyToUser (fun _ => 0) (some 32),
    .exitWrite 1 0 (fun _ => 0), .exitSyscall 1 (fun _ => 0)]

theorem pointersPresent_ownWrite :
    ∃ s, run step (init 1 fun _ _ => 0) ownWrite = .ok s ∧
      s.PointersPresent (.exitWrite 1 0 fun _ => 0) := by
  obtain ⟨s, hrun⟩ : ∃ s, run step (init 1 fun _ _ => 0) ownWrite = .ok s := ⟨_, rfl⟩
  refine ⟨s, hrun, (pointersPresent_of_leavesNobodyInHook hrun ?_ _).1⟩
  refine ⟨trivial, fun s₁ h₁ => ⟨trivial, fun s₂ h₂ => ⟨trivial, fun s₃ h₃ => ⟨?_, fun _ _ => trivial⟩⟩⟩⟩
  cases h₁
  cases h₂
  cases h₃
  rintro _ q hq ⟨f, hf, _⟩
  simp [move, init, hq] at hf

/-! ## A record that is gone -/

/-- Process 1 enters a recorded syscall, the pid is changed to 2, process 2 enters a put_user and process
1 leaves its syscall. -/
def lateReturn : List Event :=
  [.enterSyscall 1 (fun _ => 0) (some 16), .writeProc 0 1 (some 2),
    .enterWrite 2 .putUser1 (fun _ => 0) (some 32), .exitSyscall 1 (fun _ => 0)]

theorem not_pointersPresent :
    ¬∀ (pid : Int) (taskPtRegs : Pid → PtRegs) (es : List Event) (s : Sys),
      run step (init pid taskPtRegs) es = .ok s → ∀ e, s.PointersPresent e := by
  intro h
  have hpresent := h 1 (fun _ _ => 0) lateReturn _ rfl (.exitWrite 2 0 fun _ => 0)
  have hrecord := (hpresent.write ⟨rfl, .putUser1, [], rfl⟩).1
  cases hrecord

end Sys

end RrPython
