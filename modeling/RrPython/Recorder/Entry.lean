import RrPython.Recorder.Faithful

/-!
# Entry — a record belongs to the syscall that pushes it

In every run, whatever the pid and whichever processes the copies in it come from, the record that the
exit of a process pushes has the registers with which that process entered the syscall, and the `rax`
with which it leaves it.
-/

namespace RrPython

open Foundation

/-- The entry registers and the task of the open record. -/
def Kernel.openedBy (k : Kernel) : Option (PtRegs × Pid) := do
  let q ← k.currentSyscallRecord
  let R ← heapRecord k.heap q
  pure (R.userspaceRegs, R.userspaceRegsPtr)

namespace Sys

variable {s s' : Sys} {p : Pid}

theorem openedBy_of_value {k : Kernel} {q : Ptr} {R : Record} (hcurrent : k.currentSyscallRecord = some q)
    (hvalue : heapRecord k.heap q = some R) :
    k.openedBy = some (R.userspaceRegs, R.userspaceRegsPtr) := by
  simp [Kernel.openedBy, hcurrent, hvalue]

/-- As long as `p` is inside its recorded syscall, the open record stays the same one, with the same
header. -/
theorem openedBy_step (hinv : s.Inv) {e : Event} (hs : s.step e = .ok s') (hrec : s.Recording p)
    (hrec' : s'.Recording p) : s'.kernel.openedBy = s.kernel.openedBy := by
  obtain ⟨q, hq⟩ := hinv.isSome_of_recording hrec
  obtain ⟨_, _, R, hopen⟩ := exists_open hinv.kernel (by simp [hq])
  -- updates that keep the open record keep its header
  have hkeep : ∀ {k' : Kernel}, s.kernel.KeepsRecord k' → k'.openedBy = s.kernel.openedBy := by
    intro k' hk
    rw [openedBy_of_value (hk.pointer.trans hopen.current)
      ((hk.value _ hopen.current).trans hopen.value), openedBy_of_value hopen.current hopen.value]
  cases e with
  | enterSyscall x regs a =>
      obtain ⟨_, ⟨rfl, _⟩ | ⟨_, _, _, _, _, hnone, _⟩⟩ := (enterSyscall_cases s x regs a).of_ok hs
      · rfl
      · simp [hq] at hnone
  | exitSyscall x regs =>
      rcases (exitSyscall_cases hinv x regs).of_ok hs with ⟨_, rfl⟩ | ⟨hframes, hcase⟩
      · rfl
      · -- the recorded syscall that ends is that of `p`, who is then outside
        have hx : x = p := hinv.recording_unique (by simp [Recording, hframes]) hrec
        subst hx
        have hgone : s'.frames x = [] := by
          obtain ⟨_, _, _, _, ⟨_, rfl⟩ | ⟨_, rfl⟩⟩ := hcase <;> simp [log, move]
        simp [Recording, hgone] at hrec'
  | enterWrite x fn regs a =>
      rcases (enterWrite_cases s x fn regs a).of_ok hs with ⟨rfl, _⟩ | ⟨c, _, rfl, _, _, _, hc, _⟩
      · rfl
      · exact hkeep (hinv.kernel.openCopy hc (fn.begun regs)).2.1
  | exitWrite x returnValue mem =>
      obtain ⟨fn, _, _, _, ⟨_, rfl⟩ |
        ⟨_, c, regs, hcopy, hc, hlen, ⟨_, rfl⟩ | ⟨_, q', r, R', hopen', rfl⟩⟩⟩ :=
        (exitWrite_cases hinv x returnValue mem).of_ok hs
      · rfl
      · exact hkeep (hinv.kernel.dropCopy hcopy).2.1
      · -- a longer list leaves the header alone
        have hun := (hinv.kernel.copy c hcopy).2
        have happend := (hinv.kernel.appendCopy hopen'.current hopen'.block (by simp [hc]) hun
          (fn.ended_sized mem hlen)).2.2.1 R' hopen'.value
        rw [openedBy_of_value hopen'.current hopen'.value]
        exact openedBy_of_value (R := SyscallRecord.addTail R' (fn.ended mem (fn.begun regs)))
          hopen'.current happend
  | enterWrap x w regs mem allocated =>
      cases hs
      rfl
  | exitWrap x mem allocated allocs =>
      obtain ⟨recorded, rest, k', _, rfl, hw⟩ := (exitWrap_cases hinv x mem allocated allocs).of_ok hs
      have hvalue := hw.value _ R hopen.current hopen.value
      have hsame := addCopies_fields R (wrapCopies recorded mem allocated allocs)
      rw [openedBy_of_value hopen.current hopen.value, ← hsame.1, ← hsame.2]
      exact openedBy_of_value (hw.current.trans hopen.current) hvalue
  | writeProc ppos count parsed =>
      cases hs
      rcases writeProc_eq s.kernel ppos count parsed with heq | ⟨_, _, heq⟩
      · simp [writePid, heq]
      · simp only [writePid, heq]
        rfl
  | read r =>
      obtain ⟨_, _, _, _, _, rfl, _, _, hrecord, _⟩ := (read_cases hinv r).of_ok hs
      exact hkeep hrecord

/-- While `p` is inside its recorded syscall, the open record is the one of its entry. -/
def OpensOwn (p : Pid) (s : Sys) (t : Trace) : Prop :=
  s.Recording p → s.kernel.openedBy = some (t.entry, p)

theorem OpensOwn.step (hinv : s.Inv) {t : Trace} (h : OpensOwn p s t) {e : Event}
    (hs : s.step e = .ok s') : OpensOwn p s' (t.observe p e) := by
  intro hrec'
  rcases recording_step hinv hs hrec' with hrec | ⟨regs, a, rfl, _⟩
  · -- inside the same syscall: neither the record nor the entry changes
    have hentry : (t.observe p e).entry = t.entry := by
      apply observe_entry t
      rintro regs a rfl
      obtain ⟨hframes, _⟩ := (enterSyscall_cases s p regs a).of_ok hs
      simp [Recording, hframes] at hrec
    rw [openedBy_step hinv hs hrec hrec', hentry]
    exact h hrec
  · -- just entered: the record was opened with the registers saved at this entry
    have hobserve : (t.observe p (.enterSyscall p regs a)).entry = regs := by
      simp [Trace.observe, Event.process, Trace.advance]
    obtain ⟨_, ⟨rfl, _⟩ | ⟨q, _, rfl, _⟩⟩ := (enterSyscall_cases s p regs a).of_ok hs
    · simp [recording_move_self] at hrec'
    · have hsaved : (s.kernel.saveRegs p regs).taskPtRegs p = regs := by
        simp [Kernel.saveRegs]
      have hvalue := (s.kernel.saveRegs p regs).openRecord_value q p
      rw [hobserve]
      apply (openedBy_of_value rfl hvalue).trans
      rw [hsaved]

theorem opensOwn_run (p : Pid) {pid : Int} {taskPtRegs : Pid → PtRegs} {es : List Event}
    (hrun : run step (init pid taskPtRegs) es = .ok s) :
    s.Inv ∧ OpensOwn p s (trace p (taskPtRegs p) es) := by
  refine run_preserves (I := fun s t => s.Inv ∧ OpensOwn p s t) (Trace.observe p) ?_
    ⟨inv_init pid taskPtRegs, by simp [OpensOwn, Recording, init]⟩ allSteps_true hrun
  rintro s t e s' ⟨hinv, h⟩ _ hs
  exact ⟨hinv.step_ok hs, h.step hinv hs⟩

/-- What the exit of `p` pushes has the registers of its entry and the `rax` of its exit. -/
theorem pushed_entry {pid : Int} {taskPtRegs : Pid → PtRegs} {es : List Event}
    (hrun : run step (init pid taskPtRegs) es = .ok s) {regs : PtRegs}
    (hs : s.step (.exitSyscall p regs) = .ok s') {R : Record}
    (hpush : s'.appended = s.appended ++ [R]) :
    R.userspaceRegs = (trace p (taskPtRegs p) es).entry ∧ R.ret = regs .rax := by
  obtain ⟨hinv, hopens⟩ := opensOwn_run p hrun
  rcases (exitSyscall_cases hinv p regs).of_ok hs with
    ⟨_, rfl⟩ | ⟨hframes, q, r, R', hopen, ⟨_, rfl⟩ | ⟨_, rfl⟩⟩
  · simp [move] at hpush
  · have hown := hopens (by simp [Recording, hframes])
    rw [openedBy_of_value hopen.current hopen.value] at hown
    simp only [Option.some.injEq, Prod.mk.injEq] at hown
    simp only [log, move, List.append_cancel_left_eq, List.cons.injEq, and_true] at hpush
    subst hpush
    exact ⟨hown.1, by simp [completedValue, Kernel.saveRegs, hown.2]⟩
  · simp [move] at hpush

end Sys

end RrPython
