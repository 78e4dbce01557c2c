import RrPython.Recorder.NullSafety
import RrPython.Recorder.Trace

/-!
# Attribution — the open record and the trace of its owner

`Tracks` relates the module's view of a process to the process's own trace: while the process is
inside a recorded syscall, the open record holds what the trace says it wrote.  Events of other
processes keep it as long as their hooks are turned away.
-/

namespace RrPython

open Foundation

/-! ## Stacks and calls -/

def Frame.isWrite : Frame → Bool
  | .write _ _ => true
  | _ => false

/-- The module's frame stands for the call. -/
inductive Matches : Frame → Call → Prop
  | syscall (hooked : Bool) : Matches (.syscall hooked) .syscall
  | write (fn : ProbedFn) (hooked : Bool) (regs : PtRegs) :
      Matches (.write fn hooked) (.write fn regs)
  | wrapRejected (region : Option SyscallRecordedMem) : Matches (.wrap none) (.wrap region)
  | wrap (m : SyscallRecordedMem) : Matches (.wrap (some m)) (.wrap (some m))

theorem any_isWrite_eq {fs : List Frame} {cs : List Call} (h : List.Forall₂ Matches fs cs) :
    fs.any Frame.isWrite = cs.any Call.isWrite := by
  induction h with
  | nil =>
      rfl
  | cons hm _ ih =>
      cases hm <;> simp [Frame.isWrite, Call.isWrite, ih]

/-- Of the writes on a stack exactly the outermost one is hooked. -/
def OutermostHooked : List Frame → Prop
  | [] => True
  | .write _ hooked :: rest => hooked = !rest.any Frame.isWrite ∧ OutermostHooked rest
  | _ :: rest => OutermostHooked rest

/-- The outermost write that the process is inside. -/
def outermostWrite : List Call → Option (ProbedFn × PtRegs)
  | [] => none
  | .write fn regs :: rest => some ((outermostWrite rest).getD (fn, regs))
  | _ :: rest => outermostWrite rest

theorem outermostWrite_isSome (cs : List Call) :
    (outermostWrite cs).isSome = cs.any Call.isWrite := by
  induction cs with
  | nil =>
      rfl
  | cons c cs ih =>
      cases c <;> simp [outermostWrite, Call.isWrite, ih]

theorem outermostWrite_of_any (fn : ProbedFn) (regs : PtRegs) {rest : List Call}
    (h : rest.any Call.isWrite = true) :
    outermostWrite (.write fn regs :: rest) = outermostWrite rest := by
  rw [← outermostWrite_isSome] at h
  obtain ⟨w, hw⟩ := Option.isSome_iff_exists.1 h
  simp [outermostWrite, hw]

theorem outermostWrite_of_none {fn : ProbedFn} {regs : PtRegs} {rest : List Call}
    (h : rest.any Call.isWrite = false) : outermostWrite (.write fn regs :: rest) = some (fn, regs) := by
  rw [← outermostWrite_isSome] at h
  simp only [Option.isSome_eq_false_iff, Option.isNone_iff_eq_none] at h
  simp [outermostWrite, h]

theorem ProbedFn.ended_begun (fn : ProbedFn) (regs : PtRegs) (mem : KernelMem) :
    fn.ended mem (fn.begun regs) = fn.written regs mem := by
  cases hsize : fn.dataSize with
  | some n =>
      simp [ProbedFn.ended, ProbedFn.begun, ProbedFn.written, hsize, Kernel.putRecord]
  | none =>
      simp only [ProbedFn.ended, ProbedFn.begun, ProbedFn.written, hsize, Kernel.copyRecord,
        Kernel.fillBytes]
      split
      · rfl
      · rename_i hzero
        -- a length of 0 leaves `bytes` empty, as reading no bytes does
        have hlen : (regs .rdx).toNat = 0 := Nat.eq_zero_of_not_pos hzero
        simp [hlen, KernelMem.read]

/-! ## The relation -/

/-- The checks of `pre_put` and `pre_copy` and their allocation. -/
def Kernel.AcceptsWrite (k : Kernel) (current : Pid) (a : Option Ptr) : Prop :=
  ¬k.notRecorded current ∧ k.currentSyscallRecord.isSome ∧ k.currentCopy = none ∧ a.isSome

/-- The checks of `pre_wrap_syscall`, its allocation and its `copy_from_user`. -/
def Kernel.AcceptsWrap (k : Kernel) (current : Pid) (w : SyscallWrapper) (regs : PtRegs)
    (mem : UserMem) (allocated : Bool) : Prop :=
  ¬k.notRecorded current ∧ k.currentSyscallRecord.isSome ∧ allocated = true ∧
    (w.readRegion regs (k.taskPtRegs current) mem).isSome

namespace Sys

/-- The open record holds what `p` wrote since it entered its syscall. -/
structure Holds (D : List CopyRecord → List CopyRecord → Prop) (p : Pid) (k : Kernel) (t : Trace)
    (q : Ptr) (R : Record) : Prop where
  current : k.currentSyscallRecord = some q
  value : heapRecord k.heap q = some R
  regs : R.userspaceRegs = t.entry
  task : R.userspaceRegsPtr = p
  copies : Attributed D t.items R.copiesToUser
  returns : ¬Kernel.neverReturns (t.entry .origRax)

structure Tracks (D : List CopyRecord → List CopyRecord → Prop) (p : Pid) (s : Sys) (t : Trace) :
    Prop where
  regs : s.kernel.taskPtRegs p = t.regs
  calls : List.Forall₂ Matches (s.frames p) t.calls
  record : s.Recording p → ∃ q R, Holds D p s.kernel t q R
  hooked : s.Recording p → OutermostHooked (s.frames p)
  pending : s.Recording p → ∀ fn regs, outermostWrite t.calls = some (fn, regs) →
    ∃ c, s.kernel.currentCopy = some c ∧ s.kernel.heap c = some (.copyRecord (fn.begun regs))

/-- Only the process inside the recorded syscall is inside hooks. -/
def HooksOwned (s : Sys) : Prop :=
  ∀ p, s.InHook p → s.Recording p

/-- The entry handlers accept the outermost writes of the process inside the recorded syscall and
turn the calls of all other processes away. -/
def HooksFollowOwner (s : Sys) : Event → Prop
  | .enterWrite p _ _ a =>
      (s.Recording p → (s.frames p).any Frame.isWrite = false → s.kernel.AcceptsWrite p a) ∧
        (¬s.Recording p → ¬s.kernel.AcceptsWrite p a)
  | .enterWrap p w regs mem allocated =>
      ¬s.Recording p → ¬s.kernel.AcceptsWrap p w regs mem allocated
  | _ => True

variable {D : List CopyRecord → List CopyRecord → Prop} {p : Pid} {s : Sys} {t : Trace}

/-! ## Who is inside hooks -/

theorem recording_move_self {fs : List Frame} {k : Kernel} :
    (s.move p fs k).Recording p ↔ .syscall true ∈ fs := by
  simp [Recording, move]

theorem recording_move_other {q : Pid} (hq : q ≠ p) {fs : List Frame} {k : Kernel} :
    (s.move p fs k).Recording q ↔ s.Recording q := by
  simp [Recording, move, hq]

theorem hooksOwned_move (h : s.HooksOwned) {fs : List Frame} {k : Kernel}
    (hfs : ∀ f ∈ fs, f.Hooked → .syscall true ∈ fs) : (s.move p fs k).HooksOwned := by
  rintro q ⟨f, hf, hhook⟩
  by_cases hq : q = p
  · subst hq
    exact recording_move_self.2 (hfs f (by simpa [move] using hf) hhook)
  · exact (recording_move_other hq).2 (h q ⟨f, by simpa [move, hq] using hf, hhook⟩)

theorem hooksOwned_tail (h : s.HooksOwned) {g : Frame} {rest : List Frame}
    (hframes : s.frames p = g :: rest) (hg : ∀ hooked, g ≠ .syscall hooked) :
    ∀ f ∈ rest, f.Hooked → .syscall true ∈ rest := by
  intro f hf hhook
  have hrec : s.Recording p := h p ⟨f, by simp [hframes, hf], hhook⟩
  rw [Recording, hframes, List.mem_cons] at hrec
  rcases hrec with hgs | hrec
  · exact absurd hgs.symm (hg true)
  · exact hrec

/-- A new call is hooked only inside a recorded syscall of its process. -/
theorem hooksOwned_cons (h : s.HooksOwned) {g : Frame} (hg : g.Hooked → s.Recording p) :
    ∀ f ∈ g :: s.frames p, f.Hooked → .syscall true ∈ g :: s.frames p := by
  intro f hf hhook
  apply List.mem_cons_of_mem g
  rcases List.mem_cons.1 hf with rfl | hf
  · exact hg hhook
  · exact h p ⟨f, hf, hhook⟩

theorem preWrapSyscall_accepts {k : Kernel} {current : Pid} {w : SyscallWrapper} {regs : PtRegs}
    {mem : UserMem} {allocated : Bool}
    (h : (k.preWrapSyscall current w regs mem allocated).isSome) :
    k.AcceptsWrap current w regs mem allocated := by
  obtain ⟨hpid, hopen, heq⟩ := preWrapSyscall_isSome h
  refine ⟨hpid, hopen, ?_, by rw [← heq]; exact h⟩
  cases allocated with
  | true =>
      rfl
  | false =>
      simp [Kernel.preWrapSyscall] at h

theorem HooksOwned.step {s' : Sys} (hinv : s.Inv) (h : s.HooksOwned) {e : Event}
    (he : s.HooksFollowOwner e) (hs : s.step e = .ok s') : s'.HooksOwned := by
  cases e with
  | enterSyscall p regs a =>
      obtain ⟨hframes, ⟨rfl, _⟩ | ⟨q, _, rfl, _⟩⟩ := (enterSyscall_cases s p regs a).of_ok hs
      · exact hooksOwned_move h (by simp [Frame.Hooked])
      · exact hooksOwned_move h (by simp)
  | exitSyscall p regs =>
      rcases (exitSyscall_cases hinv p regs).of_ok hs with
        ⟨hframes, rfl⟩ | ⟨hframes, q, r, R, _, ⟨_, rfl⟩ | ⟨_, rfl⟩⟩
      · exact hooksOwned_move h (by simp)
      · exact hooksOwned_move (k := (s.kernel.saveRegs p regs).pushRecord q r) h
          (show ∀ f ∈ ([] : List Frame), f.Hooked → Frame.syscall true ∈ [] by simp)
      · exact hooksOwned_move h (by simp)
  | enterWrite p fn regs a =>
      rcases (enterWrite_cases s p fn regs a).of_ok hs with
        ⟨rfl, _⟩ | ⟨c, ha, rfl, hpid, hopen, hnone, _, _⟩
      · exact hooksOwned_move h (hooksOwned_cons h (by simp [Frame.Hooked]))
      · refine hooksOwned_move h (hooksOwned_cons h fun _ => ?_)
        by_contra hrec
        exact he.2 hrec ⟨hpid, hopen, hnone, by simp [ha]⟩
  | exitWrite p returnValue mem =>
      obtain ⟨fn, hooked, rest, hframes,
        ⟨_, rfl⟩ | ⟨_, c, regs, _, _, _, ⟨_, rfl⟩ | ⟨_, q, r, R, _, rfl⟩⟩⟩ :=
        (exitWrite_cases hinv p returnValue mem).of_ok hs
      · exact hooksOwned_move h (hooksOwned_tail h hframes (by simp))
      · exact hooksOwned_move h (hooksOwned_tail h hframes (by simp))
      · exact hooksOwned_move h (hooksOwned_tail h hframes (by simp))
  | enterWrap p w regs mem allocated =>
      cases hs
      refine hooksOwned_move h (hooksOwned_cons h fun hhook => ?_)
      by_contra hrec
      exact he hrec (preWrapSyscall_accepts hhook)
  | exitWrap p mem allocated allocs =>
      obtain ⟨recorded, rest, k', hframes, rfl, hw⟩ :=
        (exitWrap_cases hinv p mem allocated allocs).of_ok hs
      exact hooksOwned_move h (hooksOwned_tail h hframes (by simp))
  | writeProc ppos count parsed =>
      cases hs
      exact h
  | read r =>
      obtain ⟨k', u, n, _, _, rfl, _⟩ := (read_cases hinv r).of_ok hs
      exact h

/-! ## Events of other processes -/

theorem Holds.keeps {k k' : Kernel} {q : Ptr} {R : Record} (h : Holds D p k t q R)
    (hk : k.KeepsRecord k') : Holds D p k' t q R :=
  ⟨hk.pointer.trans h.current, (hk.value q h.current).trans h.value, h.regs, h.task, h.copies,
    h.returns⟩

theorem Holds.congr {k : Kernel} {t' : Trace} {q : Ptr} {R : Record} (h : Holds D p k t q R)
    (hentry : t'.entry = t.entry) (hitems : t'.items = t.items) : Holds D p k t' q R :=
  ⟨h.current, h.value, h.regs.trans hentry.symm, h.task, hitems ▸ h.copies, hentry ▸ h.returns⟩

/-- Steps that touch neither the process nor, while it is inside a recorded syscall, its record and
its pending copy. -/
theorem Tracks.keeps {s' : Sys} (h : Tracks D p s t) (hframes : s'.frames p = s.frames p)
    (hregs : s'.kernel.taskPtRegs p = s.kernel.taskPtRegs p)
    (hkept : s.Recording p → s.kernel.KeepsRecord s'.kernel ∧ s.kernel.KeepsCopy s'.kernel) :
    Tracks D p s' t := by
  have hrec : s'.Recording p → s.Recording p := by
    simp [Recording, hframes]
  refine ⟨hregs.trans h.regs, hframes ▸ h.calls, ?_, ?_, ?_⟩
  · intro hp
    obtain ⟨q, R, hR⟩ := h.record (hrec hp)
    exact ⟨q, R, hR.keeps (hkept (hrec hp)).1⟩
  · intro hp
    exact hframes ▸ h.hooked (hrec hp)
  · intro hp fn regs hw
    obtain ⟨c, hc, hblock⟩ := h.pending (hrec hp) fn regs hw
    have hk := (hkept (hrec hp)).2
    exact ⟨c, hk.pointer.trans hc, (hk.block c hc).trans hblock⟩

theorem Wrapped.keepsRecord {k k' : Kernel} (h : Wrapped k [] k') (hinv : k.Inv) :
    k.KeepsRecord k' := by
  refine ⟨h.current, ?_⟩
  intro q hq
  obtain ⟨r, hr⟩ := hinv.current_live hq
  obtain ⟨cs, _, _, hR⟩ := hinv.heap.heapRecord_eq hr
  rw [h.value q _ hq hR, hR]
  rfl

theorem Tracks.other {s' : Sys} (hinv : s.Inv) (howned : s.HooksOwned) (h : Tracks D p s t)
    {e : Event} (he : s.HooksFollowOwner e) (hp : e.process ≠ some p) (hs : s.step e = .ok s') :
    Tracks D p s' t := by
  -- an event of `q` that changes the record or the pending copy needs `q` to be the owner
  have hnot : ∀ {q}, q ≠ p → s.Recording q → ¬s.Recording p :=
    fun hq hrq hrp => hq (hinv.recording_unique hrq hrp)
  have hmove : ∀ {q fs k}, q ≠ p → (s.move q fs k).frames p = s.frames p := by
    intro q fs k hq
    simp [move, Function.update_of_ne hq.symm]
  have hsaved : ∀ {q} (regs : PtRegs), q ≠ p →
      (s.kernel.saveRegs q regs).taskPtRegs p = s.kernel.taskPtRegs p := by
    intro q regs hq
    simp [Kernel.saveRegs, Function.update_of_ne hq.symm]
  cases e with
  | enterSyscall q regs a =>
      have hq : q ≠ p := fun heq => hp (by rw [heq]; rfl)
      obtain ⟨_, ⟨rfl, _⟩ | ⟨r, _, rfl, _, _, hopen, _⟩⟩ := (enterSyscall_cases s q regs a).of_ok hs
      · exact h.keeps (hmove hq) (hsaved regs hq) fun _ =>
          ⟨⟨rfl, fun _ _ => rfl⟩, keepsCopy_saveRegs s.kernel q regs⟩
      · refine h.keeps (hmove hq) (hsaved regs hq) fun hrec => ?_
        obtain ⟨x, hx⟩ := hinv.isSome_of_recording hrec
        simp [hopen] at hx
  | exitSyscall q regs =>
      have hq : q ≠ p := fun heq => hp (by rw [heq]; rfl)
      have hleft : s.frames q = [.syscall true] → ¬s.Recording p := by
        intro hframes
        exact hnot hq (by simp [Recording, hframes])
      rcases (exitSyscall_cases hinv q regs).of_ok hs with
        ⟨hframes, rfl⟩ | ⟨hframes, x, r, R, _, ⟨_, rfl⟩ | ⟨_, rfl⟩⟩
      · exact h.keeps (hmove hq) (hsaved regs hq) fun _ =>
          ⟨⟨rfl, fun _ _ => rfl⟩, keepsCopy_saveRegs s.kernel q regs⟩
      · exact h.keeps (hmove (k := (s.kernel.saveRegs q regs).pushRecord x r) hq) (hsaved regs hq)
          fun hrec => absurd hrec (hleft hframes)
      · exact h.keeps (hmove hq) (hsaved regs hq) fun hrec => absurd hrec (hleft hframes)
  | enterWrite q fn regs a =>
      have hq : q ≠ p := fun heq => hp (by rw [heq]; rfl)
      rcases (enterWrite_cases s q fn regs a).of_ok hs with
        ⟨rfl, _⟩ | ⟨c, ha, rfl, hpid, hopen, hnone, _, _⟩
      · exact h.keeps (hmove hq) rfl fun _ =>
          ⟨Kernel.KeepsRecord.refl s.kernel, Kernel.KeepsCopy.refl s.kernel⟩
      · refine h.keeps (hmove hq) rfl fun hrec => ?_
        have hrecq : s.Recording q := by
          by_contra hrecq
          exact he.2 hrecq ⟨hpid, hopen, hnone, by simp [ha]⟩
        exact absurd hrec (hnot hq hrecq)
  | exitWrite q returnValue mem =>
      have hq : q ≠ p := fun heq => hp (by rw [heq]; rfl)
      obtain ⟨fn, hooked, rest, hframes, hcase⟩ := (exitWrite_cases hinv q returnValue mem).of_ok hs
      have hleft : hooked = true → ¬s.Recording p := by
        rintro rfl
        exact hnot hq (howned q ⟨.write fn true, by simp [hframes], rfl⟩)
      rcases hcase with ⟨_, rfl⟩ | ⟨hhook, c, regs, _, _, _, ⟨_, rfl⟩ | ⟨_, x, r, R, _, rfl⟩⟩
      · exact h.keeps (hmove hq) rfl fun _ =>
          ⟨Kernel.KeepsRecord.refl s.kernel, Kernel.KeepsCopy.refl s.kernel⟩
      · exact h.keeps (hmove hq) rfl fun hrec => absurd hrec (hleft hhook)
      · exact h.keeps (hmove hq) rfl fun hrec => absurd hrec (hleft hhook)
  | enterWrap q w regs mem allocated =>
      have hq : q ≠ p := fun heq => hp (by rw [heq]; rfl)
      cases hs
      exact h.keeps (hmove hq) rfl fun _ =>
        ⟨Kernel.KeepsRecord.refl s.kernel, Kernel.KeepsCopy.refl s.kernel⟩
  | exitWrap q mem allocated allocs =>
      have hq : q ≠ p := fun heq => hp (by rw [heq]; rfl)
      obtain ⟨recorded, rest, k', hframes, rfl, hw⟩ :=
        (exitWrap_cases hinv q mem allocated allocs).of_ok hs
      refine h.keeps (hmove hq) (congrFun hw.regs p) fun hrec => ?_
      cases recorded with
      | none =>
          exact ⟨Wrapped.keepsRecord hw hinv.kernel, hw.copy⟩
      | some m =>
          have hrecq : s.Recording q := howned q ⟨.wrap (some m), by simp [hframes], rfl⟩
          exact absurd hrec (hnot hq hrecq)
  | writeProc ppos count parsed =>
      cases hs
      rcases writeProc_eq s.kernel ppos count parsed with heq | ⟨pid, _, heq⟩
      · simpa [writePid, heq] using h
      · unfold writePid
        rw [heq]
        exact h.keeps rfl rfl fun _ => ⟨⟨rfl, fun _ _ => rfl⟩, ⟨rfl, fun _ _ => rfl⟩⟩
  | read r =>
      obtain ⟨k', u, n, _, _, rfl, _, hcopy, hrecord, _, hregs⟩ := (read_cases hinv r).of_ok hs
      exact h.keeps rfl (congrFun hregs p) fun _ => ⟨hrecord, hcopy⟩

/-! ## Events of the process itself -/

theorem frames_move_self {fs : List Frame} {k : Kernel} : (s.move p fs k).frames p = fs := by
  simp [move]

/-- Outside a recorded syscall only the stacks and the saved registers have to agree. -/
theorem Tracks.notRecording {s' : Sys} {t' : Trace} (hregs : s'.kernel.taskPtRegs p = t'.regs)
    (hcalls : List.Forall₂ Matches (s'.frames p) t'.calls) (hrec : ¬s'.Recording p) :
    Tracks D p s' t' :=
  ⟨hregs, hcalls, fun h => absurd h hrec, fun h => absurd h hrec, fun h => absurd h hrec⟩

theorem Tracks.enterSyscall {s' : Sys} {regs : PtRegs} {a : Option Ptr}
    (hs : s.step (.enterSyscall p regs a) = .ok s') :
    Tracks D p s' (t.advance (.enterSyscall p regs a)) := by
  have hsaved : (s.kernel.saveRegs p regs).taskPtRegs p = regs := by
    simp [Kernel.saveRegs]
  obtain ⟨_, ⟨rfl, _⟩ | ⟨q, _, rfl, hnr, _, _, _⟩⟩ := (enterSyscall_cases s p regs a).of_ok hs
  · refine Tracks.notRecording hsaved ?_ ?_
    · rw [frames_move_self]
      exact .cons (.syscall false) .nil
    · rw [recording_move_self]
      simp
  · refine ⟨hsaved, ?_, fun _ => ?_, fun _ => ?_, ?_⟩
    · rw [frames_move_self]
      exact .cons (.syscall true) .nil
    · exact ⟨q, _, rfl, (s.kernel.saveRegs p regs).openRecord_value q p, hsaved, rfl, .nil, hnr⟩
    · rw [frames_move_self]
      exact trivial
    · intro _ fn regs' hw
      simp [Trace.advance, outermostWrite] at hw

theorem Tracks.exitSyscall {s' : Sys} (hinv : s.Inv) (h : Tracks D p s t) {regs : PtRegs}
    (hs : s.step (.exitSyscall p regs) = .ok s') :
    Tracks D p s' (t.advance (.exitSyscall p regs)) := by
  have hsaved : (s.kernel.saveRegs p regs).taskPtRegs p = regs := by
    simp [Kernel.saveRegs]
  have hregs : (t.advance (.exitSyscall p regs)).regs = regs := by
    simp only [Trace.advance, Trace.exitSyscall]
    split <;> rfl
  have hcalls : ∀ {hooked}, s.frames p = [.syscall hooked] →
      List.Forall₂ Matches [] (t.advance (.exitSyscall p regs)).calls := by
    intro hooked hframes
    have hm := h.calls
    rw [hframes] at hm
    have htail : (t.advance (.exitSyscall p regs)).calls = t.calls.tail := by
      simp only [Trace.advance, Trace.exitSyscall]
      split <;> rfl
    obtain ⟨_, _, _, hrest, hcons⟩ := List.forall₂_cons_left_iff.1 hm
    rw [htail, hcons]
    exact hrest
  rcases (exitSyscall_cases hinv p regs).of_ok hs with
    ⟨hframes, rfl⟩ | ⟨hframes, q, r, R, _, ⟨_, rfl⟩ | ⟨_, rfl⟩⟩
  · refine Tracks.notRecording (hsaved.trans hregs.symm) ?_ ?_
    · rw [frames_move_self]
      exact hcalls hframes
    · simp [recording_move_self]
  · refine Tracks.notRecording (hsaved.trans hregs.symm) ?_ ?_
    · have hempty : ((s.move p [] ((s.kernel.saveRegs p regs).pushRecord q r)).log
          [completedValue (s.kernel.saveRegs p regs) R]).frames p = [] := by
        simp [log, move]
      rw [hempty]
      exact hcalls hframes
    · simp [Recording, log, move]
  · refine Tracks.notRecording (hsaved.trans hregs.symm) ?_ ?_
    · rw [frames_move_self]
      exact hcalls hframes
    · simp [recording_move_self]

/-! ### Entering a write -/

section EnterWrite

variable {fn : ProbedFn} {regs : PtRegs} {a : Option Ptr}

theorem recording_enterWrite {hooked : Bool} {k : Kernel}
    (hp : (s.move p (.write fn hooked :: s.frames p) k).Recording p) : s.Recording p := by
  rw [recording_move_self] at hp
  simpa [Recording] using hp

/-- The entry is turned away, which inside a recorded syscall happens to nested writes only. -/
theorem Tracks.enterWrite_rejected (h : Tracks D p s t)
    (hnested : s.Recording p → (s.frames p).any Frame.isWrite = true) :
    Tracks D p (s.move p (.write fn false :: s.frames p) s.kernel)
      (t.advance (.enterWrite p fn regs a)) := by
  refine ⟨h.regs, ?_, fun hp => ?_, fun hp => ?_, fun hp fn' regs' hw => ?_⟩
  · rw [frames_move_self]
    exact .cons (.write fn false regs) h.calls
  · obtain ⟨q, R, hR⟩ := h.record (recording_enterWrite hp)
    exact ⟨q, R, hR.congr rfl rfl⟩
  · rw [frames_move_self]
    exact ⟨by simp [hnested (recording_enterWrite hp)], h.hooked (recording_enterWrite hp)⟩
  · have hin : t.calls.any Call.isWrite = true := by
      rw [← any_isWrite_eq h.calls]
      exact hnested (recording_enterWrite hp)
    rw [Trace.advance, outermostWrite_of_any fn regs hin] at hw
    exact h.pending (recording_enterWrite hp) fn' regs' hw

/-- The entry is accepted: no copy was pending, so the write is outermost, and the new one is its
own. -/
theorem Tracks.enterWrite_accepted (h : Tracks D p s t) (hinv : s.Inv) {c : Ptr}
    (hnone : s.kernel.currentCopy = none) (hc : s.kernel.heap c = none) :
    Tracks D p (s.move p (.write fn true :: s.frames p) (s.kernel.openCopy c (fn.begun regs)))
      (t.advance (.enterWrite p fn regs a)) := by
  have houter : s.Recording p → t.calls.any Call.isWrite = false := by
    intro hp
    by_contra hin
    rw [Bool.not_eq_false, ← outermostWrite_isSome] at hin
    obtain ⟨⟨fn', regs'⟩, hw⟩ := Option.isSome_iff_exists.1 hin
    obtain ⟨c', hc', _⟩ := h.pending hp fn' regs' hw
    rw [hnone] at hc'
    cases hc'
  refine ⟨h.regs, ?_, fun hp => ?_, fun hp => ?_, fun hp fn' regs' hw => ?_⟩
  · rw [frames_move_self]
    exact .cons (.write fn true regs) h.calls
  · obtain ⟨q, R, hR⟩ := h.record (recording_enterWrite hp)
    exact ⟨q, R, (hR.keeps (hinv.kernel.openCopy hc (fn.begun regs)).2.1).congr rfl rfl⟩
  · rw [frames_move_self]
    refine ⟨?_, h.hooked (recording_enterWrite hp)⟩
    rw [any_isWrite_eq h.calls, houter (recording_enterWrite hp)]
    rfl
  · rw [Trace.advance, outermostWrite_of_none (houter (recording_enterWrite hp))] at hw
    cases hw
    exact ⟨c, rfl, Function.update_self ..⟩

theorem Tracks.enterWrite {s' : Sys} (hinv : s.Inv) (h : Tracks D p s t)
    (he : s.HooksFollowOwner (.enterWrite p fn regs a))
    (hs : s.step (.enterWrite p fn regs a) = .ok s') :
    Tracks D p s' (t.advance (.enterWrite p fn regs a)) := by
  rcases (enterWrite_cases s p fn regs a).of_ok hs with
    ⟨rfl, hreason⟩ | ⟨c, _, rfl, _, _, hnone, hc, _⟩
  · refine h.enterWrite_rejected fun hp => ?_
    by_contra houter
    -- an outermost write of the owner would have passed all checks
    obtain ⟨hpid, hopen, hnone, ha⟩ := he.1 hp (by simpa using houter)
    rcases hreason with hpid' | hopen' | hcopy | ha'
    · exact hpid hpid'
    · simp [hopen'] at hopen
    · simp [hnone] at hcopy
    · simp [ha'] at ha
  · exact h.enterWrite_accepted hinv hnone hc

end EnterWrite

/-! ### Leaving a write -/

/-- `p` is inside a write, whose entry was `hooked` or turned away, and inside the calls `rest`. -/
structure AtWrite (p : Pid) (s : Sys) (t : Trace) (fn : ProbedFn) (hooked : Bool) (regs : PtRegs)
    (rest : List Frame) (calls : List Call) : Prop where
  frames : s.frames p = .write fn hooked :: rest
  entered : t.calls = .write fn regs :: calls
  behind : List.Forall₂ Matches rest calls

section AtWrite

variable {fn : ProbedFn} {hooked : Bool} {regs : PtRegs} {rest : List Frame} {calls : List Call}
  {returnValue : Word} {mem : KernelMem}

theorem Tracks.atWrite (h : Tracks D p s t) (hframes : s.frames p = .write fn hooked :: rest) :
    ∃ regs calls, AtWrite p s t fn hooked regs rest calls := by
  have hm := h.calls
  rw [hframes] at hm
  obtain ⟨call, calls, hfirst, hrest, hcalls⟩ := List.forall₂_cons_left_iff.1 hm
  cases hfirst with
  | write fn hooked regs =>
      exact ⟨regs, calls, hframes, hcalls, hrest⟩

/-- Inside a recorded syscall a write is hooked exactly if it is the outermost one. -/
theorem AtWrite.hooked_eq (h : AtWrite p s t fn hooked regs rest calls) (ht : Tracks D p s t)
    (hp : s.Recording p) : hooked = !calls.any Call.isWrite ∧ OutermostHooked rest := by
  have hout := ht.hooked hp
  rw [h.frames] at hout
  rw [← any_isWrite_eq h.behind]
  exact hout

/-- What `p` is left in is tracked if the record and the pending copy are. -/
theorem AtWrite.leave (h : AtWrite p s t fn hooked regs rest calls) (ht : Tracks D p s t) {k : Kernel}
    (hregs : k.taskPtRegs p = s.kernel.taskPtRegs p) {t' : Trace} (htregs : t'.regs = t.regs)
    (htcalls : t'.calls = calls) (hrecord : s.Recording p → ∃ q R, Holds D p k t' q R)
    (hpending : s.Recording p → ∀ fn' regs', outermostWrite calls = some (fn', regs') →
      ∃ c, k.currentCopy = some c ∧ k.heap c = some (.copyRecord (fn'.begun regs'))) :
    Tracks D p (s.move p rest k) t' := by
  have hrec : (s.move p rest k).Recording p → s.Recording p := by
    intro hp
    rw [recording_move_self] at hp
    simp [Recording, h.frames, hp]
  refine ⟨hregs.trans (ht.regs.trans htregs.symm), ?_, fun hp => hrecord (hrec hp), fun hp => ?_, ?_⟩
  · rw [frames_move_self, htcalls]
    exact h.behind
  · rw [frames_move_self]
    exact (h.hooked_eq ht (hrec hp)).2
  · intro hp
    rw [htcalls]
    exact hpending (hrec hp)

theorem AtWrite.advance_eq (h : AtWrite p s t fn hooked regs rest calls) :
    t.advance (.exitWrite p returnValue mem) =
      if returnValue = 0 ∧ calls.any Call.isWrite = false then
        { t with calls := calls, items := t.items ++ [.write (fn.written regs mem)] }
      else { t with calls := calls } := by
  simp only [Trace.advance, Trace.exitWrite, h.entered]

/-- The entry was turned away: inside a recorded syscall that means a nested write, of which the trace
takes no notice either. -/
theorem AtWrite.exit_rejected (h : AtWrite p s t fn false regs rest calls) (ht : Tracks D p s t) :
    Tracks D p (s.move p rest s.kernel) (t.advance (.exitWrite p returnValue mem)) := by
  have hnested : s.Recording p → calls.any Call.isWrite = true := by
    intro hp
    simpa using (h.hooked_eq ht hp).1
  refine h.leave ht rfl ?_ ?_ (fun hp => ?_) fun hp fn' regs' hw => ?_
  · rw [h.advance_eq]
    split <;> rfl
  · rw [h.advance_eq]
    split <;> rfl
  · obtain ⟨q, R, hR⟩ := ht.record hp
    rw [h.advance_eq, if_neg (by simp [hnested hp])]
    exact ⟨q, R, hR.congr rfl rfl⟩
  · rw [← outermostWrite_of_any fn regs (hnested hp), ← h.entered] at hw
    exact ht.pending hp fn' regs' hw

/-- The entry was accepted: the write is the outermost one, and the pending copy is its own. -/
theorem AtWrite.accepted (h : AtWrite p s t fn true regs rest calls) (ht : Tracks D p s t)
    (howned : s.HooksOwned) : s.Recording p ∧ calls.any Call.isWrite = false ∧
      ∃ c, s.kernel.currentCopy = some c ∧ s.kernel.heap c = some (.copyRecord (fn.begun regs)) := by
  have hp : s.Recording p := howned p ⟨.write fn true, by simp [h.frames], rfl⟩
  have houter : calls.any Call.isWrite = false := by
    simpa using (h.hooked_eq ht hp).1
  refine ⟨hp, houter, ht.pending hp fn regs ?_⟩
  rw [h.entered]
  exact outermostWrite_of_none houter

theorem outermostWrite_ne_some (houter : calls.any Call.isWrite = false) (w : ProbedFn × PtRegs) :
    outermostWrite calls ≠ some w := by
  intro hw
  have hsome := outermostWrite_isSome calls
  simp [hw, houter] at hsome

/-- The write failed: the copy is freed, and the trace has no item for it. -/
theorem AtWrite.exit_failed (h : AtWrite p s t fn true regs rest calls) (ht : Tracks D p s t)
    (hinv : s.Inv) (howned : s.HooksOwned) (hne : returnValue ≠ 0) {c : Ptr}
    (hcopy : s.kernel.currentCopy = some c) :
    Tracks D p (s.move p rest (s.kernel.dropCopy c)) (t.advance (.exitWrite p returnValue mem)) := by
  obtain ⟨_, houter, _⟩ := h.accepted ht howned
  rw [h.advance_eq, if_neg fun hret => hne hret.1]
  refine h.leave ht ?_ ?_ ?_ (fun hp => ?_) fun _ fn' regs' hw => ?_
  · rfl
  · rfl
  · rfl
  · obtain ⟨q, R, hR⟩ := ht.record hp
    exact ⟨q, R, (hR.keeps (hinv.kernel.dropCopy hcopy).2.1).congr rfl rfl⟩
  · exact absurd hw (outermostWrite_ne_some houter _)

/-- The write succeeded: the copy goes to the open record, which is that of this very process. -/
theorem AtWrite.exit_copied (h : AtWrite p s t fn true regs rest calls) (ht : Tracks D p s t)
    (hinv : s.Inv) (howned : s.HooksOwned) {c q : Ptr} {r : SyscallRecord Ptr} {R : Record}
    {regs₀ : PtRegs} (hcopy : s.kernel.currentCopy = some c)
    (hc : s.kernel.heap c = some (.copyRecord (fn.begun regs₀)))
    (hlen : (fn.begun regs₀).len.toNat + 40 ≤ kmallocMaxSize) (hopen : Open s.kernel q r R) :
    Tracks D p (s.move p rest { s.kernel.appendCopy q r c (fn.ended mem (fn.begun regs₀)) with
      currentCopy := none }) (t.advance (.exitWrite p 0 mem)) := by
  obtain ⟨_, houter, c', hc', hblock⟩ := h.accepted ht howned
  have hbegun : fn.begun regs₀ = fn.begun regs := by
    rw [hcopy] at hc'
    cases hc'
    rw [hc] at hblock
    simpa using hblock
  rw [h.advance_eq, if_pos ⟨rfl, houter⟩]
  refine h.leave ht ?_ ?_ ?_ (fun hp => ?_) fun _ fn' regs' hw => ?_
  · rfl
  · rfl
  · rfl
  · obtain ⟨q', R', hR⟩ := ht.record hp
    have hq : q = q' := by
      have hcur := hopen.current
      rw [hR.current] at hcur
      simpa using hcur.symm
    subst hq
    have hun := (hinv.kernel.copy c hcopy).2
    have hsized := fn.ended_sized mem hlen
    obtain ⟨_, _, hvalue, _⟩ :=
      hinv.kernel.appendCopy hopen.current hopen.block (by simp [hc]) hun hsized
    refine ⟨q, _, hR.current, hvalue R' hR.value, hR.regs, hR.task, ?_, hR.returns⟩
    rw [hbegun, fn.ended_begun]
    exact .write _ hR.copies
  · exact absurd hw (outermostWrite_ne_some houter _)

end AtWrite

theorem Tracks.exitWrite {s' : Sys} (hinv : s.Inv) (howned : s.HooksOwned) (h : Tracks D p s t)
    {returnValue : Word} {mem : KernelMem} (hs : s.step (.exitWrite p returnValue mem) = .ok s') :
    Tracks D p s' (t.advance (.exitWrite p returnValue mem)) := by
  obtain ⟨fn, hooked, rest, hframes, hcase⟩ := (exitWrite_cases hinv p returnValue mem).of_ok hs
  obtain ⟨regs, calls, hat⟩ := h.atWrite hframes
  rcases hcase with ⟨rfl, rfl⟩ |
    ⟨rfl, c, regs₀, hcopy, hc, hlen, ⟨hne, rfl⟩ | ⟨rfl, q, r, R, hopen, rfl⟩⟩
  · exact hat.exit_rejected h
  · exact hat.exit_failed h hinv howned hne hcopy
  · exact hat.exit_copied h hinv howned hcopy hc hlen hopen

theorem Tracks.enterWrap {s' : Sys} (h : Tracks D p s t) {w : SyscallWrapper} {regs : PtRegs}
    {mem : UserMem} {allocated : Bool} (hs : s.step (.enterWrap p w regs mem allocated) = .ok s') :
    Tracks D p s' (t.advance (.enterWrap p w regs mem allocated)) := by
  cases hs
  have hrec : (s.enterWrap p w regs mem allocated).Recording p → s.Recording p := by
    simp [Recording, Sys.enterWrap, move]
  refine ⟨h.regs, ?_, ?_, ?_, fun hp => h.pending (hrec hp)⟩
  · -- the region that the trace reads is the one `pre_wrap_syscall` stored
    rw [Sys.enterWrap, frames_move_self]
    refine .cons ?_ h.calls
    cases hpre : s.kernel.preWrapSyscall p w regs mem allocated with
    | none =>
        exact .wrapRejected _
    | some m =>
        have hregion : w.readRegion regs t.regs mem = some m := by
          rw [← h.regs, ← (preWrapSyscall_isSome (by rw [hpre]; rfl)).2.2, hpre]
        rw [hregion]
        exact .wrap m
  · -- the record does not change
    intro hp
    obtain ⟨q, R, hR⟩ := h.record (hrec hp)
    exact ⟨q, R, hR.congr rfl rfl⟩
  · -- a wrapped call is no write
    intro hp
    rw [Sys.enterWrap, frames_move_self]
    exact h.hooked (hrec hp)

theorem addCopies_eq (R : Record) (cs : List CopyRecord) :
    addCopies R cs = { R with
      copiesToUser := R.copiesToUser ++ cs
      amountOfCopies := R.amountOfCopies + BitVec.ofNat 64 cs.length } := by
  induction cs generalizing R with
  | nil =>
      simp [addCopies]
  | cons c cs ih =>
      have htail := ih (SyscallRecord.addTail R c)
      have hcount : R.amountOfCopies + 1#64 + BitVec.ofNat 64 cs.length =
          R.amountOfCopies + BitVec.ofNat 64 (cs.length + 1) := by
        rw [Nat.add_comm, BitVec.ofNat_add, ← BitVec.add_assoc]
      simpa [addCopies, SyscallRecord.addTail, hcount] using htail

theorem addCopies_copies (R : Record) (cs : List CopyRecord) :
    (addCopies R cs).copiesToUser = R.copiesToUser ++ cs := by
  rw [addCopies_eq]

theorem addCopies_fields (R : Record) (cs : List CopyRecord) :
    (addCopies R cs).userspaceRegs = R.userspaceRegs ∧
      (addCopies R cs).userspaceRegsPtr = R.userspaceRegsPtr := by
  rw [addCopies_eq]
  exact ⟨rfl, rfl⟩

theorem Tracks.exitWrap {s' : Sys} (hinv : s.Inv) (h : Tracks D p s t) {mem : UserMem}
    {allocated : Bool} {allocs : List (Option Ptr)}
    (hD : ∀ recorded region frames calls, s.Recording p → s.frames p = .wrap recorded :: frames →
      t.calls = .wrap region :: calls → recorded = none ∨ recorded = region →
        D (wrapCopies recorded mem allocated allocs) (regionDiffs region mem))
    (hs : s.step (.exitWrap p mem allocated allocs) = .ok s') :
    Tracks D p s' (t.advance (.exitWrap p mem allocated allocs)) := by
  obtain ⟨recorded, rest, k', hframes, rfl, hw⟩ :=
    (exitWrap_cases hinv p mem allocated allocs).of_ok hs
  have hm := h.calls
  rw [hframes] at hm
  obtain ⟨call, calls, hfirst, hrest, hcalls⟩ := List.forall₂_cons_left_iff.1 hm
  obtain ⟨region, hcall, hregion⟩ : ∃ region, call = .wrap region ∧
      (recorded = none ∨ recorded = region) := by
    cases hfirst with
    | wrapRejected region =>
        exact ⟨region, rfl, Or.inl rfl⟩
    | wrap m =>
        exact ⟨some m, rfl, Or.inr rfl⟩
  have hadvance : t.advance (.exitWrap p mem allocated allocs) =
      { t with calls := calls, items := t.items ++ [.diffs (regionDiffs region mem)] } := by
    simp [Trace.advance, Trace.exitWrap, hcalls, hcall]
  have hrec : (s.move p rest k').Recording p → s.Recording p := by
    intro hp
    rw [recording_move_self] at hp
    simp [Recording, hframes, hp]
  rw [hadvance]
  refine ⟨(congrFun hw.regs p).trans h.regs, ?_, ?_, ?_, ?_⟩
  · -- the functions the process is left inside
    rw [frames_move_self]
    exact hrest
  · -- the record has the copies of the wrapper, the trace its differences
    intro hp
    obtain ⟨q, R, hR⟩ := h.record (hrec hp)
    obtain ⟨hregs, htask⟩ := addCopies_fields R (wrapCopies recorded mem allocated allocs)
    refine ⟨q, _, hw.current.trans hR.current, hw.value q R hR.current hR.value,
      hregs.trans hR.regs, htask.trans hR.task, ?_, hR.returns⟩
    rw [addCopies_copies]
    exact .diffs (hD recorded region rest calls (hrec hp) hframes (hcall ▸ hcalls) hregion)
      hR.copies
  · -- a wrapped call is no write, so the hooked writes are as before
    intro hp
    have hout := h.hooked (hrec hp)
    rw [hframes] at hout
    rw [frames_move_self]
    exact hout
  · -- nor is it the outermost write
    intro hp fn regs hw'
    have hsame : outermostWrite t.calls = outermostWrite calls := by
      rw [hcalls, hcall]
      rfl
    obtain ⟨c, hc, hblock⟩ := h.pending (hrec hp) fn regs (hsame.trans hw')
    exact ⟨c, hw.copy.pointer.trans hc, (hw.copy.block c hc).trans hblock⟩

/-- How the copies of a wrapped call have to relate to its differences, for the events of `p`. -/
def WrapsRelate (D : List CopyRecord → List CopyRecord → Prop) (p : Pid) (s : Sys) (t : Trace) :
    Event → Prop
  | .exitWrap q mem allocated allocs => q = p → ∀ recorded region frames calls, s.Recording p →
      s.frames p = .wrap recorded :: frames → t.calls = .wrap region :: calls →
        recorded = none ∨ recorded = region →
          D (wrapCopies recorded mem allocated allocs) (regionDiffs region mem)
  | _ => True

theorem Tracks.step {s' : Sys} (hinv : s.Inv) (howned : s.HooksOwned) (h : Tracks D p s t)
    {e : Event} (he : s.HooksFollowOwner e) (hD : WrapsRelate D p s t e) (hs : s.step e = .ok s') :
    Tracks D p s' (t.observe p e) := by
  by_cases hp : e.process = some p
  · rw [Trace.observe, if_pos hp]
    cases e with
    | enterSyscall q regs a =>
        obtain rfl : q = p := by simpa [Event.process] using hp
        exact Tracks.enterSyscall hs
    | exitSyscall q regs =>
        obtain rfl : q = p := by simpa [Event.process] using hp
        exact h.exitSyscall hinv hs
    | enterWrite q fn regs a =>
        obtain rfl : q = p := by simpa [Event.process] using hp
        exact h.enterWrite hinv he hs
    | exitWrite q returnValue mem =>
        obtain rfl : q = p := by simpa [Event.process] using hp
        exact h.exitWrite hinv howned hs
    | enterWrap q w regs mem allocated =>
        obtain rfl : q = p := by simpa [Event.process] using hp
        exact h.enterWrap hs
    | exitWrap q mem allocated allocs =>
        obtain rfl : q = p := by simpa [Event.process] using hp
        exact h.exitWrap hinv (hD rfl) hs
    | writeProc ppos count parsed =>
        simp [Event.process] at hp
    | read r =>
        simp [Event.process] at hp
  · rw [Trace.observe, if_neg hp]
    exact h.other hinv howned he hp hs

end Sys

end RrPython
