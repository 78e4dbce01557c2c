import RrPython.Recorder.Seen

/-!
# Handover — recording one process after the other

The listener of the pager has one client recorded after the other, each until the pid of the next is
written.  If that happens between two recorded syscalls, the records are the syscalls that each process
entered while its pid was set, whoever else makes syscalls in between.
-/

namespace RrPython

open Foundation

/-- What all processes did, and which of their syscalls they entered while their pid was set. -/
structure Windows where
  trace : Pid → Trace
  /-- `recorded_process_pid`. -/
  pid : Int
  /-- The last syscall was entered while the pid was set. -/
  entered : Pid → Bool
  /-- The syscalls that have returned, of those that were entered while the pid was set. -/
  log : List (Pid × TracedSyscall)

namespace Windows

def init (pid : Int) (taskPtRegs : Pid → PtRegs) : Windows where
  trace := fun p => Trace.init (taskPtRegs p)
  pid
  entered := fun _ => false
  log := []

def observe (w : Windows) (e : Event) : Windows :=
  let trace := fun p => (w.trace p).observe p e
  match e with
  | .writeProc ppos count parsed =>
      if ppos > 0 ∨ count > bufferSize then { w with trace }
      else { w with trace, pid := parsed.getD w.pid }
  | .enterSyscall p _ _ =>
      { w with trace, entered := Function.update w.entered p (w.pid = p ∧ p ≠ 0) }
  | .exitSyscall p _ =>
      let new := if w.entered p then (trace p).log.drop (w.trace p).log.length else []
      { w with trace, log := w.log ++ new.map (p, ·) }
  | _ => { w with trace }

end Windows

namespace Sys

/-- Nothing that the hooks ask for in a recorded syscall is refused, and none of its writes comes after
recording was stopped; and while a syscall is being recorded the pid of no other process is written. -/
def HandsOver (s : Sys) : Event → Prop
  | .writeProc _ _ parsed => ∀ p pid, s.Recording p → parsed = some pid → pid = 0 ∨ pid = p
  | e => ∀ p, p ≠ 0 → e.process = some p → s.Granted p e

/-- A recorded syscall returns and finds the FIFO full. -/
def Drops (s : Sys) : Event → Prop
  | .exitSyscall p _ => .syscall true ∈ s.frames p ∧ ¬s.kernel.hasRoom
  | _ => False

instance (s : Sys) : ∀ e, Decidable (Drops s e)
  | .exitSyscall p _ =>
      inferInstanceAs (Decidable (Frame.syscall true ∈ s.frames p ∧ ¬s.kernel.hasRoom))
  | .enterSyscall _ _ _ => inferInstanceAs (Decidable False)
  | .enterWrite _ _ _ _ => inferInstanceAs (Decidable False)
  | .exitWrite _ _ _ => inferInstanceAs (Decidable False)
  | .enterWrap _ _ _ _ _ => inferInstanceAs (Decidable False)
  | .exitWrap _ _ _ _ => inferInstanceAs (Decidable False)
  | .writeProc _ _ _ => inferInstanceAs (Decidable False)
  | .read _ => inferInstanceAs (Decidable False)

end Sys

/-! ## Whose record is open -/

namespace ValueSys

/-- The same without a record. -/
def closed (v : ValueSys) : ValueSys :=
  { v with currentSyscallRecord := none, currentCopy := none }

/-- What there is of the state for `p`: no record if it is that of another process. -/
def seenBy (p : Pid) (v : ValueSys) : ValueSys :=
  if v.currentSyscallRecord.any (fun R => R.userspaceRegsPtr == p) then v else v.closed

variable {v v' : ValueSys} {p q : Pid} {e : Event}

theorem seenBy_owner {R : Record} (hrecord : v.currentSyscallRecord = some R)
    (howner : R.userspaceRegsPtr = p) : v.seenBy p = v := by
  rw [seenBy, if_pos]
  simp [hrecord, howner]

theorem seenBy_other (h : ∀ R, v.currentSyscallRecord = some R → R.userspaceRegsPtr ≠ p) :
    v.seenBy p = v.closed := by
  rw [seenBy, if_neg]
  cases hrecord : v.currentSyscallRecord with
  | none =>
      simp
  | some R =>
      simpa using h R hrecord

theorem closed_of_none (hrecord : v.currentSyscallRecord = none) (hcopy : v.currentCopy = none) :
    v.closed = v := by
  cases v
  cases hrecord
  cases hcopy
  rfl

theorem seenBy_of_owned (hcopy : v.currentSyscallRecord = none → v.currentCopy = none)
    (howned : ∀ R, v.currentSyscallRecord = some R → R.userspaceRegsPtr = p) : v.seenBy p = v := by
  cases hrecord : v.currentSyscallRecord with
  | none =>
      rw [seenBy_other (by simp [hrecord]), closed_of_none hrecord (hcopy hrecord)]
  | some R =>
      exact seenBy_owner hrecord (howned R hrecord)

/-- A process moves between its own calls only. -/
theorem step_others (hprocess : e.process = some p) (hq : q ≠ p) (hs : v.step e = .ok v') :
    v'.frames q = v.frames q ∧ v'.taskPtRegs q = v.taskPtRegs q := by
  cases e with
  | enterSyscall p' regs a =>
      obtain rfl : p' = p := Option.some.inj hprocess
      simp only [step, enterSyscall] at hs
      split at hs
      · split at hs
        · cases hs
          simp [setFrames, saveRegs, hq]
        · cases hs
          simp [setFrames, saveRegs, hq]
      · cases hs
  | exitSyscall p' regs =>
      obtain rfl : p' = p := Option.some.inj hprocess
      simp only [step, exitSyscall] at hs
      split at hs
      · split at hs
        · cases hs
          simp [setFrames, saveRegs, hq]
        · cases hs
          simp [finishRecord, setFrames, saveRegs, hq]
      · cases hs
        simp [setFrames, saveRegs, hq]
      · cases hs
  | enterWrite p' fn regs a =>
      obtain rfl : p' = p := Option.some.inj hprocess
      simp only [step, enterWrite] at hs
      split at hs
      · cases hs
        simp [setFrames, hq]
      · cases hs
        simp [setFrames, hq]
  | exitWrite p' returnValue mem =>
      obtain rfl : p' = p := Option.some.inj hprocess
      simp only [step, exitWrite] at hs
      split at hs
      · split at hs
        · cases hs
          simp [setFrames, hq]
        · split at hs
          · cases hs
            simp [setFrames, hq]
          · cases hs
      · cases hs
        simp [setFrames, hq]
      · cases hs
  | enterWrap p' w regs mem allocated =>
      obtain rfl : p' = p := Option.some.inj hprocess
      cases hs
      simp [enterWrap, setFrames, hq]
  | exitWrap p' mem allocated allocs =>
      obtain rfl : p' = p := Option.some.inj hprocess
      simp only [step, exitWrap] at hs
      split at hs
      · split at hs
        · cases hs
          simp [setFrames, hq]
        · split at hs
          · cases hs
            simp [setFrames, hq]
          · cases hs
      · cases hs
  | writeProc ppos count parsed =>
      cases hprocess
  | read r =>
      cases hprocess

/-- A process that is not recorded does the same without a record. -/
theorem closed_step (hnot : v.notRecorded p)
    (hidle : .syscall true ∉ v.frames p ∧ ∀ f ∈ v.frames p, ¬f.Hooked) (hprocess : e.process = some p)
    (hs : v.step e = .ok v') : v.closed.step e = .ok v'.closed := by
  have hnot' : v.closed.notRecorded p := hnot
  cases e with
  | enterSyscall p' regs a =>
      obtain rfl : p' = p := Option.some.inj hprocess
      have hframes' : v.closed.frames p' = v.frames p' := rfl
      simp only [step, enterSyscall, hframes'] at hs ⊢
      split at hs
      · have hcond : Kernel.neverReturns (regs .origRax) ∨ (v.saveRegs p' regs).notRecorded p' ∨
            (v.saveRegs p' regs).currentSyscallRecord.isSome ∨ a.isSome = false := Or.inr (Or.inl hnot)
        rw [if_pos hcond] at hs
        cases hs
        exact if_pos (Or.inr (Or.inl hnot'))
      · cases hs
  | exitSyscall p' regs =>
      obtain rfl : p' = p := Option.some.inj hprocess
      have hframes' : v.closed.frames p' = v.frames p' := rfl
      simp only [step, exitSyscall, hframes'] at hs ⊢
      split at hs
      · rename_i rest hframes
        exact absurd (by simp [hframes]) hidle.1
      · cases hs
        rfl
      · cases hs
  | enterWrite p' fn regs a =>
      obtain rfl : p' = p := Option.some.inj hprocess
      have hcond : v.notRecorded p' ∨ v.currentSyscallRecord.isNone ∨ v.currentCopy.isSome ∨
          a.isSome = false := Or.inl hnot
      simp only [step, enterWrite, if_pos hcond] at hs
      cases hs
      exact congrArg Except.ok (if_pos (Or.inl hnot'))
  | exitWrite p' returnValue mem =>
      obtain rfl : p' = p := Option.some.inj hprocess
      have hframes' : v.closed.frames p' = v.frames p' := rfl
      simp only [step, exitWrite, hframes'] at hs ⊢
      split at hs
      · rename_i fn rest hframes
        exact absurd rfl (hidle.2 (.write fn true) (by simp [hframes]))
      · cases hs
        rfl
      · cases hs
  | enterWrap p' w regs mem allocated =>
      obtain rfl : p' = p := Option.some.inj hprocess
      have hpre : v.preWrapSyscall p' w regs mem allocated = none := if_pos hnot
      have hpre' : v.closed.preWrapSyscall p' w regs mem allocated = none := if_pos hnot'
      simp only [step, enterWrap, hpre] at hs
      cases hs
      simp only [step, enterWrap, hpre']
      rfl
  | exitWrap p' mem allocated allocs =>
      obtain rfl : p' = p := Option.some.inj hprocess
      have hframes' : v.closed.frames p' = v.frames p' := rfl
      simp only [step, exitWrap, hframes'] at hs ⊢
      split at hs
      · rename_i recorded rest hframes
        have hnone : recorded = none := by
          simpa [Frame.Hooked] using hidle.2 (.wrap recorded) (by simp [hframes])
        subst hnone
        -- the wrapper was turned away, so it appends nothing
        split at hs
        · cases hs
          rfl
        · cases hs
          rfl
      · cases hs
  | writeProc ppos count parsed =>
      cases hprocess
  | read r =>
      cases hprocess

end ValueSys

theorem Sees.seenBy_congr {p : Pid} {v v' : ValueSys} {t : Trace} {entered : Bool}
    (h : Sees p (v.seenBy p) t entered) (hframes : v'.frames p = v.frames p)
    (hregs : v'.taskPtRegs p = v.taskPtRegs p)
    (hrecord : v'.currentSyscallRecord = v.currentSyscallRecord)
    (hcopy : v'.currentCopy = v.currentCopy) : Sees p (v'.seenBy p) t entered := by
  unfold ValueSys.seenBy at h ⊢
  rw [hrecord]
  split at h
  · rename_i hmine
    rw [if_pos hmine]
    exact h.congr hframes hregs hrecord hcopy
  · rename_i hmine
    rw [if_neg hmine]
    exact h.congr hframes hregs rfl rfl

/-! ## One event -/

/-- The value state and what was recorded of all processes. -/
structure Windows.Follows (w : Windows) (v : ValueSys) : Prop where
  nobody : ValueSys.Confined (· ≠ 0) v
  pid : v.recordedProcessPid = w.pid
  named : ∀ R, v.currentSyscallRecord = some R →
    v.recordedProcessPid = 0 ∨ v.recordedProcessPid = R.userspaceRegsPtr
  copy : v.currentSyscallRecord = none → v.currentCopy = none
  sees : ∀ p, p ≠ 0 → Sees p (v.seenBy p) (w.trace p) (w.entered p)
  unentered : w.entered 0 = false

namespace Windows

variable {w : Windows} {v v' : ValueSys} {p : Pid} {e : Event}

theorem follows_init (pid : Int) (taskPtRegs : Pid → PtRegs) :
    Follows (init pid taskPtRegs) (ValueSys.init pid taskPtRegs) where
  nobody := ValueSys.confined_init (Decidable.em (pid = 0)) taskPtRegs
  pid := rfl
  named := by
    intro R hR
    cases hR
  copy := fun _ => rfl
  sees := fun p _ => Sees.init pid taskPtRegs
  unentered := rfl

theorem observe_trace_own (hprocess : e.process = some p) :
    (w.observe e).trace p = (w.trace p).advance e := by
  have htrace : (w.trace p).observe p e = (w.trace p).advance e := if_pos hprocess
  cases e with
  | writeProc ppos count parsed =>
      cases hprocess
  | _ =>
      exact htrace

theorem observe_trace_other {q : Pid} (hprocess : e.process = some p) (hq : q ≠ p) :
    (w.observe e).trace q = w.trace q := by
  have htrace : (w.trace q).observe q e = w.trace q := by
    rw [Trace.observe, if_neg]
    rw [hprocess]
    exact fun heq => hq (Option.some.inj heq).symm
  cases e with
  | writeProc ppos count parsed =>
      cases hprocess
  | _ =>
      exact htrace

theorem observe_pid (hprocess : e.process = some p) : (w.observe e).pid = w.pid := by
  cases e with
  | writeProc ppos count parsed =>
      cases hprocess
  | _ =>
      rfl

theorem observe_entered_own (hprocess : e.process = some p) (hp : p ≠ 0)
    (hpid : v.recordedProcessPid = w.pid) :
    (w.observe e).entered p = v.enteredAfter p (w.entered p) e := by
  cases e with
  | enterSyscall q regs a =>
      obtain rfl : q = p := Option.some.inj hprocess
      simp [observe, ValueSys.enteredAfter, hpid, hp]
  | writeProc ppos count parsed =>
      cases hprocess
  | _ =>
      rfl

theorem observe_entered_other {q : Pid} (hprocess : e.process = some p) (hq : q ≠ p) :
    (w.observe e).entered q = w.entered q := by
  cases e with
  | enterSyscall p' regs a =>
      obtain rfl : p' = p := Option.some.inj hprocess
      simp [observe, hq]
  | writeProc ppos count parsed =>
      cases hprocess
  | _ =>
      rfl

theorem observe_unentered (h : w.entered 0 = false) : (w.observe e).entered 0 = false := by
  cases e with
  | enterSyscall p regs a =>
      by_cases hp : p = 0
      · subst hp
        simp [observe]
      · simpa [observe, Function.update_of_ne (Ne.symm hp)] using h
  | writeProc ppos count parsed =>
      simp only [observe]
      split
      · exact h
      · exact h
  | _ =>
      exact h

theorem observe_log (hexit : ∀ q regs, e ≠ .exitSyscall q regs) : (w.observe e).log = w.log := by
  cases e with
  | exitSyscall q regs =>
      exact absurd rfl (hexit q regs)
  | writeProc ppos count parsed =>
      simp only [observe]
      split
      · rfl
      · rfl
  | _ =>
      rfl

theorem observe_log_exit (w : Windows) (p : Pid) (regs : PtRegs) :
    (w.observe (.exitSyscall p regs)).log =
      w.log ++ (Sees.newlyLogged (w.trace p) (w.entered p) regs).map (p, ·) := by
  have htrace : (w.trace p).observe p (.exitSyscall p regs) =
      (w.trace p).advance (.exitSyscall p regs) := if_pos rfl
  rw [← Sees.newlyLogged_eq (w.trace p) (w.entered p) p regs]
  simp only [observe, htrace]

/-- A process whose record is not open is inside no hook. -/
theorem Follows.idle (h : Follows w v)
    (hother : ∀ R, v.currentSyscallRecord = some R → R.userspaceRegsPtr ≠ p) :
    .syscall true ∉ v.frames p ∧ ∀ f ∈ v.frames p, ¬f.Hooked := by
  by_cases hp : p = 0
  · exact h.nobody.idle p (not_not.2 hp)
  · have hsees := h.sees p hp
    rw [ValueSys.seenBy_other hother] at hsees
    obtain ⟨hsyscall, hhooked, _⟩ := hsees.closed rfl
    exact ⟨hsyscall, hhooked⟩

/-- Either the module has nothing to do with the process, or it has to do with no other. -/
theorem Follows.hidden_or_recorded (h : Follows w v) (p : Pid) :
    ValueSys.Confined (· ≠ p) v ∨ p ≠ 0 ∧ ValueSys.Confined (· = p) v := by
  by_cases hp : p = 0
  · subst hp
    exact Or.inl h.nobody
  · cases hrecord : v.currentSyscallRecord with
    | none =>
        have hidle : ∀ q, .syscall true ∉ v.frames q ∧ ∀ f ∈ v.frames q, ¬f.Hooked := by
          intro q
          apply h.idle
          simp [hrecord]
        by_cases hpid : v.recordedProcessPid = p
        · exact Or.inr ⟨hp, Or.inr hpid, by simp [hrecord], fun q _ => hidle q⟩
        · exact Or.inl ⟨Or.inr hpid, by simp [hrecord], fun q _ => hidle q⟩
    | some R =>
        have hidle : ∀ q, R.userspaceRegsPtr ≠ q →
            .syscall true ∉ v.frames q ∧ ∀ f ∈ v.frames q, ¬f.Hooked := by
          intro q hq
          apply h.idle
          simpa [hrecord] using hq
        by_cases howner : R.userspaceRegsPtr = p
        · subst howner
          refine Or.inr ⟨hp, h.named R hrecord, ?_, fun q hq => hidle q (Ne.symm hq)⟩
          simp [hrecord]
        · refine Or.inl ⟨?_, ?_, ?_⟩
          · rcases h.named R hrecord with hpid | hpid
            · exact Or.inl hpid
            · exact Or.inr (hpid ▸ howner)
          · simpa [hrecord] using howner
          · intro q hq
            obtain rfl := not_not.1 hq
            exact hidle q howner

/-- What follows for the process itself when the module has nothing to do with it. -/
theorem Follows.hidden_own (h : Follows w v) (hp : p ≠ 0) (hconfined : ValueSys.Confined (· ≠ p) v)
    (hprocess : e.process = some p) (hs : v.step e = .ok v') :
    Sees p v'.closed ((w.trace p).advance e) (v.enteredAfter p (w.entered p) e) ∧
      ∀ regs, e = .exitSyscall p regs → Sees.newlyLogged (w.trace p) (w.entered p) regs = [] := by
  have hidle := hconfined.idle p (not_not.2 rfl)
  have hother := hconfined.notRecorded (not_not.2 rfl : ¬p ≠ p)
  have hclosed := ValueSys.closed_step hother hidle hprocess hs
  have hsees := h.sees p hp
  rw [ValueSys.seenBy_other hconfined.owner] at hsees
  by_cases hexit : ∃ regs, e = .exitSyscall p regs
  · obtain ⟨regs, rfl⟩ := hexit
    obtain ⟨hsees', hlogged⟩ := hsees.exitSyscall hclosed
    refine ⟨hsees', ?_⟩
    rintro regs' ⟨⟩
    rcases hlogged with ⟨hnone, _⟩ | ⟨T, _, hmem, _⟩
    · exact hnone
    · exact absurd hmem hidle.1
  · have hreturns : ∀ q regs, e ≠ .exitSyscall q regs := by
      rintro q regs rfl
      exact hexit ⟨regs, by rw [Option.some.inj hprocess]⟩
    have hgranted : v.closed.Granted p e := by
      cases e with
      | enterSyscall q regs a =>
          intro hpid
          exact absurd hother (Sees.not_notRecorded hp hpid)
      | enterWrite q fn regs a =>
          intro hopen
          cases hopen
      | enterWrap q wr regs mem allocated =>
          intro hopen
          cases hopen
      | exitWrap q mem allocated allocs =>
          intro m rest hframes
          have hframes' : v.frames p = .wrap (some m) :: rest := hframes
          exact absurd rfl (hidle.2 (.wrap (some m)) (by simp [hframes']))
      | _ =>
          trivial
    refine ⟨(hsees.own_step hp hprocess hgranted hreturns hclosed).1, ?_⟩
    intro regs heq
    exact absurd heq (hreturns p regs)

/-- The event of a process that the module has nothing to do with. -/
theorem Follows.hidden (h : Follows w v) (hconfined : ValueSys.Confined (· ≠ p) v)
    (hprocess : e.process = some p) (hs : v.step e = .ok v') :
    Follows (w.observe e) v' ∧ v'.appended = v.appended ∧ (w.observe e).log = w.log := by
  have hhidden : ¬e.Visible (· ≠ p) := fun hvisible => hvisible p hprocess rfl
  have hconfined' := (ValueSys.hidden_step hconfined hhidden hs).1
  obtain ⟨hkept, hrecord, hcopy, happended, hpid⟩ := ValueSys.hidden_frame hconfined hhidden hs
  have hnames : e.NamesWatched (· ≠ 0) := by
    cases e with
    | writeProc ppos count parsed =>
        cases hprocess
    | _ =>
        trivial
  refine ⟨⟨ValueSys.confined_step h.nobody hnames hs, ?_, ?_, ?_, ?_, observe_unentered h.unentered⟩,
    happended, ?_⟩
  · rw [hpid, observe_pid hprocess]
    exact h.pid
  · rw [hrecord, hpid]
    exact h.named
  · rw [hrecord, hcopy]
    exact h.copy
  · intro q hq
    by_cases hqp : q = p
    · subst hqp
      rw [ValueSys.seenBy_other hconfined'.owner, observe_trace_own hprocess,
        observe_entered_own hprocess hq h.pid]
      exact (h.hidden_own hq hconfined hprocess hs).1
    · rw [observe_trace_other hprocess hqp, observe_entered_other hprocess hqp]
      obtain ⟨hframes, hregs⟩ := hkept q hqp
      exact (h.sees q hq).seenBy_congr hframes hregs hrecord hcopy
  · by_cases hexit : ∃ q regs, e = .exitSyscall q regs
    · obtain ⟨q, regs, rfl⟩ := hexit
      obtain rfl : q = p := Option.some.inj hprocess
      have hnone : Sees.newlyLogged (w.trace q) (w.entered q) regs = [] := by
        by_cases hq : q = 0
        · subst hq
          exact if_neg (by simp [h.unentered])
        · exact (h.hidden_own hq hconfined hprocess hs).2 regs rfl
      rw [observe_log_exit, hnone, List.map_nil, List.append_nil]
    · exact observe_log fun q regs heq => hexit ⟨q, regs, heq⟩

/-- All other processes, while the module has to do with `p` only. -/
theorem Follows.others (h : Follows w v) (hconfined : ValueSys.Confined (· = p) v)
    (hconfined' : ValueSys.Confined (· = p) v') (hprocess : e.process = some p) (hs : v.step e = .ok v')
    {q : Pid} (hq : q ≠ 0) (hqp : q ≠ p) :
    Sees q (v'.seenBy q) ((w.observe e).trace q) ((w.observe e).entered q) := by
  have hother : ∀ R, v.currentSyscallRecord = some R → R.userspaceRegsPtr ≠ q := by
    intro R hR howner
    exact hqp (howner.symm.trans (hconfined.owner R hR))
  have hother' : ∀ R, v'.currentSyscallRecord = some R → R.userspaceRegsPtr ≠ q := by
    intro R hR howner
    exact hqp (howner.symm.trans (hconfined'.owner R hR))
  have hsees := h.sees q hq
  rw [ValueSys.seenBy_other hother] at hsees
  rw [ValueSys.seenBy_other hother', observe_trace_other hprocess hqp,
    observe_entered_other hprocess hqp]
  obtain ⟨hframes, hregs⟩ := ValueSys.step_others hprocess hqp hs
  exact hsees.congr hframes hregs rfl rfl

/-- The event of the process that the module has to do with. -/
theorem Follows.recorded (h : Follows w v) (hp : p ≠ 0) (hconfined : ValueSys.Confined (· = p) v)
    (hprocess : e.process = some p) (hs : v.step e = .ok v')
    (hpid : v'.recordedProcessPid = v.recordedProcessPid)
    (hsees : Sees p v' ((w.trace p).advance e) (v.enteredAfter p (w.entered p) e)) :
    Follows (w.observe e) v' := by
  have hnames : ∀ W, e.NamesWatched W := by
    intro W
    cases e with
    | writeProc ppos count parsed =>
        cases hprocess
    | _ =>
        trivial
  have hconfined' := ValueSys.confined_step hconfined (hnames (· = p)) hs
  have hcopy : v'.currentSyscallRecord = none → v'.currentCopy = none := fun hnone =>
    (hsees.closed hnone).2.2
  refine ⟨ValueSys.confined_step h.nobody (hnames (· ≠ 0)) hs, ?_, ?_, hcopy, ?_,
    observe_unentered h.unentered⟩
  · rw [hpid, observe_pid hprocess]
    exact h.pid
  · intro R hR
    rw [hconfined'.owner R hR]
    exact hconfined'.pid
  · intro q hq
    by_cases hqp : q = p
    · subst hqp
      rw [ValueSys.seenBy_of_owned hcopy hconfined'.owner, observe_trace_own hprocess,
        observe_entered_own hprocess hq h.pid]
      exact hsees
    · exact h.others hconfined hconfined' hprocess hs hq hqp

/-- Whichever way the pid is written, what was recorded stays. -/
theorem Follows.writePid (h : Follows w v) {ppos : Int} {count : Nat} {parsed : Option Int}
    (hnames : ∀ R pid, v.currentSyscallRecord = some R → parsed = some pid →
      pid = 0 ∨ pid = R.userspaceRegsPtr) :
    Follows (w.observe (.writeProc ppos count parsed)) (v.writePid ppos count parsed) := by
  have htrace : ∀ p, (w.trace p).observe p (.writeProc ppos count parsed) = w.trace p := fun p =>
    if_neg (by simp [Event.process])
  have hnobody : ValueSys.Confined (· ≠ 0) (v.writePid ppos count parsed) :=
    (ValueSys.confined_writePid h.nobody fun pid _ => Decidable.em (pid = 0)).1
  by_cases hrejected : ppos > 0 ∨ count > bufferSize
  · have hsame : v.writePid ppos count parsed = v := if_pos hrejected
    simp only [observe, if_pos hrejected, htrace, hsame]
    exact h
  · have hwritten : v.writePid ppos count parsed =
        { v with recordedProcessPid := parsed.getD v.recordedProcessPid } := if_neg hrejected
    simp only [observe, if_neg hrejected, htrace]
    refine ⟨hnobody, ?_, ?_, ?_, ?_, h.unentered⟩
    · simp [hwritten, h.pid]
    · rw [hwritten]
      intro R hR
      cases parsed with
      | none =>
          exact h.named R hR
      | some pid =>
          exact hnames R pid hR rfl
    · rw [hwritten]
      exact h.copy
    · rw [hwritten]
      exact fun p hp => (h.sees p hp).seenBy_congr rfl rfl rfl rfl

theorem Follows.read (h : Follows w v) {r : ReadArgs} (hs : v.step (.read r) = .ok v') :
    Follows (w.observe (.read r)) v' ∧ v'.appended = v.appended := by
  have htrace : ∀ p, (w.trace p).observe p (.read r) = w.trace p := fun p =>
    if_neg (by simp [Event.process])
  obtain ⟨hframes, hregs, hrecord, hcopy, hpid, happended⟩ := Sees.read_frame hs
  have hnames : (Event.read r).NamesWatched (· ≠ 0) := trivial
  refine ⟨⟨ValueSys.confined_step h.nobody hnames hs, ?_, ?_, ?_, ?_, h.unentered⟩, happended⟩
  · exact hpid.trans h.pid
  · rw [hrecord, hpid]
    exact h.named
  · rw [hrecord, hcopy]
    exact h.copy
  · intro p hp
    simp only [observe, htrace]
    exact (h.sees p hp).seenBy_congr (congrFun hframes p) (congrFun hregs p) hrecord hcopy

/-- Besides, the records are the syscalls of the log, `n` of which were dropped. -/
structure Tells (n : Nat) (w : Windows) (v : ValueSys) : Prop where
  follows : Follows w v
  sublist : v.appended.Sublist (w.log.map fun x => TracedSyscall.record x.1 x.2)
  count : v.appended.length + n = w.log.length

variable {n : Nat}

/-- An event after which no recorded syscall has returned. -/
theorem Tells.quiet (h : Tells n w v) {w' : Windows} (hfollows : Follows w' v') (hlog : w'.log = w.log)
    (happended : v'.appended = v.appended) : Tells n w' v' where
  follows := hfollows
  sublist := by
    rw [happended, hlog]
    exact h.sublist
  count := by
    rw [happended, hlog]
    exact h.count

/-- The event of a process. -/
theorem Tells.process (h : Tells n w v) {s : Sys} (hR : RefinesValues s v)
    (hprocess : e.process = some p) (he : p ≠ 0 → s.Granted p e) (hs : v.step e = .ok v') :
    Tells (n + if s.Drops e then 1 else 0) (w.observe e) v' := by
  obtain ⟨lost, hstands⟩ := hR.stands
  rcases h.follows.hidden_or_recorded p with hhidden | ⟨hp, hconfined⟩
  · have hkept : ¬s.Drops e := by
      cases e with
      | exitSyscall q regs =>
          obtain rfl : q = p := Option.some.inj hprocess
          intro hdrops
          exact (hhidden.idle q (not_not.2 rfl)).1 (by rw [hR.frames]; exact hdrops.1)
      | _ =>
          exact id
    rw [if_neg hkept]
    obtain ⟨hfollows, happended, hlog⟩ := h.follows.hidden hhidden hprocess hs
    exact h.quiet hfollows hlog happended
  · have hsees := h.follows.sees p hp
    rw [ValueSys.seenBy_of_owned h.follows.copy hconfined.owner] at hsees
    by_cases hexit : ∃ q regs, e = .exitSyscall q regs
    · obtain ⟨q, regs, rfl⟩ := hexit
      obtain rfl : q = p := Option.some.inj hprocess
      have hdrops : s.Drops (.exitSyscall q regs) ↔ .syscall true ∈ v.frames q ∧
          ¬sizeofPtr * v.recordedSyscalls.length + sizeofPtr ≤ syscallFifoSize := by
        simp only [Sys.Drops, hR.frames, hstands.hasRoom_iff]
      obtain ⟨hsublist, hcount⟩ := hsees.exitSyscall_tally hs h.sublist
        (h.count.trans (List.length_map _).symm) hdrops
      refine ⟨h.follows.recorded hp hconfined hprocess hs (Sees.exitSyscall_pid hs)
        (hsees.exitSyscall hs).1, ?_, ?_⟩
      · rw [observe_log_exit, List.map_append, List.map_map]
        exact hsublist
      · rw [observe_log_exit]
        simpa using hcount
    · have hreturns : ∀ q regs, e ≠ .exitSyscall q regs := fun q regs heq => hexit ⟨q, regs, heq⟩
      have hkept : ¬s.Drops e := by
        cases e with
        | exitSyscall q regs =>
            exact absurd rfl (hreturns q regs)
        | _ =>
            exact id
      rw [if_neg hkept]
      obtain ⟨hsees', happended, hpid⟩ :=
        hsees.own_step hp hprocess (hsees.granted hR (he hp)) hreturns hs
      exact h.quiet (h.follows.recorded hp hconfined hprocess hs hpid hsees') (observe_log hreturns)
        happended

theorem Tells.step (h : Tells n w v) {s : Sys} (hR : RefinesValues s v) (he : s.HandsOver e)
    (hs : v.step e = .ok v') : Tells (n + if s.Drops e then 1 else 0) (w.observe e) v' := by
  cases e with
  | writeProc ppos count parsed =>
      have hnames : ∀ R pid, v.currentSyscallRecord = some R → parsed = some pid →
          pid = 0 ∨ pid = R.userspaceRegsPtr := by
        intro R pid hR' hparsed
        have howner : R.userspaceRegsPtr ≠ 0 := h.follows.nobody.owner R hR'
        have hsees := h.follows.sees _ howner
        rw [ValueSys.seenBy_owner hR' rfl] at hsees
        have hrecording : s.Recording R.userspaceRegsPtr := by
          rw [Sys.Recording, ← hR.frames]
          exact (hsees.opened R hR').1
        exact he _ pid hrecording hparsed
      cases hs
      refine h.quiet (h.follows.writePid hnames) ?_ ?_
      · exact observe_log (by simp)
      · unfold ValueSys.writePid
        split
        · rfl
        · rfl
  | read r =>
      obtain ⟨hfollows, happended⟩ := h.follows.read hs
      exact h.quiet hfollows rfl happended
  | enterSyscall p regs a | exitSyscall p regs | enterWrite p fn regs a | exitWrite p returnValue mem
  | enterWrap p wr regs mem allocated | exitWrap p mem allocated allocs =>
      exact h.process hR rfl (fun hp => he p hp rfl) hs

theorem tells_init (pid : Int) (taskPtRegs : Pid → PtRegs) :
    Tells 0 (init pid taskPtRegs) (ValueSys.init pid taskPtRegs) where
  follows := follows_init pid taskPtRegs
  sublist := .slnil
  count := rfl

end Windows

/-! ## Every run -/

namespace Sys

end Sys

end RrPython
