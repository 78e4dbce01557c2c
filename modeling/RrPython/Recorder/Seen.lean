import RrPython.Recorder.Bystanders
import RrPython.Recorder.Faithful

/-!
# Seen — a process and what the module knows of it

`Sees p v t entered` compares the value state with the trace `t` of one process, `entered` telling whether
its last syscall was entered while its pid was set.  If so and the syscall is one that returns, its record
is open and holds what the process has done in it; otherwise none of its hooks runs.
-/

namespace RrPython

open Foundation

/-! ## What the value state sees of the process -/

/-- The open record holds what `p` has done in its syscall. -/
structure RecordHolds (p : Pid) (t : Trace) (R : Record) : Prop where
  regs : R.userspaceRegs = t.entry
  task : R.userspaceRegsPtr = p
  copies : R.copiesToUser = t.items.flatMap Item.copies
  amount : R.amountOfCopies = BitVec.ofNat 64 (t.items.flatMap Item.copies).length

theorem RecordHolds.congr {p : Pid} {t t' : Trace} {R : Record} (h : RecordHolds p t R)
    (hentry : t'.entry = t.entry) (hitems : t'.items = t.items) : RecordHolds p t' R :=
  ⟨h.regs.trans hentry.symm, h.task, hitems ▸ h.copies, hitems ▸ h.amount⟩

/-- Copies that the module appends to the record as the process makes them. -/
theorem RecordHolds.append {p : Pid} {t t' : Trace} {R : Record} (h : RecordHolds p t R)
    (hentry : t'.entry = t.entry) {item : Item} (hitems : t'.items = t.items ++ [item]) :
    RecordHolds p t' (Sys.addCopies R item.copies) := by
  rw [Sys.addCopies_eq]
  refine ⟨h.regs.trans hentry.symm, h.task, ?_, ?_⟩
  · simp [hitems, h.copies]
  · simp [hitems, h.amount, BitVec.ofNat_add]

namespace ValueSys

/-- Nothing that the hooks ask for in a recorded syscall of `p` is refused, and none of its writes comes
after recording was stopped. -/
def Granted (p : Pid) (v : ValueSys) : Event → Prop
  | .enterSyscall _ _ a => v.recordedProcessPid = p → a.isSome
  | .enterWrite _ _ _ a => v.currentSyscallRecord.isSome → a.isSome ∧ v.recordedProcessPid = p
  | .enterWrap _ _ _ _ allocated =>
      v.currentSyscallRecord.isSome → allocated = true ∧ v.recordedProcessPid = p
  | .exitWrap _ mem allocated allocs => ∀ m rest, v.frames p = .wrap (some m) :: rest →
      allocated = true ∧ (regionDiffs (some m) mem).length ≤ granted allocs
  | _ => True

/-- Whether the last syscall of `p` was entered while its pid was set, `p` having taken a step. -/
def enteredAfter (p : Pid) (v : ValueSys) (entered : Bool) : Event → Bool
  | .enterSyscall _ _ _ => v.recordedProcessPid = p
  | _ => entered

end ValueSys

/-- The same of the module. -/
def Sys.Granted (p : Pid) (s : Sys) : Event → Prop
  | .enterSyscall _ _ a => s.kernel.recordedProcessPid = p → a.isSome
  | .enterWrite _ _ _ a => s.Recording p → a.isSome ∧ s.kernel.recordedProcessPid = p
  | .enterWrap _ _ _ _ allocated =>
      s.Recording p → allocated = true ∧ s.kernel.recordedProcessPid = p
  | .exitWrap _ mem allocated allocs => ∀ m rest, s.frames p = .wrap (some m) :: rest →
      allocated = true ∧ (regionDiffs (some m) mem).length ≤ granted allocs
  | _ => True

structure Sees (p : Pid) (v : ValueSys) (t : Trace) (entered : Bool) : Prop where
  regs : v.taskPtRegs p = t.regs
  calls : List.Forall₂ Matches (v.frames p) t.calls
  outermost : SyscallsOutermost (v.frames p)
  hooked : ∀ hooked, .syscall hooked ∈ v.frames p →
    (hooked = true ↔ entered = true ∧ ¬Kernel.neverReturns (t.entry .origRax))
  closed : v.currentSyscallRecord = none →
    .syscall true ∉ v.frames p ∧ (∀ f ∈ v.frames p, ¬f.Hooked) ∧ v.currentCopy = none
  opened : ∀ R, v.currentSyscallRecord = some R →
    .syscall true ∈ v.frames p ∧ RecordHolds p t R ∧ OutermostHooked (v.frames p) ∧
      v.currentCopy = (outermostWrite t.calls).map (fun w => w.1.begun w.2) ∧
      List.Forall₂ Sys.SameRegion (v.frames p) t.calls

namespace Sees

variable {p : Pid} {v v' : ValueSys} {t : Trace} {entered : Bool}

theorem init (pid : Int) (taskPtRegs : Pid → PtRegs) :
    Sees p (ValueSys.init pid taskPtRegs) (Trace.init (taskPtRegs p)) false where
  regs := rfl
  calls := .nil
  outermost := trivial
  hooked := by
    intro hooked hmem
    cases hmem
  closed := by
    intro _
    simp [ValueSys.init]
  opened := by
    intro R hR
    cases hR

/-- What others do, and what happens to the FIFO, does not concern the process. -/
theorem congr (h : Sees p v t entered) (hframes : v'.frames p = v.frames p)
    (hregs : v'.taskPtRegs p = v.taskPtRegs p)
    (hrecord : v'.currentSyscallRecord = v.currentSyscallRecord)
    (hcopy : v'.currentCopy = v.currentCopy) : Sees p v' t entered where
  regs := hregs.trans h.regs
  calls := hframes ▸ h.calls
  outermost := hframes ▸ h.outermost
  hooked := hframes ▸ h.hooked
  closed := by
    rw [hrecord, hframes, hcopy]
    exact h.closed
  opened := by
    rw [hrecord, hframes, hcopy]
    exact h.opened

/-- Outside its syscalls the process has no record open. -/
theorem record_none (h : Sees p v t entered) (hframes : v.frames p = []) :
    v.currentSyscallRecord = none ∧ v.currentCopy = none := by
  cases hrecord : v.currentSyscallRecord with
  | none =>
      exact ⟨rfl, (h.closed hrecord).2.2⟩
  | some R =>
      have hmem := (h.opened R hrecord).1
      rw [hframes] at hmem
      cases hmem

/-! ### Syscalls -/

theorem enterSyscall (h : Sees p v t entered) (hp : p ≠ 0) {regs : PtRegs} {a : Option Ptr}
    (hs : v.enterSyscall p regs true = .ok v') :
    Sees p v' (t.advance (.enterSyscall p regs a)) (v.recordedProcessPid = p) := by
  simp only [ValueSys.enterSyscall] at hs
  split at hs
  · rename_i hframes
    obtain ⟨hnone, hcopy⟩ := h.record_none hframes
    have hrecorded : (v.saveRegs p regs).notRecorded p ↔ ¬v.recordedProcessPid = p := by
      have hpid' : (v.saveRegs p regs).recordedProcessPid = v.recordedProcessPid := rfl
      rw [ValueSys.notRecorded, hpid']
      constructor
      · rintro (hne | hzero) heq
        · exact hne heq.symm
        · exact hp (heq.symm.trans hzero)
      · exact fun hne => Or.inl fun heq => hne heq.symm
    split at hs
    · rename_i hcond
      have hclosed : Kernel.neverReturns (regs .origRax) ∨ ¬v.recordedProcessPid = p := by
        rcases hcond with hnr | hrec | hopen | hgranted
        · exact Or.inl hnr
        · exact Or.inr (hrecorded.1 hrec)
        · have hnone' : (v.saveRegs p regs).currentSyscallRecord = none := hnone
          simp [hnone'] at hopen
        · cases hgranted
      cases hs
      refine ⟨?_, ?_, ?_, ?_, ?_, ?_⟩
      · simp [ValueSys.setFrames, ValueSys.saveRegs, Trace.advance]
      · simp [ValueSys.setFrames, Trace.advance, Matches.syscall]
      · simp [ValueSys.setFrames, SyscallsOutermost]
      · intro hooked hmem
        have hfalse : hooked = false := by simpa [ValueSys.setFrames] using hmem
        subst hfalse
        simp only [Bool.false_eq_true, decide_eq_true_eq, false_iff, not_and, not_not]
        intro heq
        exact hclosed.resolve_right (not_not.2 heq)
      · intro _
        simp [ValueSys.setFrames, ValueSys.saveRegs, Frame.Hooked, hcopy]
      · intro R hR
        have hnone' : v.currentSyscallRecord = some R := hR
        rw [hnone] at hnone'
        cases hnone'
    · rename_i hcond
      rw [not_or, not_or] at hcond
      have heq : v.recordedProcessPid = p := by
        simpa [hrecorded] using hcond.2.1
      cases hs
      refine ⟨?_, ?_, ?_, ?_, ?_, ?_⟩
      · simp [ValueSys.setFrames, ValueSys.saveRegs, Trace.advance]
      · simp [ValueSys.setFrames, Trace.advance, Matches.syscall]
      · simp [ValueSys.setFrames, SyscallsOutermost]
      · intro hooked hmem
        have htrue : hooked = true := by simpa [ValueSys.setFrames] using hmem
        subst htrue
        simpa [heq, Trace.advance] using hcond.1
      · intro hR
        cases hR
      · intro R hR
        cases hR
        refine ⟨?_, ⟨?_, rfl, rfl, rfl⟩, ?_, ?_, ?_⟩
        · simp [ValueSys.setFrames]
        · simp [ValueSys.freshRecord, ValueSys.saveRegs, Trace.advance]
        · simp [ValueSys.setFrames, OutermostHooked]
        · simp [ValueSys.setFrames, ValueSys.saveRegs, hcopy, Trace.advance, outermostWrite]
        · simp [ValueSys.setFrames, Trace.advance, Sys.SameRegion]
  · cases hs

/-- A process that returns from a syscall is inside nothing else. -/
theorem exit_rest (h : Sees p v t entered) {hooked : Bool} {rest : List Frame}
    (hframes : v.frames p = .syscall hooked :: rest) : rest = [] ∧ t.calls.tail = [] := by
  have hout := h.outermost
  have hcalls := h.calls
  rw [hframes] at hout hcalls
  have hrest := hout.1 hooked rfl
  subst hrest
  obtain ⟨c, cs, _, hnil, heq⟩ := List.forall₂_cons_left_iff.1 hcalls
  cases hnil
  simp [heq]

theorem leave (h : Sees p v t entered) {hooked : Bool} {rest : List Frame}
    (hframes : v.frames p = .syscall hooked :: rest) {regs : PtRegs} (hregs : v'.taskPtRegs p = regs)
    (hframes' : v'.frames p = rest) (hrecord : v'.currentSyscallRecord = none)
    (hcopy : v'.currentCopy = none) : Sees p v' (t.advance (.exitSyscall p regs)) entered := by
  obtain ⟨hrest, htail⟩ := h.exit_rest hframes
  rw [hrest] at hframes'
  have hadvance : (t.advance (.exitSyscall p regs)).regs = regs ∧
      (t.advance (.exitSyscall p regs)).calls = [] := by
    simp only [Trace.advance, Trace.exitSyscall]
    split <;> exact ⟨rfl, htail⟩
  refine ⟨hregs.trans hadvance.1.symm, ?_, ?_, ?_, ?_, ?_⟩
  · rw [hframes', hadvance.2]
    exact .nil
  · rw [hframes']
    trivial
  · rw [hframes']
    intro hooked hmem
    cases hmem
  · intro _
    rw [hframes']
    simp [hcopy]
  · intro R hR
    rw [hrecord] at hR
    cases hR

/-- What the log of the window gains when a syscall of the process returns. -/
def newlyLogged (t : Trace) (entered : Bool) (regs : PtRegs) : List TracedSyscall :=
  if entered = true ∧ ¬Kernel.neverReturns (t.entry .origRax) then
    [{ regs := t.entry, ret := regs .rax, items := t.items }]
  else []

theorem newlyLogged_eq (t : Trace) (entered : Bool) (p : Pid) (regs : PtRegs) :
    (if entered then (t.advance (.exitSyscall p regs)).log.drop t.log.length else []) =
      newlyLogged t entered regs := by
  by_cases hentered : entered = true
  · by_cases hnr : Kernel.neverReturns (t.entry .origRax)
    · simp [hentered, newlyLogged, Trace.advance, Trace.exitSyscall, hnr]
    · simp [hentered, newlyLogged, Trace.advance, Trace.exitSyscall, hnr]
  · simp [hentered, newlyLogged]

/-- Whether the record that `post_syscall` finishes gets into the FIFO. -/
theorem appended_finishRecord (v : ValueSys) (R : Record) :
    (v.finishRecord R).appended =
      if sizeofPtr * v.recordedSyscalls.length + sizeofPtr ≤ syscallFifoSize then
        v.appended ++ [{ R with ret := v.taskPtRegs R.userspaceRegsPtr .rax }]
      else v.appended := by
  split
  · rename_i hroom
    exact RefinesValues.appended_finishRecord_of_room hroom
  · rename_i hroom
    exact RefinesValues.appended_finishRecord_of_full hroom

/-- The return of a syscall: pushed and logged, dropped and logged, or neither. -/
theorem exitSyscall (h : Sees p v t entered) {regs : PtRegs}
    (hs : v.exitSyscall p regs = .ok v') :
    Sees p v' (t.advance (.exitSyscall p regs)) entered ∧
      ((newlyLogged t entered regs = [] ∧ v'.appended = v.appended ∧ .syscall true ∉ v.frames p) ∨
        ∃ T, newlyLogged t entered regs = [T] ∧ .syscall true ∈ v.frames p ∧
          v'.appended =
            if sizeofPtr * v.recordedSyscalls.length + sizeofPtr ≤ syscallFifoSize then
              v.appended ++ [TracedSyscall.record p T]
            else v.appended) := by
  simp only [ValueSys.exitSyscall] at hs
  split at hs
  · rename_i rest hframes
    have hmem : .syscall true ∈ v.frames p := by
      simp [hframes]
    obtain ⟨hrest, _⟩ := h.exit_rest hframes
    have hcalls : outermostWrite t.calls = none := by
      have hforall := h.calls
      rw [hframes, hrest] at hforall
      obtain ⟨c, cs, hfirst, hnil, heq⟩ := List.forall₂_cons_left_iff.1 hforall
      cases hnil
      cases hfirst
      simp [heq, outermostWrite]
    split at hs
    · -- a recorded syscall has a record open
      rename_i hnone
      exact absurd hmem (h.closed hnone).1
    · rename_i R hrecord
      obtain ⟨_, hholds, _, hcopy, _⟩ := h.opened R hrecord
      rw [hcalls, Option.map_none] at hcopy
      cases hs
      refine ⟨h.leave hframes ?_ ?_ rfl hcopy, Or.inr ?_⟩
      · simp [ValueSys.finishRecord, ValueSys.setFrames, ValueSys.saveRegs]
      · simp [ValueSys.finishRecord, ValueSys.setFrames, ValueSys.saveRegs]
      · have hentered := (h.hooked true hmem).1 rfl
        refine ⟨_, if_pos hentered, hmem, ?_⟩
        have hret : ((v.saveRegs p regs).setFrames p rest).taskPtRegs p = regs := by
          simp [ValueSys.setFrames, ValueSys.saveRegs]
        have hnew : ({ R with
              ret := ((v.saveRegs p regs).setFrames p rest).taskPtRegs R.userspaceRegsPtr .rax } :
            Record) = TracedSyscall.record p { regs := t.entry, ret := regs .rax, items := t.items } := by
          rw [hholds.task, hret]
          simp only [TracedSyscall.record, ← hholds.regs, ← hholds.copies, ← hholds.task]
          rw [hholds.amount, ← hholds.copies]
        rw [← hnew]
        exact appended_finishRecord _ R
  · rename_i rest hframes
    obtain ⟨hrest, _⟩ := h.exit_rest hframes
    have hnot : .syscall true ∉ v.frames p := by
      simp [hframes, hrest]
    have hnone : v.currentSyscallRecord = none := by
      by_contra hopen
      obtain ⟨R, hR⟩ := Option.ne_none_iff_exists'.1 hopen
      exact hnot (h.opened R hR).1
    cases hs
    refine ⟨h.leave hframes ?_ ?_ hnone (h.closed hnone).2.2, Or.inl ⟨?_, rfl, hnot⟩⟩
    · simp [ValueSys.setFrames, ValueSys.saveRegs]
    · simp [ValueSys.setFrames, ValueSys.saveRegs]
    · have hentered := h.hooked false (by simp [hframes])
      exact if_neg fun hlogged => absurd (hentered.2 hlogged) (by simp)
  · cases hs

/-- If the records are those of a log but for `n` that found the FIFO full, then so they are after the
return. -/
theorem exitSyscall_tally (h : Sees p v t entered) {regs : PtRegs} (hs : v.exitSyscall p regs = .ok v')
    {n : Nat} {logged : List Record} (hsublist : v.appended.Sublist logged)
    (hcount : v.appended.length + n = logged.length) {drops : Prop} [Decidable drops]
    (hdrops : drops ↔ .syscall true ∈ v.frames p ∧
      ¬sizeofPtr * v.recordedSyscalls.length + sizeofPtr ≤ syscallFifoSize) :
    v'.appended.Sublist (logged ++ (newlyLogged t entered regs).map (TracedSyscall.record p)) ∧
      v'.appended.length + (n + if drops then 1 else 0) =
        (logged ++ (newlyLogged t entered regs).map (TracedSyscall.record p)).length := by
  obtain ⟨hnone, happended, hnot⟩ | ⟨T, hone, hmem, happended⟩ := (h.exitSyscall hs).2
  · have hkept : ¬drops := fun hd => hnot (hdrops.1 hd).1
    rw [hnone, List.map_nil, List.append_nil, happended, if_neg hkept]
    exact ⟨hsublist, hcount⟩
  · rw [hone, List.map_singleton]
    split at happended
    · rename_i hroom
      have hkept : ¬drops := fun hd => (hdrops.1 hd).2 hroom
      rw [if_neg hkept, happended]
      refine ⟨hsublist.append (List.Sublist.refl _), ?_⟩
      simp only [List.length_append, List.length_singleton]
      omega
    · rename_i hroom
      rw [if_pos (hdrops.2 ⟨hmem, hroom⟩), happended]
      refine ⟨hsublist.trans (List.sublist_append_left _ _), ?_⟩
      simp only [List.length_append, List.length_singleton]
      omega

/-! ### Writes -/

/-- A call of the process begins or returns, and the module's open record changes from `R` to `R'`. -/
theorem moved {R R' : Record} {t' : Trace} (h : Sees p v t entered)
    (hR : v.currentSyscallRecord = some R) (hR' : v'.currentSyscallRecord = some R')
    (hregs : v'.taskPtRegs p = v.taskPtRegs p) (htrace : t'.regs = t.regs ∧ t'.entry = t.entry)
    (hmem : ∀ hooked, .syscall hooked ∈ v'.frames p ↔ .syscall hooked ∈ v.frames p)
    (hcalls : List.Forall₂ Matches (v'.frames p) t'.calls)
    (houtermost : SyscallsOutermost (v'.frames p)) (hholds : RecordHolds p t' R')
    (hhooked : OutermostHooked (v'.frames p))
    (hcopy : v'.currentCopy = (outermostWrite t'.calls).map (fun w => w.1.begun w.2))
    (hregions : List.Forall₂ Sys.SameRegion (v'.frames p) t'.calls) : Sees p v' t' entered where
  regs := hregs.trans (h.regs.trans htrace.1.symm)
  calls := hcalls
  outermost := houtermost
  hooked := by
    intro hooked hmem'
    rw [htrace.2]
    exact h.hooked hooked ((hmem hooked).1 hmem')
  closed := by
    intro hnone
    rw [hR'] at hnone
    cases hnone
  opened := by
    intro R'' hR''
    rw [hR'] at hR''
    cases hR''
    exact ⟨(hmem true).2 (h.opened R hR).1, hholds, hhooked, hcopy, hregions⟩

/-- The same while no record is open. -/
theorem movedIdle {t' : Trace} (h : Sees p v t entered) (hnone : v.currentSyscallRecord = none)
    (hnone' : v'.currentSyscallRecord = none) (hcopy' : v'.currentCopy = none)
    (hregs : v'.taskPtRegs p = v.taskPtRegs p) (htrace : t'.regs = t.regs ∧ t'.entry = t.entry)
    (hmem : ∀ hooked, .syscall hooked ∈ v'.frames p ↔ .syscall hooked ∈ v.frames p)
    (hcalls : List.Forall₂ Matches (v'.frames p) t'.calls)
    (houtermost : SyscallsOutermost (v'.frames p)) (hhooked : ∀ f ∈ v'.frames p, ¬f.Hooked) :
    Sees p v' t' entered where
  regs := hregs.trans (h.regs.trans htrace.1.symm)
  calls := hcalls
  outermost := houtermost
  hooked := by
    intro hooked hmem'
    rw [htrace.2]
    exact h.hooked hooked ((hmem hooked).1 hmem')
  closed := fun _ => ⟨fun hsyscall => (h.closed hnone).1 ((hmem true).1 hsyscall), hhooked, hcopy'⟩
  opened := by
    intro R hR
    rw [hnone'] at hR
    cases hR

theorem not_notRecorded (hp : p ≠ 0) (hpid : v.recordedProcessPid = p) : ¬v.notRecorded p := by
  rintro (hne | hzero)
  · exact hne hpid.symm
  · exact hp (hpid.symm.trans hzero)

/-- A call that the process makes while no record is open. -/
theorem pushIdle (h : Sees p v t entered) (hnone : v.currentSyscallRecord = none) {f : Frame} {call : Call}
    (hmatches : Matches f call) (hsyscall : ∀ hooked, f ≠ .syscall hooked) (hnot : ¬f.Hooked) :
    Sees p (v.setFrames p (f :: v.frames p)) { t with calls := call :: t.calls } entered := by
  obtain ⟨_, hhooked, hcopy⟩ := h.closed hnone
  refine h.movedIdle hnone hnone hcopy rfl ⟨rfl, rfl⟩ ?_ ?_ ?_ ?_
  · simp [ValueSys.setFrames, fun hooked => (hsyscall hooked).symm]
  · simpa [ValueSys.setFrames] using List.Forall₂.cons hmatches h.calls
  · simpa [ValueSys.setFrames, SyscallsOutermost, hsyscall] using h.outermost
  · simpa [ValueSys.setFrames, hnot] using hhooked

/-- A call that the process makes within its recorded syscall. -/
theorem push (h : Sees p v t entered) {R : Record} {f : Frame} {call : Call}
    (hrecord : v.currentSyscallRecord = some R)
    (hframes' : v'.frames p = f :: v.frames p) (hregs' : v'.taskPtRegs p = v.taskPtRegs p)
    (hrecord' : v'.currentSyscallRecord = some R) (hmatches : Matches f call)
    (hsyscall : ∀ hooked, f ≠ .syscall hooked) (hregion : Sys.SameRegion f call)
    (hhooked : OutermostHooked (f :: v.frames p))
    (hcopy : v'.currentCopy = (outermostWrite (call :: t.calls)).map (fun w => w.1.begun w.2)) :
    Sees p v' { t with calls := call :: t.calls } entered := by
  obtain ⟨_, hholds, _, _, hregions⟩ := h.opened R hrecord
  refine h.moved hrecord hrecord' hregs' ⟨rfl, rfl⟩ ?_ ?_ ?_ (hholds.congr rfl rfl) ?_ hcopy ?_
  · simp [hframes', fun hooked => (hsyscall hooked).symm]
  · rw [hframes']
    exact .cons hmatches h.calls
  · rw [hframes']
    exact ⟨fun hooked hf => absurd hf (hsyscall hooked), h.outermost⟩
  · rwa [hframes']
  · rw [hframes']
    exact .cons hregion hregions

theorem enterWrite (h : Sees p v t entered) (hp : p ≠ 0) (fn : ProbedFn) (regs : PtRegs)
    (a : Option Ptr) (hpid : v.currentSyscallRecord.isSome → v.recordedProcessPid = p) :
    Sees p (v.enterWrite p fn regs true) (t.advance (.enterWrite p fn regs a)) entered := by
  have hregion : ∀ hooked, Sys.SameRegion (.write fn hooked) (.write fn regs) := by
    simp [Sys.SameRegion]
  cases hrecord : v.currentSyscallRecord with
  | none =>
      have hcond : v.notRecorded p ∨ v.currentSyscallRecord.isNone ∨ v.currentCopy.isSome ∨
          true = false := Or.inr (Or.inl (by simp [hrecord]))
      rw [ValueSys.enterWrite, if_pos hcond]
      exact h.pushIdle hrecord (.write fn false regs) (by simp) (by simp [Frame.Hooked])
  | some R =>
      obtain ⟨_, _, hhooked, hcopy, _⟩ := h.opened R hrecord
      have hrecorded := not_notRecorded hp (hpid (by simp [hrecord]))
      have hany := any_isWrite_eq h.calls
      cases hwriting : t.calls.any Call.isWrite with
      | true =>
          -- within another write: the pending copy turns it away
          rw [← outermostWrite_isSome] at hwriting
          have hpending : v.currentCopy.isSome := by
            rw [hcopy]
            simpa using hwriting
          have hcond : v.notRecorded p ∨ v.currentSyscallRecord.isNone ∨ v.currentCopy.isSome ∨
              true = false := Or.inr (Or.inr (Or.inl hpending))
          rw [outermostWrite_isSome] at hwriting
          rw [ValueSys.enterWrite, if_pos hcond]
          refine h.push hrecord (by simp [ValueSys.setFrames]) rfl hrecord (.write fn false regs)
            (by simp) (hregion false) ?_ ?_
          · simpa [OutermostHooked, hany, hwriting] using hhooked
          · simp [ValueSys.setFrames, outermostWrite_of_any fn regs hwriting, hcopy]
      | false =>
          have hfree : v.currentCopy = none := by
            rw [← outermostWrite_isSome] at hwriting
            rw [hcopy]
            simpa using hwriting
          have hcond : ¬(v.notRecorded p ∨ v.currentSyscallRecord.isNone ∨ v.currentCopy.isSome ∨
              true = false) := by
            simp [hrecorded, hrecord, hfree]
          rw [ValueSys.enterWrite, if_neg hcond]
          refine h.push hrecord (by simp [ValueSys.setFrames]) rfl hrecord (.write fn true regs)
            (by simp) (hregion true) ?_ ?_
          · simpa [OutermostHooked, hany, hwriting] using hhooked
          · simp [ValueSys.setFrames, outermostWrite_of_none hwriting]

/-- What `exitWrite` leaves of the trace. -/
theorem exitWrite_calls {fn : ProbedFn} {regs : PtRegs} {calls : List Call}
    (hcalls : t.calls = .write fn regs :: calls) (returnValue : Word) (mem : KernelMem) :
    (t.exitWrite returnValue mem).calls = calls ∧ (t.exitWrite returnValue mem).regs = t.regs ∧
      (t.exitWrite returnValue mem).entry = t.entry ∧
      (t.exitWrite returnValue mem).items =
        if returnValue = 0 ∧ calls.any Call.isWrite = false then
          t.items ++ [.write (fn.written regs mem)]
        else t.items := by
  simp only [Trace.exitWrite, hcalls]
  split <;> exact ⟨rfl, rfl, rfl, rfl⟩

/-- The write that the process leaves is the innermost one of its trace too. -/
theorem write_cons (h : Sees p v t entered) {fn : ProbedFn} {hooked : Bool} {rest : List Frame}
    (hframes : v.frames p = .write fn hooked :: rest) :
    ∃ regs calls, t.calls = .write fn regs :: calls ∧ List.Forall₂ Matches rest calls := by
  have hmatches := h.calls
  rw [hframes] at hmatches
  obtain ⟨call, calls, hfirst, hrest, hcalls⟩ := List.forall₂_cons_left_iff.1 hmatches
  cases hfirst with
  | write fn hooked regs =>
      exact ⟨regs, calls, hcalls, hrest⟩

theorem rest_of_write (h : Sees p v t entered) {fn : ProbedFn} {hooked : Bool} {rest : List Frame}
    (hframes : v.frames p = .write fn hooked :: rest) :
    SyscallsOutermost rest ∧ ∀ hooked, .syscall hooked ∈ rest ↔ .syscall hooked ∈ v.frames p := by
  have hsyscalls := h.outermost
  rw [hframes] at hsyscalls
  exact ⟨hsyscalls.2, by simp [hframes]⟩

/-- Whatever becomes of the copy, the process goes on outside the write. -/
theorem leaveWrite (h : Sees p v t entered) {fn : ProbedFn} {hooked : Bool} {rest : List Frame}
    {regs : PtRegs} {calls : List Call} {R R' : Record} {returnValue : Word} {mem : KernelMem}
    (hframes : v.frames p = .write fn hooked :: rest) (hcalls : t.calls = .write fn regs :: calls)
    (hrest : List.Forall₂ Matches rest calls) (hrecord : v.currentSyscallRecord = some R)
    (hframes' : v'.frames p = rest) (hregs' : v'.taskPtRegs p = v.taskPtRegs p)
    (hrecord' : v'.currentSyscallRecord = some R')
    (hholds : RecordHolds p (t.exitWrite returnValue mem) R')
    (hcopy' : v'.currentCopy = (outermostWrite calls).map (fun w => w.1.begun w.2)) :
    Sees p v' (t.exitWrite returnValue mem) entered := by
  obtain ⟨_, _, hhooked, _, hregions⟩ := h.opened R hrecord
  rw [hframes] at hhooked
  rw [hframes, hcalls, List.forall₂_cons] at hregions
  obtain ⟨hsyscalls, hmem⟩ := h.rest_of_write hframes
  obtain ⟨hcalls', hregsTrace, hentry, _⟩ := exitWrite_calls hcalls returnValue mem
  refine h.moved hrecord hrecord' hregs' ⟨hregsTrace, hentry⟩ ?_ ?_ ?_ hholds ?_ ?_ ?_
  · simpa only [hframes'] using hmem
  · simpa only [hframes', hcalls'] using hrest
  · simpa only [hframes'] using hsyscalls
  · simpa only [hframes'] using hhooked.2
  · rwa [hcalls']
  · simpa only [hframes', hcalls'] using hregions.2

/-- A hooked write is the outermost one. -/
theorem exitWrite_hooked (h : Sees p v t entered) {returnValue : Word} {mem : KernelMem} {fn : ProbedFn}
    {rest : List Frame} (hframes : v.frames p = .write fn true :: rest)
    (hs : v.exitWrite p returnValue mem = .ok v') :
    Sees p v' (t.exitWrite returnValue mem) entered ∧ v'.appended = v.appended ∧
      v'.recordedProcessPid = v.recordedProcessPid := by
  obtain ⟨regs, calls, hcalls, hrest⟩ := h.write_cons hframes
  obtain ⟨_, _, hentry, hitems⟩ := exitWrite_calls hcalls returnValue mem
  simp only [ValueSys.exitWrite, hframes] at hs
  cases hrecord : v.currentSyscallRecord with
  | none =>
      have hnot := (h.closed hrecord).2.1 (.write fn true) (by simp [hframes])
      exact absurd rfl hnot
  | some R =>
      obtain ⟨_, hholds, hhooked, hcopy, _⟩ := h.opened R hrecord
      rw [hframes] at hhooked
      have houter : calls.any Call.isWrite = false := by
        rw [← any_isWrite_eq hrest]
        simpa using hhooked.1
      have hnothing : outermostWrite calls = none := by
        simpa [houter] using outermostWrite_isSome calls
      rw [hcalls, outermostWrite_of_none houter, Option.map_some] at hcopy
      split at hs
      · -- a failed write is forgotten
        rename_i hret
        cases hs
        rw [if_neg fun hlogged => hret hlogged.1] at hitems
        refine ⟨h.leaveWrite hframes hcalls hrest hrecord ?_ rfl hrecord (hholds.congr hentry hitems) ?_,
          rfl, rfl⟩
        · simp [ValueSys.setFrames]
        · simp [hnothing]
      · rename_i hret
        rw [if_pos ⟨not_not.1 hret, houter⟩] at hitems
        have hpending : (v.setFrames p rest).currentCopy = some (fn.begun regs) := hcopy
        have hopen : (v.setFrames p rest).currentSyscallRecord = some R := hrecord
        rw [hpending, hopen] at hs
        cases hs
        have hadded : Sys.addCopies R (Item.write (fn.written regs mem)).copies =
            SyscallRecord.addTail R (fn.ended mem (fn.begun regs)) := by
          rw [fn.ended_begun]
          rfl
        refine ⟨h.leaveWrite hframes hcalls hrest hrecord ?_ rfl rfl
          (hadded ▸ hholds.append hentry hitems) ?_, rfl, rfl⟩
        · simp [ValueSys.setFrames]
        · simp [hnothing]

/-- A write that is not hooked is within another one, or in a syscall that is not recorded. -/
theorem exitWrite_inner (h : Sees p v t entered) {returnValue : Word} {mem : KernelMem} {fn : ProbedFn}
    {rest : List Frame} (hframes : v.frames p = .write fn false :: rest) :
    Sees p (v.setFrames p rest) (t.exitWrite returnValue mem) entered := by
  obtain ⟨regs, calls, hcalls, hrest⟩ := h.write_cons hframes
  obtain ⟨hsyscalls, hmem⟩ := h.rest_of_write hframes
  obtain ⟨hcalls', hregs, hentry, hitems⟩ := exitWrite_calls hcalls returnValue mem
  cases hrecord : v.currentSyscallRecord with
  | none =>
      obtain ⟨_, hidle, hcopy⟩ := h.closed hrecord
      rw [hframes] at hidle
      refine h.movedIdle hrecord hrecord hcopy rfl ⟨hregs, hentry⟩ ?_ ?_ ?_ ?_
      · simpa [ValueSys.setFrames] using hmem
      · simpa [ValueSys.setFrames, hcalls'] using hrest
      · simpa [ValueSys.setFrames] using hsyscalls
      · simpa [ValueSys.setFrames] using (List.forall_mem_cons.1 hidle).2
  | some R =>
      obtain ⟨_, hholds, hhooked, hcopy, _⟩ := h.opened R hrecord
      rw [hframes] at hhooked
      have hinner : calls.any Call.isWrite = true := by
        rw [← any_isWrite_eq hrest]
        simpa using hhooked.1
      rw [hcalls, outermostWrite_of_any _ _ hinner] at hcopy
      rw [if_neg (by simp [hinner])] at hitems
      exact h.leaveWrite hframes hcalls hrest hrecord (by simp [ValueSys.setFrames]) rfl hrecord
        (hholds.congr hentry hitems) hcopy

theorem exitWrite (h : Sees p v t entered) {returnValue : Word} {mem : KernelMem}
    (hs : v.exitWrite p returnValue mem = .ok v') :
    Sees p v' (t.advance (.exitWrite p returnValue mem)) entered ∧ v'.appended = v.appended ∧
      v'.recordedProcessPid = v.recordedProcessPid := by
  have hall := hs
  simp only [ValueSys.exitWrite] at hs
  split at hs
  · rename_i fn rest hframes
    exact h.exitWrite_hooked hframes hall
  · rename_i fn rest hframes
    cases hs
    exact ⟨h.exitWrite_inner hframes, rfl, rfl⟩
  · cases hs

/-! ### Wrapped functions -/

theorem enterWrap (h : Sees p v t entered) (hp : p ≠ 0) (w : SyscallWrapper) (regs : PtRegs)
    (mem : UserMem) (hpid : v.currentSyscallRecord.isSome → v.recordedProcessPid = p) :
    Sees p (v.enterWrap p w regs mem true) (t.advance (.enterWrap p w regs mem true)) entered := by
  cases hrecord : v.currentSyscallRecord with
  | none =>
      have hpre : v.preWrapSyscall p w regs mem true = none := by
        simp [ValueSys.preWrapSyscall, hrecord]
      rw [ValueSys.enterWrap, hpre]
      exact h.pushIdle hrecord (.wrapRejected _) (by simp) (by simp [Frame.Hooked])
  | some R =>
      obtain ⟨_, _, hhooked, hcopy, _⟩ := h.opened R hrecord
      have hrecorded := not_notRecorded hp (hpid (by simp [hrecord]))
      have hpre : v.preWrapSyscall p w regs mem true = w.readRegion regs t.regs mem := by
        simp [ValueSys.preWrapSyscall, hrecord, hrecorded, h.regs]
      have hmatches : Matches (.wrap (w.readRegion regs t.regs mem))
          (.wrap (w.readRegion regs t.regs mem)) := by
        cases w.readRegion regs t.regs mem with
        | none =>
            exact .wrapRejected none
        | some m =>
            exact .wrap m
      have hregion : Sys.SameRegion (.wrap (w.readRegion regs t.regs mem))
          (.wrap (w.readRegion regs t.regs mem)) := by
        intro recorded region hrecorded hregion
        cases hrecorded
        cases hregion
        rfl
      rw [ValueSys.enterWrap, hpre]
      refine h.push hrecord (by simp [ValueSys.setFrames]) rfl hrecord hmatches (by simp) hregion ?_ ?_
      · simpa [OutermostHooked] using hhooked
      · simpa [ValueSys.setFrames, outermostWrite] using hcopy

/-- With every allocation granted the wrapper records all bytes that differ. -/
theorem wrapCopies_eq {recorded : Option SyscallRecordedMem} {mem : UserMem}
    {allocs : List (Option Ptr)}
    (hroom : ∀ m, recorded = some m → (regionDiffs (some m) mem).length ≤ granted allocs) :
    wrapCopies recorded mem true allocs = regionDiffs recorded mem := by
  cases recorded with
  | none =>
      rfl
  | some m =>
      have hlen := hroom m rfl
      simp only [wrapCopies, regionDiffs, Bool.not_true, Bool.false_eq_true, if_false] at hlen ⊢
      cases hread : mem.copyFromUser m.ptr m.len.toNat with
      | none =>
          rfl
      | some newMem =>
          simp only [hread] at hlen ⊢
          exact List.take_of_length_le hlen

theorem exitWrap_calls {region : Option SyscallRecordedMem} {calls : List Call}
    (hcalls : t.calls = .wrap region :: calls) (mem : UserMem) :
    (t.exitWrap mem).calls = calls ∧ (t.exitWrap mem).regs = t.regs ∧
      (t.exitWrap mem).entry = t.entry ∧
      (t.exitWrap mem).items = t.items ++ [.diffs (regionDiffs region mem)] := by
  simp only [Trace.exitWrap, hcalls]
  exact ⟨trivial, trivial, trivial, trivial⟩

theorem exitWrap (h : Sees p v t entered) {mem : UserMem} {allocs : List (Option Ptr)}
    (hroom : ∀ m rest, v.frames p = .wrap (some m) :: rest →
      (regionDiffs (some m) mem).length ≤ granted allocs)
    (hs : v.exitWrap p mem true allocs = .ok v') :
    Sees p v' (t.advance (.exitWrap p mem true allocs)) entered ∧ v'.appended = v.appended ∧
      v'.recordedProcessPid = v.recordedProcessPid := by
  have hmatches := h.calls
  have hsyscalls := h.outermost
  simp only [ValueSys.exitWrap] at hs
  split at hs
  · rename_i recorded rest hframes
    rw [hframes] at hmatches hsyscalls
    obtain ⟨call, calls, hfirst, hrest, hcalls⟩ := List.forall₂_cons_left_iff.1 hmatches
    obtain ⟨region, rfl⟩ : ∃ region, call = .wrap region := by
      cases hfirst with
      | wrapRejected region =>
          exact ⟨region, rfl⟩
      | wrap m =>
          exact ⟨some m, rfl⟩
    obtain ⟨hcalls', hregs', hentry', hitems'⟩ := exitWrap_calls hcalls mem
    have hmem : ∀ hooked, .syscall hooked ∈ rest ↔ .syscall hooked ∈ v.frames p := by
      simp [hframes]
    cases hrecord : v.currentSyscallRecord with
    | none =>
        obtain ⟨_, hidle, hcopy⟩ := h.closed hrecord
        rw [hframes] at hidle
        obtain ⟨hfree, hquiet⟩ := List.forall_mem_cons.1 hidle
        have hnone : recorded = none := by
          simpa [Frame.Hooked] using hfree
        subst hnone
        have hopen : (v.setFrames p rest).currentSyscallRecord = none := hrecord
        have hnil : wrapCopies none mem true allocs = [] := rfl
        rw [hopen, hnil] at hs
        cases hs
        refine ⟨h.movedIdle hrecord hrecord hcopy rfl ⟨hregs', hentry'⟩ ?_ ?_ ?_ ?_, rfl, rfl⟩
        · simpa [ValueSys.setFrames] using hmem
        · simpa [ValueSys.setFrames, Trace.advance, hcalls'] using hrest
        · simpa [ValueSys.setFrames] using hsyscalls.2
        · simpa [ValueSys.setFrames] using hquiet
    | some R =>
        obtain ⟨_, hholds, hhooked, hcopy, hregions⟩ := h.opened R hrecord
        rw [hframes] at hhooked
        rw [hframes, hcalls, List.forall₂_cons] at hregions
        obtain rfl : recorded = region := hregions.1 recorded region rfl rfl
        have hopen : (v.setFrames p rest).currentSyscallRecord = some R := hrecord
        have hcopies : wrapCopies recorded mem true allocs = regionDiffs recorded mem := by
          apply wrapCopies_eq
          rintro m rfl
          exact hroom m rest hframes
        rw [hopen, hcopies] at hs
        cases hs
        rw [hcalls] at hcopy
        refine ⟨h.moved hrecord rfl rfl ⟨hregs', hentry'⟩ ?_ ?_ ?_
          (hholds.append hentry' hitems') ?_ ?_ ?_, rfl, rfl⟩
        · simpa [ValueSys.setFrames] using hmem
        · simpa [ValueSys.setFrames, Trace.advance, hcalls'] using hrest
        · simpa [ValueSys.setFrames] using hsyscalls.2
        · simpa [ValueSys.setFrames, OutermostHooked] using hhooked
        · simpa [ValueSys.setFrames, Trace.advance, hcalls', outermostWrite] using hcopy
        · simpa [ValueSys.setFrames, Trace.advance, hcalls'] using hregions.2
  · cases hs

/-! ### Everything else -/

/-- What other processes do does not concern the process while the pid names it or nobody. -/
theorem other (h : Sees p v t entered) (hconfined : ValueSys.Confined (· = p) v) {e : Event}
    {q : Pid} (he : e.process = some q) (hq : q ≠ p) (hs : v.step e = .ok v') :
    Sees p v' t entered ∧ v'.appended = v.appended ∧
      v'.recordedProcessPid = v.recordedProcessPid := by
  have hhidden : ¬e.Visible (· = p) := fun hvisible => hq (hvisible q he)
  obtain ⟨hkept, hrecord, hcopy, happended, hpid⟩ := ValueSys.hidden_frame hconfined hhidden hs
  obtain ⟨hframes, hregs⟩ := hkept p rfl
  exact ⟨h.congr hframes hregs hrecord hcopy, happended, hpid⟩

/-- A read only takes records out of the FIFO, which it remembers. -/
theorem read_frame {r : ReadArgs} (hs : v.read r = .ok v') :
    v'.frames = v.frames ∧ v'.taskPtRegs = v.taskPtRegs ∧
      v'.currentSyscallRecord = v.currentSyscallRecord ∧ v'.currentCopy = v.currentCopy ∧
      v'.recordedProcessPid = v.recordedProcessPid ∧ v'.appended = v.appended := by
  unfold ValueSys.read at hs
  split at hs
  · cases hs
  · split at hs
    · split at hs
      · cases hs
        exact ⟨rfl, rfl, rfl, rfl, rfl, rfl⟩
      · split at hs
        · cases hs
          exact ⟨rfl, rfl, rfl, rfl, rfl, rfl⟩
        · cases hs
    · rename_i R rest hcons
      cases hs
      refine ⟨rfl, rfl, rfl, rfl, rfl, ?_⟩
      have hsplit := Stands.dumpValues_queue R rest r.buf r.size r.user 0 false
      simp [ValueSys.appended, hcons, ← hsplit]

theorem exitSyscall_pid {regs : PtRegs} (hs : v.exitSyscall p regs = .ok v') :
    v'.recordedProcessPid = v.recordedProcessPid := by
  simp only [ValueSys.exitSyscall] at hs
  split at hs
  · split at hs
    · cases hs
      rfl
    · cases hs
      rfl
  · cases hs
    rfl
  · cases hs

theorem enterSyscall_history {regs : PtRegs} {granted : Bool}
    (hs : v.enterSyscall p regs granted = .ok v') :
    v'.appended = v.appended ∧ v'.recordedProcessPid = v.recordedProcessPid := by
  simp only [ValueSys.enterSyscall] at hs
  split at hs
  · split at hs
    · cases hs
      exact ⟨rfl, rfl⟩
    · cases hs
      exact ⟨rfl, rfl⟩
  · cases hs

theorem enterWrite_history (v : ValueSys) (p : Pid) (fn : ProbedFn) (regs : PtRegs)
    (granted : Bool) : (v.enterWrite p fn regs granted).appended = v.appended ∧
      (v.enterWrite p fn regs granted).recordedProcessPid = v.recordedProcessPid := by
  unfold ValueSys.enterWrite
  split
  · exact ⟨rfl, rfl⟩
  · exact ⟨rfl, rfl⟩

/-! ### What is not recorded is not refused either -/

theorem enterSyscall_granted (hnot : v.notRecorded p) (regs : PtRegs) (granted : Bool) :
    v.enterSyscall p regs granted = v.enterSyscall p regs true := by
  have hnot' : (v.saveRegs p regs).notRecorded p := hnot
  simp only [ValueSys.enterSyscall, hnot', true_or, or_true, if_true]

theorem enterWrite_granted (hnone : v.currentSyscallRecord = none) (fn : ProbedFn) (regs : PtRegs)
    (granted : Bool) : v.enterWrite p fn regs granted = v.enterWrite p fn regs true := by
  simp only [ValueSys.enterWrite, hnone, Option.isNone_none, true_or, or_true, if_true]

theorem enterWrap_allocated (hnone : v.currentSyscallRecord = none) (w : SyscallWrapper) (regs : PtRegs)
    (mem : UserMem) (allocated : Bool) :
    v.enterWrap p w regs mem allocated = v.enterWrap p w regs mem true := by
  simp [ValueSys.enterWrap, ValueSys.preWrapSyscall, hnone]

theorem exitWrap_allocated {mem : UserMem} {allocated : Bool} {allocs : List (Option Ptr)}
    (h : ∀ m rest, v.frames p = .wrap (some m) :: rest → allocated = true) :
    v.exitWrap p mem allocated allocs = v.exitWrap p mem true allocs := by
  unfold ValueSys.exitWrap
  split
  · rename_i recorded rest hframes
    cases recorded with
    | none =>
        rfl
    | some m =>
        rw [h m rest hframes]
  · rfl

/-- While a record is open the process is inside its recorded syscall, so the module asks for the same. -/
theorem granted (h : Sees p v t entered) {s : Sys} (hR : RefinesValues s v) {e : Event}
    (he : s.Granted p e) : v.Granted p e := by
  obtain ⟨lost, hstands⟩ := hR.stands
  have hrecording : v.currentSyscallRecord.isSome → s.Recording p := by
    intro hopen
    obtain ⟨R, hrecord⟩ := Option.isSome_iff_exists.1 hopen
    rw [Sys.Recording, ← hR.frames]
    exact (h.opened R hrecord).1
  cases e with
  | enterSyscall q regs a =>
      exact fun hpid => he (hstands.pid.symm.trans hpid)
  | enterWrite q fn regs a =>
      intro hopen
      obtain ⟨hgranted, hpid⟩ := he (hrecording hopen)
      exact ⟨hgranted, hstands.pid.trans hpid⟩
  | enterWrap q wr regs mem allocated =>
      intro hopen
      obtain ⟨hgranted, hpid⟩ := he (hrecording hopen)
      exact ⟨hgranted, hstands.pid.trans hpid⟩
  | exitWrap q mem allocated allocs =>
      exact fun m rest hframes => he m rest (by rw [← hR.frames]; exact hframes)
  | _ =>
      trivial

/-- What the process does itself, but for the return of a syscall. -/
theorem own_step (h : Sees p v t entered) (hp : p ≠ 0) {e : Event} (hprocess : e.process = some p)
    (hgranted : v.Granted p e) (hexit : ∀ q regs, e ≠ .exitSyscall q regs) (hs : v.step e = .ok v') :
    Sees p v' (t.advance e) (v.enteredAfter p entered e) ∧ v'.appended = v.appended ∧
      v'.recordedProcessPid = v.recordedProcessPid := by
  cases e with
  | enterSyscall q regs a =>
      obtain rfl : q = p := by simpa [Event.process] using hprocess
      have htrue : v.enterSyscall q regs true = .ok v' := by
        by_cases hpid : v.recordedProcessPid = q
        · rw [← hgranted hpid]
          exact hs
        · rw [← enterSyscall_granted (Or.inl fun heq => hpid heq.symm)]
          exact hs
      obtain ⟨happended, hpid⟩ := enterSyscall_history htrue
      exact ⟨h.enterSyscall hp htrue, happended, hpid⟩
  | exitSyscall q regs =>
      exact absurd rfl (hexit q regs)
  | enterWrite q fn regs a =>
      obtain rfl : q = p := by simpa [Event.process] using hprocess
      have htrue : v.enterWrite q fn regs a.isSome = v.enterWrite q fn regs true := by
        cases hrecord : v.currentSyscallRecord with
        | none =>
            exact enterWrite_granted hrecord fn regs a.isSome
        | some R =>
            rw [(hgranted (by simp [hrecord])).1]
      cases hs
      rw [htrue]
      obtain ⟨happended, hpid⟩ := enterWrite_history v q fn regs true
      exact ⟨h.enterWrite hp fn regs a fun hopen => (hgranted hopen).2, happended, hpid⟩
  | exitWrite q returnValue mem =>
      obtain rfl : q = p := by simpa [Event.process] using hprocess
      exact h.exitWrite hs
  | enterWrap q w regs mem allocated =>
      obtain rfl : q = p := by simpa [Event.process] using hprocess
      have htrue : v.enterWrap q w regs mem allocated = v.enterWrap q w regs mem true := by
        cases hrecord : v.currentSyscallRecord with
        | none =>
            exact enterWrap_allocated hrecord w regs mem allocated
        | some R =>
            rw [(hgranted (by simp [hrecord])).1]
      cases hs
      rw [htrue]
      exact ⟨h.enterWrap hp w regs mem fun hopen => (hgranted hopen).2, rfl, rfl⟩
  | exitWrap q mem allocated allocs =>
      obtain rfl : q = p := by simpa [Event.process] using hprocess
      have htrue : v.exitWrap q mem true allocs = .ok v' := by
        rw [← exitWrap_allocated fun m rest hframes => (hgranted m rest hframes).1]
        exact hs
      exact h.exitWrap (fun m rest hframes => (hgranted m rest hframes).2) htrue
  | writeProc ppos count parsed =>
      cases hprocess
  | read r =>
      cases hprocess

end Sees

end RrPython
