import RrPython.Recorder.Accounting
import RrPython.Recorder.NullSafety

/-!
# Bystanders — processes that are never recorded leave no trace

The hooks run for every process of the machine.  Those whose pid is never written to
`/proc/recorded_process` change nothing that the module keeps and nothing that it hands out, however
their calls are interleaved with those of the recorded ones; nor do the addresses that `kmalloc` answers
with.  Two runs that agree on the calls of the watched processes, the writes of the pid and the reads
are the same run to whoever reads the dump.
-/

namespace RrPython

open Foundation

/-! ## Events -/

/-- The event belongs to a watched process, or to none. -/
def Event.Visible (W : Pid → Prop) (e : Event) : Prop :=
  ∀ p, e.process = some p → W p

/-- A write to `/proc/recorded_process` names a watched process, or nobody. -/
def Event.NamesWatched (W : Pid → Prop) : Event → Prop
  | .writeProc _ _ parsed => ∀ pid, parsed = some pid → pid = 0 ∨ W pid
  | _ => True

instance (W : Pid → Prop) [DecidablePred W] : DecidablePred (Event.Visible W) := by
  intro e
  unfold Event.Visible
  cases e.process with
  | none =>
      exact isTrue (by simp)
  | some p =>
      exact decidable_of_iff (W p) (by simp)

/-- The event with all addresses that `kmalloc` answers with replaced by one. -/
def Event.anonymous : Event → Event
  | .enterSyscall p regs a => .enterSyscall p regs (a.map fun _ => 0)
  | .enterWrite p fn regs a => .enterWrite p fn regs (a.map fun _ => 0)
  | .exitWrap p mem allocated allocs =>
      .exitWrap p mem allocated (allocs.map fun a => a.map fun _ => 0)
  | e => e

/-- What a run shows of the watched processes. -/
def watchedEvents (W : Pid → Prop) [DecidablePred W] (es : List Event) : List Event :=
  (es.filter (Event.Visible W)).map Event.anonymous

theorem granted_anonymous (allocs : List (Option Ptr)) :
    granted (allocs.map fun a => a.map fun _ => 0) = granted allocs := by
  simp [granted, List.takeWhile_map, Function.comp_def]

theorem wrapCopies_anonymous (recorded : Option SyscallRecordedMem) (mem : UserMem)
    (allocated : Bool) (allocs : List (Option Ptr)) :
    wrapCopies recorded mem allocated (allocs.map fun a => a.map fun _ => 0) =
      wrapCopies recorded mem allocated allocs := by
  simp only [wrapCopies, granted_anonymous]

namespace ValueSys

/-- The value state does not know the addresses. -/
theorem step_anonymous (v : ValueSys) (e : Event) : v.step e.anonymous = v.step e := by
  cases e with
  | exitWrap p mem allocated allocs =>
      simp only [Event.anonymous, step, exitWrap, wrapCopies_anonymous]
  | _ =>
      simp [Event.anonymous, step]

/-! ## Forgetting the bystanders -/

/-- The state with all that concerns one bystander or the other left out. -/
def restrict (W : Pid → Prop) [DecidablePred W] (v : ValueSys) : ValueSys :=
  { v with
    taskPtRegs := fun p => if W p then v.taskPtRegs p else fun _ => 0
    frames := fun p => if W p then v.frames p else [] }

/-- Bystanders are inside no hook, and the open record is that of a watched process. -/
structure Confined (W : Pid → Prop) (v : ValueSys) : Prop where
  pid : v.recordedProcessPid = 0 ∨ W v.recordedProcessPid
  owner : ∀ R, v.currentSyscallRecord = some R → W R.userspaceRegsPtr
  idle : ∀ p, ¬W p → .syscall true ∉ v.frames p ∧ ∀ f ∈ v.frames p, ¬f.Hooked

variable {W : Pid → Prop} {v v' : ValueSys} {p : Pid}

theorem Confined.notRecorded (h : Confined W v) (hp : ¬W p) : v.notRecorded p := by
  rcases h.pid with hpid | hpid
  · exact Or.inr hpid
  · refine Or.inl ?_
    rintro rfl
    exact hp hpid

theorem confined_init {pid : Int} (hpid : pid = 0 ∨ W pid) (taskPtRegs : Pid → PtRegs) :
    Confined W (init pid taskPtRegs) where
  pid := hpid
  owner := by
    intro R hR
    cases hR
  idle := by
    intro p _
    simp [init]

/-- A step that moves one process and keeps the owner of the open record. -/
theorem Confined.moved (h : Confined W v) {fs : List Frame}
    (hpid : v'.recordedProcessPid = v.recordedProcessPid)
    (hframes : v'.frames = Function.update v.frames p fs)
    (howner : ∀ R, v'.currentSyscallRecord = some R → W R.userspaceRegsPtr)
    (hfs : ¬W p → .syscall true ∉ fs ∧ ∀ f ∈ fs, ¬f.Hooked) : Confined W v' := by
  refine ⟨hpid ▸ h.pid, howner, ?_⟩
  intro q hq
  rw [hframes]
  by_cases hqp : q = p
  · subst hqp
    simpa using hfs hq
  · rw [Function.update_of_ne hqp]
    exact h.idle q hq

theorem frames_of_idle (h : Confined W v) (hp : ¬W p) {f : Frame} {rest : List Frame}
    (hframes : v.frames p = f :: rest) : ¬f.Hooked ∧ f ≠ .syscall true ∧
      .syscall true ∉ rest ∧ ∀ f ∈ rest, ¬f.Hooked := by
  obtain ⟨hsyscall, hhooked⟩ := h.idle p hp
  rw [hframes] at hsyscall hhooked
  refine ⟨hhooked f List.mem_cons_self, fun heq => hsyscall (heq ▸ List.mem_cons_self),
    fun hmem => hsyscall (List.mem_cons_of_mem f hmem),
    fun g hg => hhooked g (List.mem_cons_of_mem f hg)⟩

section Restrict

variable [DecidablePred W]

theorem restrict_frames (hp : W p) : (v.restrict W).frames p = v.frames p :=
  if_pos hp

theorem restrict_regs (hp : W p) : (v.restrict W).taskPtRegs p = v.taskPtRegs p :=
  if_pos hp

theorem restrict_setFrames (hp : W p) (fs : List Frame) :
    (v.setFrames p fs).restrict W = (v.restrict W).setFrames p fs := by
  simp only [restrict, setFrames, ValueSys.mk.injEq, true_and, and_true]
  funext q
  by_cases hq : q = p
  · subst hq
    simp [hp]
  · simp [hq]

theorem restrict_saveRegs (hp : W p) (regs : PtRegs) :
    (v.saveRegs p regs).restrict W = (v.restrict W).saveRegs p regs := by
  simp only [restrict, saveRegs, ValueSys.mk.injEq, true_and, and_true]
  funext q
  by_cases hq : q = p
  · subst hq
    simp [hp]
  · simp [hq]

theorem restrict_setFrames_of_not (hp : ¬W p) (fs : List Frame) :
    (v.setFrames p fs).restrict W = v.restrict W := by
  simp only [restrict, setFrames, ValueSys.mk.injEq, true_and, and_true]
  funext q
  by_cases hq : q = p
  · subst hq
    simp [hp]
  · simp [hq]

theorem restrict_saveRegs_of_not (hp : ¬W p) (regs : PtRegs) :
    (v.saveRegs p regs).restrict W = v.restrict W := by
  simp only [restrict, saveRegs, ValueSys.mk.injEq, true_and, and_true]
  funext q
  by_cases hq : q = p
  · subst hq
    simp [hp]
  · simp [hq]

/-! ## Events of bystanders -/

/-- A bystander only moves between its own calls. -/
theorem hidden_step (h : Confined W v) {e : Event} (he : ¬e.Visible W) (hs : v.step e = .ok v') :
    Confined W v' ∧ v'.restrict W = v.restrict W := by
  have hnot : ∃ p, e.process = some p ∧ ¬W p := by
    simpa [Event.Visible] using he
  obtain ⟨p, hprocess, hp⟩ := hnot
  have hrecorded := h.notRecorded hp
  cases e with
  | enterSyscall q regs a =>
      obtain rfl : q = p := by simpa [Event.process] using hprocess
      simp only [step, enterSyscall] at hs
      split at hs
      · have hcond : Kernel.neverReturns (regs .origRax) ∨ (v.saveRegs q regs).notRecorded q ∨
            (v.saveRegs q regs).currentSyscallRecord.isSome ∨ a.isSome = false :=
          Or.inr (Or.inl hrecorded)
        rw [if_pos hcond] at hs
        cases hs
        refine ⟨h.moved rfl rfl h.owner fun _ => ?_, ?_⟩
        · simp [Frame.Hooked]
        · rw [restrict_setFrames_of_not hp, restrict_saveRegs_of_not hp]
      · cases hs
  | exitSyscall q regs =>
      obtain rfl : q = p := by simpa [Event.process] using hprocess
      simp only [step, exitSyscall] at hs
      split at hs
      · rename_i rest hframes
        exact absurd rfl (frames_of_idle h hp hframes).2.1
      · rename_i rest hframes
        cases hs
        refine ⟨h.moved rfl rfl h.owner fun _ => (frames_of_idle h hp hframes).2.2, ?_⟩
        rw [restrict_setFrames_of_not hp, restrict_saveRegs_of_not hp]
      · cases hs
  | enterWrite q fn regs a =>
      obtain rfl : q = p := by simpa [Event.process] using hprocess
      have hcond : v.notRecorded q ∨ v.currentSyscallRecord.isNone ∨ v.currentCopy.isSome ∨
          a.isSome = false := Or.inl hrecorded
      simp only [step, enterWrite, if_pos hcond] at hs
      cases hs
      refine ⟨h.moved rfl rfl h.owner fun _ => ?_, restrict_setFrames_of_not hp _⟩
      obtain ⟨hsyscall, hhooked⟩ := h.idle q hp
      simpa [Frame.Hooked, hsyscall] using hhooked
  | exitWrite q returnValue mem =>
      obtain rfl : q = p := by simpa [Event.process] using hprocess
      simp only [step, exitWrite] at hs
      split at hs
      · rename_i fn rest hframes
        exact absurd rfl (frames_of_idle h hp hframes).1
      · rename_i fn rest hframes
        cases hs
        exact ⟨h.moved rfl rfl h.owner fun _ => (frames_of_idle h hp hframes).2.2,
          restrict_setFrames_of_not hp _⟩
      · cases hs
  | enterWrap q w regs mem allocated =>
      obtain rfl : q = p := by simpa [Event.process] using hprocess
      have hpre : v.preWrapSyscall q w regs mem allocated = none := if_pos hrecorded
      simp only [step, enterWrap, hpre] at hs
      cases hs
      refine ⟨h.moved rfl rfl h.owner fun _ => ?_, restrict_setFrames_of_not hp _⟩
      obtain ⟨hsyscall, hhooked⟩ := h.idle q hp
      simpa [Frame.Hooked, hsyscall] using hhooked
  | exitWrap q mem allocated allocs =>
      obtain rfl : q = p := by simpa [Event.process] using hprocess
      simp only [step, exitWrap] at hs
      split at hs
      · rename_i recorded rest hframes
        -- the wrapper was turned away, so there is nothing to compare
        have hnone : recorded = none := by
          simpa [Frame.Hooked] using (frames_of_idle h hp hframes).1
        have hmoved : v' = v.setFrames q rest := by
          subst hnone
          cases hrecord : (v.setFrames q rest).currentSyscallRecord with
          | none =>
              simpa [wrapCopies, hrecord] using hs.symm
          | some R =>
              simp only [wrapCopies, hrecord, List.foldl_nil, Except.ok.injEq] at hs
              rw [← hs, ← hrecord]
        subst hmoved
        exact ⟨h.moved rfl rfl h.owner fun _ => (frames_of_idle h hp hframes).2.2,
          restrict_setFrames_of_not hp _⟩
      · cases hs
  | writeProc ppos count parsed =>
      simp [Event.process] at hprocess
  | read r =>
      simp [Event.process] at hprocess

/-- All that a bystander leaves as it was. -/
theorem hidden_frame (h : Confined W v) {e : Event} (he : ¬e.Visible W) (hs : v.step e = .ok v') :
    (∀ q, W q → v'.frames q = v.frames q ∧ v'.taskPtRegs q = v.taskPtRegs q) ∧
      v'.currentSyscallRecord = v.currentSyscallRecord ∧ v'.currentCopy = v.currentCopy ∧
      v'.appended = v.appended ∧ v'.recordedProcessPid = v.recordedProcessPid := by
  obtain ⟨_, hsame⟩ := hidden_step h he hs
  refine ⟨fun q hq => ⟨?_, ?_⟩, ?_, ?_, ?_, ?_⟩
  · simpa [restrict, hq] using congrFun (congrArg ValueSys.frames hsame) q
  · simpa [restrict, hq] using congrFun (congrArg ValueSys.taskPtRegs hsame) q
  · simpa [restrict] using congrArg ValueSys.currentSyscallRecord hsame
  · simpa [restrict] using congrArg ValueSys.currentCopy hsame
  · simpa [restrict, ValueSys.appended] using congrArg ValueSys.appended hsame
  · simpa [restrict] using congrArg ValueSys.recordedProcessPid hsame

/-! ## Events of watched processes -/

theorem notRecorded_restrict : (v.restrict W).notRecorded p ↔ v.notRecorded p := Iff.rfl

/-- Appending copies does not change whose record it is. -/
theorem owner_foldl (cs : List CopyRecord) (R : Record) :
    (cs.foldl SyscallRecord.addTail R).userspaceRegsPtr = R.userspaceRegsPtr := by
  induction cs generalizing R with
  | nil =>
      rfl
  | cons c cs ih =>
      rw [List.foldl_cons, ih]
      rfl

theorem confined_enterSyscall (h : Confined W v) (hp : W p) {regs : PtRegs} {granted : Bool}
    (hs : v.enterSyscall p regs granted = .ok v') :
    Confined W v' ∧ (v.restrict W).enterSyscall p regs granted = .ok (v'.restrict W) := by
  have hsaved : (v.restrict W).saveRegs p regs = (v.saveRegs p regs).restrict W :=
    (restrict_saveRegs hp regs).symm
  simp only [enterSyscall, restrict_frames hp] at hs ⊢
  split at hs
  · rename_i hframes
    rw [hsaved]
    split at hs
    · rename_i hcond
      cases hs
      refine ⟨h.moved rfl rfl h.owner fun hq => absurd hp hq, ?_⟩
      rw [restrict_setFrames hp]
      exact if_pos hcond
    · rename_i hcond
      cases hs
      refine ⟨h.moved rfl rfl ?_ fun hq => absurd hp hq, ?_⟩
      · intro R hR
        cases hR
        exact hp
      · rw [restrict_setFrames hp]
        have hfresh : ((v.saveRegs p regs).restrict W).freshRecord p =
            (v.saveRegs p regs).freshRecord p := by
          simp only [freshRecord, restrict_regs hp]
        refine (if_neg hcond).trans ?_
        rw [hfresh]
        rfl
  · cases hs

theorem confined_exitSyscall (h : Confined W v) (hp : W p) {regs : PtRegs}
    (hs : v.exitSyscall p regs = .ok v') :
    Confined W v' ∧ (v.restrict W).exitSyscall p regs = .ok (v'.restrict W) := by
  have hmoved : ∀ rest, ((v.restrict W).saveRegs p regs).setFrames p rest =
      ((v.saveRegs p regs).setFrames p rest).restrict W := by
    intro rest
    rw [restrict_setFrames hp, restrict_saveRegs hp]
  simp only [exitSyscall, restrict_frames hp] at hs ⊢
  split at hs
  · rename_i rest hframes
    rw [hmoved]
    split at hs
    · rename_i hrecord
      have hrecord' : (((v.saveRegs p regs).setFrames p rest).restrict W).currentSyscallRecord =
          none := hrecord
      cases hs
      rw [hrecord']
      exact ⟨h.moved rfl rfl h.owner fun hq => absurd hp hq, rfl⟩
    · rename_i R hrecord
      have hrecord' : (((v.saveRegs p regs).setFrames p rest).restrict W).currentSyscallRecord =
          some R := hrecord
      cases hs
      rw [hrecord']
      refine ⟨h.moved rfl rfl ?_ fun hq => absurd hp hq, ?_⟩
      · intro R' hR'
        cases hR'
      · -- the owner of the record is watched, so its registers have been kept
        have howner : W R.userspaceRegsPtr := h.owner R hrecord
        simp only [finishRecord, restrict_regs howner]
        rfl
  · rename_i rest hframes
    cases hs
    refine ⟨h.moved rfl rfl h.owner fun hq => absurd hp hq, ?_⟩
    rw [hmoved]
  · cases hs

theorem confined_enterWrite (h : Confined W v) (hp : W p) (fn : ProbedFn) (regs : PtRegs)
    (granted : Bool) :
    Confined W (v.enterWrite p fn regs granted) ∧
      (v.restrict W).enterWrite p fn regs granted = (v.enterWrite p fn regs granted).restrict W := by
  by_cases hcond : v.notRecorded p ∨ v.currentSyscallRecord.isNone ∨ v.currentCopy.isSome ∨
      granted = false
  · have hcond' : (v.restrict W).notRecorded p ∨ (v.restrict W).currentSyscallRecord.isNone ∨
        (v.restrict W).currentCopy.isSome ∨ granted = false := hcond
    simp only [enterWrite, if_pos hcond, if_pos hcond', restrict_frames hp]
    exact ⟨h.moved rfl rfl h.owner fun hq => absurd hp hq, (restrict_setFrames hp _).symm⟩
  · have hcond' : ¬((v.restrict W).notRecorded p ∨ (v.restrict W).currentSyscallRecord.isNone ∨
        (v.restrict W).currentCopy.isSome ∨ granted = false) := hcond
    simp only [enterWrite, if_neg hcond, if_neg hcond', restrict_frames hp]
    refine ⟨h.moved rfl rfl h.owner fun hq => absurd hp hq, ?_⟩
    rw [restrict_setFrames hp]
    rfl

theorem confined_exitWrite (h : Confined W v) (hp : W p) {returnValue : Word} {mem : KernelMem}
    (hs : v.exitWrite p returnValue mem = .ok v') :
    Confined W v' ∧ (v.restrict W).exitWrite p returnValue mem = .ok (v'.restrict W) := by
  simp only [exitWrite, restrict_frames hp] at hs ⊢
  split at hs
  · rename_i fn rest hframes
    rw [← restrict_setFrames hp]
    split at hs
    · rename_i hret
      cases hs
      refine ⟨h.moved rfl rfl h.owner fun hq => absurd hp hq, ?_⟩
      rw [if_pos hret]
      rfl
    · rename_i hret
      rw [if_neg hret]
      split at hs
      · rename_i c R hcopy hrecord
        have hcopy' : ((v.setFrames p rest).restrict W).currentCopy = some c := hcopy
        have hrecord' : ((v.setFrames p rest).restrict W).currentSyscallRecord = some R := hrecord
        cases hs
        rw [hcopy', hrecord']
        refine ⟨h.moved rfl rfl ?_ fun hq => absurd hp hq, rfl⟩
        intro R' hR'
        cases hR'
        exact h.owner R hrecord
      · cases hs
  · rename_i fn rest hframes
    cases hs
    refine ⟨h.moved rfl rfl h.owner fun hq => absurd hp hq, ?_⟩
    rw [restrict_setFrames hp]
  · cases hs

theorem confined_enterWrap (h : Confined W v) (hp : W p) (w : SyscallWrapper) (regs : PtRegs)
    (mem : UserMem) (allocated : Bool) :
    Confined W (v.enterWrap p w regs mem allocated) ∧
      (v.restrict W).enterWrap p w regs mem allocated =
        (v.enterWrap p w regs mem allocated).restrict W := by
  have hpre : (v.restrict W).preWrapSyscall p w regs mem allocated =
      v.preWrapSyscall p w regs mem allocated := by
    simp only [preWrapSyscall, notRecorded_restrict, restrict_regs hp]
    rfl
  refine ⟨h.moved rfl rfl h.owner fun hq => absurd hp hq, ?_⟩
  simp only [enterWrap, hpre, restrict_frames hp]
  exact (restrict_setFrames hp _).symm

theorem confined_exitWrap (h : Confined W v) (hp : W p) {mem : UserMem} {allocated : Bool}
    {allocs : List (Option Ptr)} (hs : v.exitWrap p mem allocated allocs = .ok v') :
    Confined W v' ∧ (v.restrict W).exitWrap p mem allocated allocs = .ok (v'.restrict W) := by
  simp only [exitWrap, restrict_frames hp] at hs ⊢
  split at hs
  · rename_i recorded rest hframes
    rw [← restrict_setFrames hp]
    split at hs
    · rename_i R hrecord
      have hrecord' : ((v.setFrames p rest).restrict W).currentSyscallRecord = some R := hrecord
      cases hs
      rw [hrecord']
      refine ⟨h.moved rfl rfl ?_ fun hq => absurd hp hq, rfl⟩
      intro R' hR'
      cases hR'
      rw [owner_foldl]
      exact h.owner R hrecord
    · rename_i hrecord
      have hrecord' : ((v.setFrames p rest).restrict W).currentSyscallRecord = none := hrecord
      rw [hrecord']
      split at hs
      · rename_i hnil
        cases hs
        refine ⟨h.moved rfl rfl h.owner fun hq => absurd hp hq, ?_⟩
        dsimp only
        rw [if_pos hnil]
      · cases hs
  · cases hs

theorem confined_read (h : Confined W v) {r : ReadArgs} (hs : v.read r = .ok v') :
    Confined W v' ∧ (v.restrict W).read r = .ok (v'.restrict W) := by
  have hqueue : (v.restrict W).recordedSyscalls = v.recordedSyscalls := rfl
  simp only [read, hqueue] at hs ⊢
  split at hs
  · cases hs
  · rename_i hsize
    rw [if_neg hsize]
    split at hs
    · rename_i hempty
      split at hs
      · rename_i hnonblock
        cases hs
        rw [if_pos hnonblock]
        exact ⟨⟨h.pid, h.owner, h.idle⟩, rfl⟩
      · rename_i hnonblock
        rw [if_neg hnonblock]
        split at hs
        · rename_i hsignal
          cases hs
          rw [if_pos hsignal]
          exact ⟨⟨h.pid, h.owner, h.idle⟩, rfl⟩
        · cases hs
    · rename_i R rest hcons
      cases hs
      exact ⟨⟨h.pid, h.owner, h.idle⟩, rfl⟩

theorem confined_writePid (h : Confined W v) {ppos : Int} {count : Nat} {parsed : Option Int}
    (hnames : (Event.writeProc ppos count parsed).NamesWatched W) :
    Confined W (v.writePid ppos count parsed) ∧
      (v.restrict W).writePid ppos count parsed = (v.writePid ppos count parsed).restrict W := by
  unfold writePid
  split
  · exact ⟨h, rfl⟩
  · refine ⟨⟨?_, h.owner, h.idle⟩, rfl⟩
    cases parsed with
    | none =>
        exact h.pid
    | some pid =>
        exact hnames pid rfl

/-- What a watched process does, it does whether there are bystanders or not. -/
theorem visible_step (h : Confined W v) {e : Event} (he : e.Visible W) (hnames : e.NamesWatched W)
    (hs : v.step e = .ok v') :
    Confined W v' ∧ (v.restrict W).step e = .ok (v'.restrict W) := by
  cases e with
  | enterSyscall p regs a =>
      exact confined_enterSyscall h (he p rfl) hs
  | exitSyscall p regs =>
      exact confined_exitSyscall h (he p rfl) hs
  | enterWrite p fn regs a =>
      cases hs
      obtain ⟨hconfined, heq⟩ := confined_enterWrite h (he p rfl) fn regs a.isSome
      exact ⟨hconfined, congrArg Except.ok heq⟩
  | exitWrite p returnValue mem =>
      exact confined_exitWrite h (he p rfl) hs
  | enterWrap p w regs mem allocated =>
      cases hs
      obtain ⟨hconfined, heq⟩ := confined_enterWrap h (he p rfl) w regs mem allocated
      exact ⟨hconfined, congrArg Except.ok heq⟩
  | exitWrap p mem allocated allocs =>
      exact confined_exitWrap h (he p rfl) hs
  | writeProc ppos count parsed =>
      cases hs
      obtain ⟨hconfined, heq⟩ := confined_writePid h hnames
      exact ⟨hconfined, congrArg Except.ok heq⟩
  | read r =>
      exact confined_read h hs

/-- Whoever makes the step, the bystanders stay outside the hooks. -/
theorem confined_step (h : Confined W v) {e : Event} (hnames : e.NamesWatched W)
    (hs : v.step e = .ok v') : Confined W v' := by
  by_cases hvisible : e.Visible W
  · exact (visible_step h hvisible hnames hs).1
  · exact (hidden_step h hvisible hs).1

/-! ## Every run -/

/-- Without the bystanders the run goes the same way. -/
theorem run_watched {es : List Event} (h : Confined W v) (hnames : ∀ e ∈ es, e.NamesWatched W)
    (hrun : run step v es = .ok v') :
    run step (v.restrict W) (watchedEvents W es) = .ok (v'.restrict W) := by
  have hhidden : ∀ v w e v', (Confined W v ∧ w = v.restrict W) → Event.NamesWatched W e →
      ¬e.Visible W → step v e = .ok v' → Confined W v' ∧ w = v'.restrict W := by
    intro v w e v' hR _ he hs
    obtain ⟨hconfined, heq⟩ := hidden_step hR.1 he hs
    exact ⟨hconfined, hR.2.trans heq.symm⟩
  have hvisible : ∀ v w e v', (Confined W v ∧ w = v.restrict W) → Event.NamesWatched W e →
      e.Visible W → step v e = .ok v' →
      ∃ w', step w e = .ok w' ∧ Confined W v' ∧ w' = v'.restrict W := by
    intro v w e v' hR hP he hs
    obtain ⟨hconfined, hstep⟩ := visible_step hR.1 he hP hs
    exact ⟨v'.restrict W, hR.2 ▸ hstep, hconfined, rfl⟩
  obtain ⟨w, hw, _, rfl⟩ := run_filter (Event.Visible W) hhidden hvisible ⟨h, rfl⟩ hnames hrun
  rw [watchedEvents, run_map step_anonymous]
  exact hw

end Restrict

end ValueSys

namespace Sys

/-- Two runs of the module that agree on what the watched processes do, on the writes of the pid and on
the reads leave the same behind: the same records pushed, the same bytes read, the same records still
queued and the same one open.  What all other processes do, when they do it, and which addresses
`kmalloc` answers with makes no difference. -/
theorem bystanders_leave_no_trace {W : Pid → Prop} [DecidablePred W] {pid : Int}
    {taskPtRegs taskPtRegs' : Pid → PtRegs} {es es' : List Event} {s s' : Sys}
    (hpid : pid = 0 ∨ W pid) (hnames : ∀ e ∈ es, e.NamesWatched W)
    (hnames' : ∀ e ∈ es', e.NamesWatched W) (hregs : ∀ p, W p → taskPtRegs p = taskPtRegs' p)
    (hrun : run step (init pid taskPtRegs) es = .ok s)
    (hrun' : run step (init pid taskPtRegs') es' = .ok s')
    (hsame : watchedEvents W es = watchedEvents W es') :
    s.appended = s'.appended ∧ s.reads = s'.reads ∧ s.kernel.queued = s'.kernel.queued ∧
      s.kernel.recordedProcessPid = s'.kernel.recordedProcessPid ∧
      s.kernel.currentSyscallRecord.bind (heapRecord s.kernel.heap) =
        s'.kernel.currentSyscallRecord.bind (heapRecord s'.kernel.heap) ∧
      ∀ p, W p → s.frames p = s'.frames p := by
  obtain ⟨v, hv, hrefines⟩ := RefinesValues.of_run hrun
  obtain ⟨v', hv', hrefines'⟩ := RefinesValues.of_run hrun'
  obtain ⟨lost, hstands⟩ := hrefines.stands
  obtain ⟨lost', hstands'⟩ := hrefines'.stands
  have hwatched := ValueSys.run_watched (ValueSys.confined_init hpid taskPtRegs) hnames hv
  have hwatched' := ValueSys.run_watched (ValueSys.confined_init hpid taskPtRegs') hnames' hv'
  -- the two runs start in the same state as far as the watched processes go
  have hstart : (ValueSys.init pid taskPtRegs).restrict W =
      (ValueSys.init pid taskPtRegs').restrict W := by
    simp only [ValueSys.restrict, ValueSys.init, ValueSys.mk.injEq, true_and, and_true]
    funext p
    by_cases hp : W p
    · simp [hp, hregs p hp]
    · simp [hp]
  have hend : v.restrict W = v'.restrict W := by
    rw [hstart, hsame, hwatched'] at hwatched
    exact (Except.ok.inj hwatched).symm
  have happended : v.appended = v'.appended := by
    simpa [ValueSys.restrict, ValueSys.appended] using congrArg ValueSys.appended hend
  have hreads : v.reads = v'.reads := by
    simpa [ValueSys.restrict] using congrArg ValueSys.reads hend
  have hqueue : v.recordedSyscalls = v'.recordedSyscalls := by
    simpa [ValueSys.restrict] using congrArg ValueSys.recordedSyscalls hend
  have hpids : v.recordedProcessPid = v'.recordedProcessPid := by
    simpa [ValueSys.restrict] using congrArg ValueSys.recordedProcessPid hend
  have hrecord : v.currentSyscallRecord = v'.currentSyscallRecord := by
    simpa [ValueSys.restrict] using congrArg ValueSys.currentSyscallRecord hend
  have hframes : ∀ p, W p → v.frames p = v'.frames p := by
    intro p hp
    have hcongr := congrFun (congrArg ValueSys.frames hend) p
    simpa [ValueSys.restrict, hp] using hcongr
  refine ⟨?_, ?_, ?_, ?_, ?_, ?_⟩
  · rw [hrefines.appended, hrefines'.appended, happended]
  · rw [hrefines.reads, hrefines'.reads, hreads]
  · rw [hstands.queued_eq, hstands'.queued_eq, hqueue]
  · rw [← hstands.pid, ← hstands'.pid, hpids]
  · rw [← hstands.record, ← hstands'.record, hrecord]
  · intro p hp
    rw [← hrefines.frames, ← hrefines'.frames]
    exact hframes p hp

/-- Process 1 writes one byte within a syscall. -/
def aloneRun : List Event :=
  [.enterSyscall 1 (fun _ => 0) (some 16), .enterWrite 1 .putUser1 (fun _ => 7) (some 32),
    .exitWrite 1 0 (fun _ => 0), .exitSyscall 1 (fun _ => 1)]

/-- It does so while process 2 makes a syscall of its own, and is given other addresses. -/
def crowdedRun : List Event :=
  [.enterSyscall 2 (fun _ => 9) (some 8), .enterSyscall 1 (fun _ => 0) (some 64),
    .enterWrite 2 .putUser8 (fun _ => 5) (some 24), .enterWrite 1 .putUser1 (fun _ => 7) (some 96),
    .exitWrite 2 0 (fun _ => 3), .exitSyscall 2 (fun _ => 4), .exitWrite 1 0 (fun _ => 0),
    .exitSyscall 1 (fun _ => 1)]

theorem bystanders_leave_no_trace_crowdedRun :
    ∃ s s', run step (init 1 fun _ _ => 0) aloneRun = .ok s ∧
      run step (init 1 fun _ _ => 0) crowdedRun = .ok s' ∧ s.appended = s'.appended := by
  obtain ⟨s, hrun⟩ : ∃ s, run step (init 1 fun _ _ => 0) aloneRun = .ok s := ⟨_, rfl⟩
  obtain ⟨s', hrun'⟩ : ∃ s, run step (init 1 fun _ _ => 0) crowdedRun = .ok s := ⟨_, rfl⟩
  have hnames : ∀ es : List Event, es = aloneRun ∨ es = crowdedRun →
      ∀ e ∈ es, e.NamesWatched (· = 1) := by
    rintro es (rfl | rfl) e he <;>
      · simp only [aloneRun, crowdedRun, List.mem_cons, List.not_mem_nil, or_false] at he
        rcases he with rfl | rfl | rfl | rfl | rfl | rfl | rfl | rfl <;> trivial
  have hsame := bystanders_leave_no_trace (W := (· = 1)) (Or.inr rfl)
    (hnames aloneRun (Or.inl rfl)) (hnames crowdedRun (Or.inr rfl)) (fun _ _ => rfl) hrun hrun' rfl
  exact ⟨s, s', hrun, hrun', hsame.1⟩

end Sys

end RrPython
