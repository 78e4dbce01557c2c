import RrPython.Recorder.Ownership

/-!
# Death — processes that are killed inside a syscall

A killed process leaves its syscall without a return handler.  If the syscall was recorded, nobody
resets `current_syscall_record`, and `pre_syscall` turns every later syscall of every process away.
-/

namespace RrPython

open Foundation

/-! ## Who writes `current_syscall_record` -/

namespace Kernel

/-- A function that returns a kernel leaves `current_syscall_record` as it is in `k`. -/
def KeepsCurrent {α : Type} (k : Kernel) (kernel : α → Kernel) : Except Fault α → Prop :=
  Meets (fun _ => True) fun x => (kernel x).currentSyscallRecord = k.currentSyscallRecord

variable {k : Kernel}

theorem KeepsCurrent.bind {α β : Type} {kernel : α → Kernel} {kernel' : β → Kernel}
    {x : Except Fault α} {f : α → Except Fault β} (h : KeepsCurrent k kernel x)
    (hf : ∀ a, KeepsCurrent (kernel a) kernel' (f a)) : KeepsCurrent k kernel' (x >>= f) := by
  refine Meets.bind h fun a ha => ?_
  exact (hf a).mono (fun _ _ => trivial) fun b hb => Eq.trans hb ha

theorem keepsCurrent_kmalloc (size : Nat) (a : Option Ptr) (b : Block) :
    KeepsCurrent k id (k.kmalloc size a b) := by
  unfold kmalloc
  cases a with
  | none =>
      rfl
  | some p =>
      dsimp only
      split
      · trivial
      · rfl

theorem keepsCurrent_kfree (p : Ptr) : KeepsCurrent k id (k.kfree p) := by
  unfold kfree
  split
  · rfl
  · trivial

theorem keepsCurrent_freeCopyRecords (cs : List Ptr) : KeepsCurrent k id (k.freeCopyRecords cs) := by
  induction cs generalizing k with
  | nil =>
      rfl
  | cons c cs ih =>
      exact (keepsCurrent_kfree c).bind fun _ => ih

/-- What is loaded does not matter to the kernel that follows. -/
theorem keepsCurrent_load {α β : Type} {kernel : β → Kernel} {x : Except Fault α}
    {f : α → Except Fault β} (hf : ∀ a, KeepsCurrent k kernel (f a)) :
    KeepsCurrent k kernel (x >>= f) := by
  cases x with
  | ok a =>
      exact hf a
  | error e =>
      trivial

theorem keepsCurrent_listAddTail (copy : Ptr) : KeepsCurrent k id (k.listAddTail copy) :=
  keepsCurrent_load fun _ => rfl

theorem keepsCurrent_freeSyscallRecord (p : Ptr) : KeepsCurrent k id (k.freeSyscallRecord p) :=
  keepsCurrent_load fun _ =>
    (keepsCurrent_freeCopyRecords _).bind fun _ => keepsCurrent_kfree p

theorem keepsCurrent_endCopy (returnValue : Word) (fill : CopyRecord → CopyRecord) :
    KeepsCurrent k id (k.endCopy returnValue fill) := by
  unfold endCopy
  split
  · cases k.currentCopy with
    | none =>
        rfl
    | some p =>
        exact (keepsCurrent_kfree p).bind fun _ => rfl
  · refine keepsCurrent_load fun x => ?_
    exact (keepsCurrent_listAddTail x.1).bind fun _ => rfl

theorem keepsCurrent_wrapLoop (ptr : Word) (olds : List Byte) :
    ∀ (i : Nat) (news : List Byte) (allocs : List (Option Ptr)) {k : Kernel},
      KeepsCurrent k id (wrapLoop ptr i olds news allocs k) := by
  -- on the bytes kept from the entry; a differing byte costs one `kmalloc` and one `list_add_tail`
  induction olds with
  | nil =>
      intro i news allocs k
      simp [wrapLoop, KeepsCurrent]
  | cons old olds ih =>
      intro i news allocs k
      cases news with
      | nil =>
          simp [wrapLoop, KeepsCurrent]
      | cons new news =>
          by_cases hsame : old = new
          · simpa [wrapLoop, hsame] using ih (i + 1) news allocs
          · cases allocs with
            | nil =>
                simp [wrapLoop, hsame, KeepsCurrent]
            | cons a allocs =>
                cases a with
                | none =>
                    simp [wrapLoop, hsame, KeepsCurrent]
                | some p =>
                    simp only [wrapLoop, hsame, ne_eq, not_false_eq_true, if_true]
                    exact (keepsCurrent_kmalloc ..).bind fun _ =>
                      (keepsCurrent_listAddTail p).bind fun _ => ih _ _ _

theorem keepsCurrent_postWrapSyscall (recorded : SyscallRecordedMem) (mem : UserMem)
    (allocated : Bool) (allocs : List (Option Ptr)) :
    KeepsCurrent k id (k.postWrapSyscall recorded mem allocated allocs) := by
  unfold postWrapSyscall
  split
  · rfl
  · split
    · rfl
    · exact keepsCurrent_wrapLoop _ _ _ _ _

theorem keepsCurrent_dumpSingleRecord (buf size : Word) (u : UserSpace) :
    KeepsCurrent k Prod.fst (k.dumpSingleRecord buf size u) := by
  unfold dumpSingleRecord
  split
  · trivial
  · refine keepsCurrent_load fun r => ?_
    -- every way out but the one for a small buffer has unlinked the record and frees it
    have hfree : ∀ (p : Ptr) (rest : List Ptr) (u : UserSpace) (n : Int),
        KeepsCurrent k Prod.fst (do
          let k ← { k with recordedSyscalls := rest }.freeSyscallRecord p
          pure (k, u, n)) := by
      intro p rest u n
      exact (keepsCurrent_freeSyscallRecord (k := { k with recordedSyscalls := rest }) p).bind
        fun _ => rfl
    dsimp only
    split
    · rfl
    · split
      · exact hfree _ _ _ _
      · split
        · exact hfree _ _ _ _
        · exact hfree _ _ _ _

theorem keepsCurrent_dumpRecordsLoop (fuel : Nat) :
    ∀ {k : Kernel} (buf size : Word) (u : UserSpace) (sizeWritten : Int) (didDoFirstWrite : Bool),
      KeepsCurrent k Prod.fst (dumpRecordsLoop fuel k buf size u sizeWritten didDoFirstWrite) := by
  induction fuel with
  | zero =>
      intro k buf size u sizeWritten didDoFirstWrite
      trivial
  | succ fuel ih =>
      intro k buf size u sizeWritten didDoFirstWrite
      refine (keepsCurrent_dumpSingleRecord buf size u).bind fun x => ?_
      dsimp only
      split
      · rfl
      · split
        · rfl
        · split
          · rfl
          · exact ih _ _ _ _ _

theorem keepsCurrent_readProc (r : ReadArgs) : KeepsCurrent k Prod.fst (k.readProc r) := by
  unfold readProc
  split
  · split
    · rfl
    · split
      · rfl
      · trivial
  · exact keepsCurrent_dumpRecordsLoop _ _ _ _ _ _

/-- `post_syscall` always ends with no record open. -/
theorem postSyscall_current :
    Meets (fun _ => True) (fun k' => k'.currentSyscallRecord = none) k.postSyscall := by
  unfold postSyscall
  split
  · rfl
  · cases k.loadSyscallRecord k.currentSyscallRecord with
    | error f =>
        trivial
    | ok x =>
        dsimp only [bind, Except.bind]
        split
        · rfl
        · cases freeSyscallRecord _ _ with
          | error f =>
              trivial
          | ok k' =>
              rfl

/-- `pre_syscall` with the record lock free and a block from `kmalloc`. -/
theorem preSyscall_opens {current userspaceRegsPtr : Pid} {nr : Word} {a : Ptr}
    (hnr : ¬neverReturns nr) (hpid : ¬k.notRecorded current)
    (hfree : k.currentSyscallRecord = none) (ha : k.heap a = none) :
    k.preSyscall current nr userspaceRegsPtr (some a) =
      .ok (k.openRecord a (k.newRecord userspaceRegsPtr), 0) := by
  have hsize : ¬kmallocMaxSize < sizeofSyscallRecord := by
    decide
  simp [preSyscall, kmalloc, hnr, hpid, hfree, ha, hsize]
  rfl

end Kernel

/-! ## The record lock -/

namespace Sys

/-- What an event does to `current_syscall_record` and to the stacks: it leaves both alone, or opens
the record for its process, or closes it. -/
inductive LockStep (s : Sys) (e : Event) (s' : Sys) : Prop
  | keep (hcurrent : s'.kernel.currentSyscallRecord = s.kernel.currentSyscallRecord)
      (hcount : ∀ q, hookedSyscalls (s'.frames q) = hookedSyscalls (s.frames q))
  | take (p : Pid) (hp : e.process = some p) (hfree : s.kernel.currentSyscallRecord = none)
      (htaken : s'.kernel.currentSyscallRecord.isSome = true)
      (hself : hookedSyscalls (s'.frames p) = hookedSyscalls (s.frames p) + 1)
      (hother : ∀ q, q ≠ p → hookedSyscalls (s'.frames q) = hookedSyscalls (s.frames q))
  | give (p : Pid) (hfree : s'.kernel.currentSyscallRecord = none)
      (hself : hookedSyscalls (s.frames p) = hookedSyscalls (s'.frames p) + 1)
      (hother : ∀ q, q ≠ p → hookedSyscalls (s'.frames q) = hookedSyscalls (s.frames q))

/-- The lock, and that only the process of the event moves. -/
structure HookStep (s : Sys) (e : Event) (s' : Sys) : Prop where
  lock : LockStep s e s'
  others : ∀ q, e.process ≠ some q → s'.frames q = s.frames q

theorem others_move {s : Sys} {e : Event} {p : Pid} (he : e.process = some p) (fs : List Frame)
    (k : Kernel) : ∀ q, e.process ≠ some q → (s.move p fs k).frames q = s.frames q := by
  intro q hq
  refine Function.update_of_ne ?_ ..
  rintro rfl
  exact hq he

/-- The process moves without entering or leaving a recorded syscall. -/
theorem hookStep_move {s : Sys} {e : Event} {p : Pid} (he : e.process = some p) {fs : List Frame}
    {k : Kernel} (hk : k.currentSyscallRecord = s.kernel.currentSyscallRecord)
    (hfs : hookedSyscalls fs = hookedSyscalls (s.frames p)) : HookStep s e (s.move p fs k) :=
  ⟨.keep hk (counts_update hfs), others_move he fs k⟩

theorem hookStep_enterSyscall (s : Sys) (p : Pid) (regs : PtRegs) (a : Option Ptr) :
    Meets (fun _ => True) (HookStep s (.enterSyscall p regs a)) (s.enterSyscall p regs a) := by
  refine (enterSyscall_cases s p regs a).mono (fun _ _ => trivial) ?_
  rintro s' ⟨hframes, ⟨rfl, _⟩ | ⟨q, _, rfl, _, _, hfree, _⟩⟩
  · exact hookStep_move rfl rfl (by simp [hframes])
  · refine ⟨.take p rfl hfree rfl ?_ (counts_update_other s.frames _), others_move rfl _ _⟩
    simp [move, hframes]

/-- While a record is open no syscall is accepted. -/
theorem not_recording_of_open {s s' : Sys} (hopen : s.kernel.currentSyscallRecord.isSome = true)
    {p : Pid} {regs : PtRegs} {a : Option Ptr} (hs : s.enterSyscall p regs a = .ok s') :
    ¬s'.Recording p := by
  obtain ⟨_, ⟨rfl, _⟩ | ⟨q, _, _, _, _, hfree, _⟩⟩ := (enterSyscall_cases s p regs a).of_ok hs
  · simp [Recording, move]
  · rw [hfree] at hopen
    cases hopen

theorem hookStep_exitSyscall (s : Sys) (p : Pid) (regs : PtRegs) :
    Meets (fun _ => True) (HookStep s (.exitSyscall p regs)) (s.exitSyscall p regs) := by
  unfold exitSyscall
  split
  · rename_i rest hframes
    -- only the handler of a recorded syscall runs `post_syscall`
    refine Meets.bind Kernel.postSyscall_current fun k hk => ?_
    refine ⟨.give p hk ?_ (counts_update_other s.frames _), others_move rfl rest k⟩
    simp [move, log, hframes]
  · rename_i rest hframes
    exact hookStep_move rfl rfl (by simp [hframes])
  · trivial

theorem hookStep_enterWrite (s : Sys) (p : Pid) (fn : ProbedFn) (regs : PtRegs) (a : Option Ptr) :
    Meets (fun _ => True) (HookStep s (.enterWrite p fn regs a)) (s.enterWrite p fn regs a) := by
  refine (enterWrite_cases s p fn regs a).mono (fun _ _ => trivial) ?_
  rintro s' (⟨rfl, _⟩ | ⟨c, _, rfl, _, _, _, _, _⟩)
  · exact hookStep_move rfl rfl (by simp)
  · exact hookStep_move rfl rfl (by simp)

theorem hookStep_exitWrite (s : Sys) (p : Pid) (returnValue : Word) (mem : KernelMem) :
    Meets (fun _ => True) (HookStep s (.exitWrite p returnValue mem))
      (s.exitWrite p returnValue mem) := by
  unfold exitWrite
  split
  · rename_i fn rest hframes
    rw [fn.handler_eq]
    exact Meets.bind (Kernel.keepsCurrent_endCopy _ _) fun k hk =>
      hookStep_move rfl hk (by simp [hframes])
  · rename_i fn rest hframes
    exact hookStep_move rfl rfl (by simp [hframes])
  · trivial

theorem hookStep_exitWrap (s : Sys) (p : Pid) (mem : UserMem) (allocated : Bool)
    (allocs : List (Option Ptr)) :
    Meets (fun _ => True) (HookStep s (.exitWrap p mem allocated allocs))
      (s.exitWrap p mem allocated allocs) := by
  unfold exitWrap
  split
  · rename_i recorded rest hframes
    exact Meets.bind (Kernel.keepsCurrent_postWrapSyscall _ _ _ _) fun k hk =>
      hookStep_move rfl hk (by simp [hframes])
  · rename_i rest hframes
    exact hookStep_move rfl rfl (by simp [hframes])
  · trivial

theorem hookStep_read (s : Sys) (r : ReadArgs) :
    Meets (fun _ => True) (HookStep s (.read r)) (s.read r) := by
  unfold read
  split
  · trivial
  · exact Meets.bind (Kernel.keepsCurrent_readProc r) fun x hx =>
      ⟨.keep hx fun _ => rfl, fun _ _ => rfl⟩

theorem hookStep_writePid (s : Sys) (ppos : Int) (count : Nat) (parsed : Option Int) :
    HookStep s (.writeProc ppos count parsed) (s.writePid ppos count parsed) := by
  refine ⟨.keep ?_ fun _ => rfl, fun _ _ => rfl⟩
  rcases writeProc_eq s.kernel ppos count parsed with hk | ⟨pid, _, hk⟩ <;> simp [writePid, hk]

theorem hookStep (s : Sys) (e : Event) : Meets (fun _ => True) (HookStep s e) (s.step e) := by
  cases e with
  | enterSyscall p regs a =>
      exact hookStep_enterSyscall s p regs a
  | exitSyscall p regs =>
      exact hookStep_exitSyscall s p regs
  | enterWrite p fn regs a =>
      exact hookStep_enterWrite s p fn regs a
  | exitWrite p returnValue mem =>
      exact hookStep_exitWrite s p returnValue mem
  | enterWrap p w regs mem allocated =>
      exact hookStep_move rfl rfl (by simp)
  | exitWrap p mem allocated allocs =>
      exact hookStep_exitWrap s p mem allocated allocs
  | writeProc ppos count parsed =>
      exact hookStep_writePid s ppos count parsed
  | read r =>
      exact hookStep_read s r

end Sys

/-! ## Processes that live and die -/

structure LifeSys where
  sys : Sys
  alive : Pid → Bool
  /-- History: the process whose `pre_syscall` has last set `current_syscall_record`. -/
  opener : Option Pid

inductive LifeEvent
  | hook (e : Event)
  /-- A process with the free number `p` is created. -/
  | create (p : Pid)
  /-- `p` is destroyed wherever it is; no return handler runs for it any more. -/
  | destroy (p : Pid)

namespace LifeSys

def init (pid : Int) (taskPtRegs : Pid → PtRegs) (alive : Pid → Bool) : LifeSys where
  sys := Sys.init pid taskPtRegs
  alive
  opener := none

/-- The process of an event, if it has one, is alive. -/
def runs (s : LifeSys) (e : Event) : Bool :=
  e.process.all s.alive

def openerAfter (s : LifeSys) (e : Event) (sys' : Sys) : Option Pid :=
  if s.sys.kernel.currentSyscallRecord.isNone && sys'.kernel.currentSyscallRecord.isSome then e.process
  else s.opener

def step (s : LifeSys) : LifeEvent → Except Fault LifeSys
  | .hook e =>
      if s.runs e then do
        let sys' ← s.sys.step e
        pure { s with sys := sys', opener := s.openerAfter e sys' }
      else .error .impossible
  | .create p =>
      if s.alive p then .error .impossible
      else .ok { s with alive := Function.update s.alive p true }
  | .destroy p =>
      if s.alive p then
        .ok { s with
          sys := s.sys.move p [] s.sys.kernel
          alive := Function.update s.alive p false }
      else .error .impossible

/-- The record belongs to a living process that is still inside the syscall. -/
def OpenerInside (s : LifeSys) : Prop :=
  s.sys.kernel.currentSyscallRecord.isSome = true →
    ∃ p, s.opener = some p ∧ s.alive p = true ∧ s.sys.Recording p

/-- While no living process has a record open, `pre_syscall` accepts the next syscall of the process
to record, unless it is one that never returns or `kmalloc` fails. -/
def AcceptsNext (s : LifeSys) : Prop :=
  (∀ p, s.alive p = true → ¬s.sys.Recording p) →
    ∀ p regs a, s.alive p = true → s.sys.frames p = [] → ¬s.sys.kernel.notRecorded p →
      ¬Kernel.neverReturns (regs .origRax) → s.sys.kernel.heap a = none →
        ∃ sys', s.sys.enterSyscall p regs (some a) = .ok sys' ∧ sys'.Recording p

/-- The step does not destroy a process inside a recorded syscall. -/
def SparesRecording (s : LifeSys) : LifeEvent → Prop
  | .destroy p => ¬(s.alive p = true ∧ s.sys.Recording p)
  | _ => True

/-! ## The invariant -/

structure Inv (s : LifeSys) : Prop where
  record : Exclusive (s.sys.kernel.currentSyscallRecord.isSome = true)
    (fun p => hookedSyscalls (s.sys.frames p))
  opener : ∀ p, s.sys.Recording p → s.opener = some p
  living : ∀ p, s.alive p = false → s.sys.frames p = []

theorem inv_init (pid : Int) (taskPtRegs : Pid → PtRegs) (alive : Pid → Bool) :
    (init pid taskPtRegs alive).Inv := by
  refine ⟨(Sys.inv_init pid taskPtRegs).record, fun p hp => ?_, fun p _ => rfl⟩
  cases hp

variable {s s' : LifeSys}

theorem Inv.alive (h : s.Inv) {p : Pid} (hp : s.sys.Recording p) : s.alive p = true := by
  cases halive : s.alive p with
  | true =>
      rfl
  | false =>
      rw [Sys.Recording, h.living p halive] at hp
      cases hp

theorem Inv.recording (h : s.Inv) (hopen : s.sys.kernel.currentSyscallRecord.isSome = true) :
    ∃ p, s.sys.Recording p := by
  rcases h.record.holder hopen with ⟨p, hp, _⟩
  exact ⟨p, hookedSyscalls_pos.1 (by omega)⟩

theorem Inv.openerInside (h : s.Inv) : s.OpenerInside := by
  intro hopen
  rcases h.recording hopen with ⟨p, hp⟩
  exact ⟨p, h.opener p hp, h.alive hp, hp⟩

theorem Inv.acceptsNext (h : s.Inv) : s.AcceptsNext := by
  intro hnone p regs a _ hframes hpid hnr ha
  have hfree : s.sys.kernel.currentSyscallRecord = none := by
    -- an open record would have a living owner, and nobody living has one
    cases hcurrent : s.sys.kernel.currentSyscallRecord with
    | none =>
        rfl
    | some q =>
        rcases h.recording (by rw [hcurrent]; rfl) with ⟨r, hr⟩
        exact absurd hr (hnone r (h.alive hr))
  have hpid' : ¬(s.sys.kernel.saveRegs p regs).notRecorded p := hpid
  refine ⟨s.sys.move p [.syscall true] ((s.sys.kernel.saveRegs p regs).openRecord a
    ((s.sys.kernel.saveRegs p regs).newRecord p)), ?_, ?_⟩
  · rw [Sys.enterSyscall, hframes]
    simp only [Kernel.preSyscall_opens hnr hpid' (k := s.sys.kernel.saveRegs p regs) hfree ha]
    rfl
  · simp [Sys.Recording, Sys.move]

/-! ## One step -/

/-- The recorded process, if there is one, is counted once. -/
theorem recording_iff {s : Sys} {p : Pid} : s.Recording p ↔ 0 < hookedSyscalls (s.frames p) :=
  hookedSyscalls_pos.symm

theorem Inv.hook (h : s.Inv) {e : Event} (hruns : s.runs e = true) {sys' : Sys}
    (hs : s.sys.step e = .ok sys') :
    Inv { s with sys := sys', opener := s.openerAfter e sys' } := by
  obtain ⟨hlock, hothers⟩ := (Sys.hookStep s.sys e).of_ok hs
  -- an event moves its process only, which is alive
  have hliving : ∀ p, s.alive p = false → sys'.frames p = [] := by
    intro p hp
    rw [hothers p, h.living p hp]
    intro he
    rw [runs, he, Option.all_some, hp] at hruns
    cases hruns
  cases hlock with
  | keep hcurrent hcount =>
      -- the history moves only where the record goes from closed to open
      have hopener : s.openerAfter e sys' = s.opener := by
        unfold openerAfter
        rw [hcurrent]
        cases s.sys.kernel.currentSyscallRecord <;> simp
      refine ⟨h.record.congr (by rw [hcurrent]) hcount, fun p hp => ?_, hliving⟩
      rw [hopener]
      refine h.opener p (recording_iff.2 ?_)
      rw [← hcount p]
      exact recording_iff.1 hp
  | take p he hfree htaken hself hother =>
      have hopener : s.openerAfter e sys' = some p := by
        simp [openerAfter, hfree, htaken, he]
      have hrecord := h.record.acquire (by simp [hfree]) htaken p hself hother
      refine ⟨hrecord, fun q hq => ?_, hliving⟩
      have hqp : q = p := hrecord.unique (recording_iff.1 hq) (by omega)
      rw [hopener, hqp]
  | give p hfree hself hother =>
      have hfree' : ¬sys'.kernel.currentSyscallRecord.isSome = true := by
        simp [hfree]
      have hrecord := h.record.release hfree' p hself hother
      refine ⟨hrecord, fun q hq => ?_, hliving⟩
      have hheld := hrecord.held_of_pos (recording_iff.1 hq)
      rw [hfree] at hheld
      cases hheld

theorem Inv.create (h : s.Inv) (p : Pid) :
    Inv { s with alive := Function.update s.alive p true } := by
  refine ⟨h.record, h.opener, fun q hq => ?_⟩
  dsimp only at hq
  by_cases hqp : q = p
  · subst hqp
    rw [Function.update_self] at hq
    cases hq
  · rw [Function.update_of_ne hqp] at hq
    exact h.living q hq

theorem Inv.destroy (h : s.Inv) {p : Pid} (hp : ¬s.sys.Recording p) :
    Inv { s with
      sys := s.sys.move p [] s.sys.kernel
      alive := Function.update s.alive p false } := by
  -- the stack that is lost held no recorded syscall, so no count changes
  have hnone : hookedSyscalls (s.sys.frames p) = 0 := by
    rw [recording_iff] at hp
    omega
  have hcount : ∀ q, hookedSyscalls (Function.update s.sys.frames p [] q) = hookedSyscalls (s.sys.frames q) :=
    counts_update hnone.symm
  refine ⟨h.record.congr Iff.rfl hcount, fun q hq => ?_, fun q hq => ?_⟩
  · refine h.opener q (recording_iff.2 ?_)
    rw [← hcount q]
    exact recording_iff.1 hq
  · dsimp only at hq
    by_cases hqp : q = p
    · subst hqp
      exact Function.update_self ..
    · rw [Function.update_of_ne hqp] at hq
      exact (Function.update_of_ne hqp ..).trans (h.living q hq)

theorem Inv.step (h : s.Inv) {e : LifeEvent} (hspares : s.SparesRecording e)
    (hs : s.step e = .ok s') : s'.Inv := by
  cases e with
  | hook e =>
      simp only [LifeSys.step] at hs
      split_ifs at hs with hruns
      cases hsys : s.sys.step e with
      | error f =>
          rw [hsys] at hs
          cases hs
      | ok sys' =>
          rw [hsys] at hs
          cases hs
          exact h.hook hruns hsys
  | create p =>
      simp only [LifeSys.step] at hs
      split_ifs at hs
      cases hs
      exact h.create p
  | destroy p =>
      simp only [LifeSys.step] at hs
      split_ifs at hs with halive
      cases hs
      exact h.destroy fun hp => hspares ⟨halive, hp⟩

/-- Once the recorded process is destroyed inside its syscall, the record has no living owner. -/
theorem Inv.destroyed (h : s.Inv) {e : LifeEvent} (hspares : ¬s.SparesRecording e) :
    ∃ s', s.step e = .ok s' ∧ ¬s'.OpenerInside := by
  cases e with
  | hook e =>
      exact absurd trivial hspares
  | create p =>
      exact absurd trivial hspares
  | destroy p =>
      obtain ⟨halive, hp⟩ := not_not.1 hspares
      -- the record is still open, its opener was `p`, and `p` is dead now
      refine ⟨_, if_pos halive, fun hinside => ?_⟩
      rcases hinside (h.record.held_of_pos (recording_iff.1 hp)) with ⟨q, hq, hqalive, _⟩
      have hqp : q = p := by
        have hopener := h.opener p hp
        exact Option.some.inj (hq.symm.trans hopener)
      subst hqp
      dsimp only at hqalive
      rw [Function.update_self] at hqalive
      cases hqalive

/-! ## Every run -/

/-- A run leaves no record without a living owner, and `pre_syscall` able to accept, in every state
exactly if it destroys no process inside a recorded syscall. -/
theorem openerInside_iff_sparesRecording (pid : Int) (taskPtRegs : Pid → PtRegs) (alive : Pid → Bool)
    (es : List LifeEvent) :
    Throughout step (fun s => s.OpenerInside ∧ s.AcceptsNext) (init pid taskPtRegs alive) es ↔
      AllSteps step SparesRecording (init pid taskPtRegs alive) es := by
  refine throughout_iff_allSteps (I := Inv) (fun s h => ⟨h.openerInside, h.acceptsNext⟩)
    (fun s e s' h hspares hs => h.step hspares hs) (fun s e h hspares => ?_)
    (inv_init pid taskPtRegs alive)
  rcases h.destroyed hspares with ⟨s', hs, hinside⟩
  exact ⟨s', hs, fun hboth => hinside hboth.1⟩

/-- Process 1 is killed in a recorded syscall, and process 2 is to be recorded next. -/
def killedInSyscall : List LifeEvent :=
  [.hook (.enterSyscall 1 (fun _ => 0) (some 100)), .destroy 1, .hook (.writeProc 0 1 (some 2))]

theorem not_openerInside_killedInSyscall :
    ¬Throughout step OpenerInside (init 1 (fun _ _ => 0) fun _ => true) killedInSyscall ∧
      ¬Throughout step AcceptsNext (init 1 (fun _ _ => 0) fun _ => true) killedInSyscall := by
  refine ⟨fun h => ?_, fun h => ?_⟩
  · -- the record is still there, and process 1 is not
    rcases h.of_run rfl rfl with ⟨p, hp, halive, _⟩
    cases hp
    cases halive
  · -- the first syscall of process 2 is turned away
    have hframes : ∀ p, Frame.syscall true ∉ Function.update (Function.update
        (fun _ : Pid => ([] : List Frame)) 1 [.syscall true]) 1 [] p := by
      intro p hp
      by_cases hp1 : p = 1
      · subst hp1
        rw [Function.update_self] at hp
        cases hp
      · rw [Function.update_of_ne hp1, Function.update_of_ne hp1] at hp
        cases hp
    rcases h.of_run rfl (fun p _ => hframes p) 2 (fun _ => 0) 200 rfl rfl (by decide) (by decide)
      rfl with ⟨sys', hs, hrecording⟩
    exact Sys.not_recording_of_open rfl hs hrecording

end LifeSys

end RrPython
