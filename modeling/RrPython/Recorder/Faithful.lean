import RrPython.Recorder.Recording

/-!
# Faithful — the log of the module is the trace of the recorded process

With the pid fixed to `p` the module follows `p` alone.  When nothing that the kernel grants on
request is refused, the records it has appended are the syscalls of `p`, in order and complete.
-/

namespace RrPython

open Foundation

/-- The record of a syscall of `p`. -/
def TracedSyscall.record (p : Pid) (t : TracedSyscall) : Record where
  userspaceRegs := t.regs
  ret := t.ret
  userspaceRegsPtr := p
  amountOfCopies := BitVec.ofNat 64 (t.items.flatMap Item.copies).length
  copiesToUser := t.items.flatMap Item.copies

namespace Sys

/-- For `p` every allocation of the hooks succeeds and the FIFO has room; the pid stays `p`. -/
def Undisturbed (p : Pid) (s : Sys) : Event → Prop
  | .enterSyscall q _ a => q = p → a.isSome
  | .exitSyscall q _ => q = p → s.kernel.hasRoom
  | .enterWrite q _ _ a => q = p → a.isSome
  | .exitWrite _ _ _ => True
  | .enterWrap q _ _ _ allocated => q = p → allocated = true
  | .exitWrap q mem allocated allocs => q = p → allocated = true ∧
      ∀ m rest, s.frames p = .wrap (some m) :: rest →
        (regionDiffs (some m) mem).length ≤ granted allocs
  | .writeProc ppos count parsed => (s.kernel.writeProc ppos count parsed).1.recordedProcessPid = p
  | .read _ => True

/-- A wrapper that is to compare a region is the wrapper of a call on that region. -/
def SameRegion (f : Frame) (c : Call) : Prop :=
  ∀ recorded region, f = .wrap recorded → c = .wrap region → recorded = region

/-- The module follows `p` and has missed nothing. -/
structure Follows (p : Pid) (s : Sys) (t : Trace) : Prop where
  inv : s.Inv
  owned : s.HooksOwned
  tracks : Tracks Eq p s t
  pid : s.kernel.recordedProcessPid = p
  owner : ∀ q, s.Recording q → q = p
  wraps : s.Recording p → List.Forall₂ SameRegion (s.frames p) t.calls
  hooked : ∀ hooked, .syscall hooked ∈ s.frames p →
    (hooked = true ↔ ¬Kernel.neverReturns (t.entry .origRax))
  appended : s.appended = t.log.map (TracedSyscall.record p)

variable {p : Pid} {s : Sys} {t : Trace}

theorem follows_init (p : Pid) (taskPtRegs : Pid → PtRegs) :
    Follows p (init p taskPtRegs) (Trace.init (taskPtRegs p)) :=
  ⟨inv_init p taskPtRegs, hooksOwned_init p taskPtRegs, tracks_init Eq p p taskPtRegs, rfl,
    by simp [Recording, init], by simp [Recording, init], by simp [init], rfl⟩

/-! ## The hooks follow `p` -/

/-- Whatever record is open is that of `p`. -/
theorem Follows.recording_of_isSome (h : Follows p s t)
    (hopen : s.kernel.currentSyscallRecord.isSome) : s.Recording p := by
  obtain ⟨q, hq, _⟩ := h.inv.record.holder hopen
  have hrec : s.Recording q := hookedSyscalls_pos.1 (by omega)
  exact h.owner q hrec ▸ hrec

theorem Follows.recorded (h : Follows p s t) (hp : p ≠ 0) : ¬s.kernel.notRecorded p := by
  simp [Kernel.notRecorded, h.pid, hp]

theorem Follows.eq_of_recorded (h : Follows p s t) {q : Pid} (hq : ¬s.kernel.notRecorded q) :
    q = p := by
  rw [Kernel.notRecorded, not_or, not_not] at hq
  exact hq.1.trans h.pid

/-- Outside of all its writes `p` has no pending copy, and nobody else ever has one. -/
theorem Follows.no_pending (h : Follows p s t) (houter : (s.frames p).any Frame.isWrite = false) :
    s.kernel.currentCopy = none := by
  by_contra hcopy
  obtain ⟨q, hq, _⟩ := h.inv.copy.holder (Option.isSome_iff_ne_none.2 hcopy)
  have hpos : 0 < hookedWrites (s.frames q) := by omega
  rw [hookedWrites, List.countP_pos_iff] at hpos
  obtain ⟨f, hf, hhook⟩ := hpos
  cases f with
  | syscall hooked =>
      simp [Frame.isHookedWrite] at hhook
  | wrap recorded =>
      simp [Frame.isHookedWrite] at hhook
  | write fn hooked =>
      have hqp : q = p := h.owner q (h.owned q ⟨_, hf, hhook⟩)
      subst hqp
      have hany : (s.frames q).any Frame.isWrite = true :=
        List.any_eq_true.2 ⟨_, hf, rfl⟩
      simp [houter] at hany

theorem Follows.hooksFollowOwner (hp : p ≠ 0) (h : Follows p s t) {e : Event}
    (he : s.Undisturbed p e) : s.HooksFollowOwner e := by
  cases e with
  | enterWrite q fn regs a =>
      constructor
      · intro hrec houter
        -- nothing turns an outermost write of `p` away
        obtain rfl := h.owner q hrec
        obtain ⟨x, hx⟩ := h.inv.isSome_of_recording hrec
        exact ⟨h.recorded hp, by simp [hx], h.no_pending houter, he rfl⟩
      · rintro hrec ⟨hq, hopen, _⟩
        -- only `p` is recorded, and while a record is open `p` is inside its syscall
        obtain rfl := h.eq_of_recorded hq
        exact hrec (h.recording_of_isSome hopen)
  | enterWrap q w regs mem allocated =>
      rintro hrec ⟨hq, hopen, _⟩
      obtain rfl := h.eq_of_recorded hq
      exact hrec (h.recording_of_isSome hopen)
  | _ =>
      trivial

theorem Follows.wrapsRelate (h : Follows p s t) {e : Event} (he : s.Undisturbed p e) :
    WrapsRelate Eq p s t e := by
  cases e with
  | exitWrap q mem allocated allocs =>
      rintro hq recorded region frames calls hrec hframes hcalls _
      have hregions := h.wraps hrec
      rw [hframes, hcalls, List.forall₂_cons] at hregions
      obtain rfl : recorded = region := hregions.1 recorded region rfl rfl
      obtain ⟨halloc, hgranted⟩ := he hq
      cases recorded with
      | none =>
          rfl
      | some m =>
          have hroom := hgranted m frames hframes
          simp only [wrapCopies, regionDiffs, halloc, Bool.not_true, Bool.false_eq_true,
            if_false] at hroom ⊢
          cases hread : mem.copyFromUser m.ptr m.len.toNat with
          | none =>
              rfl
          | some newMem =>
              simp only [hread] at hroom ⊢
              exact List.take_of_length_le hroom
  | _ =>
      trivial

/-! ## One event -/

/-- Events of other processes leave the stack of `p` alone. -/
theorem frames_other {s' : Sys} (hinv : s.Inv) {e : Event} (he : e.process ≠ some p)
    (hs : s.step e = .ok s') : s'.frames p = s.frames p := by
  have hmove : ∀ {q fs k}, some q ≠ some p → (s.move q fs k).frames p = s.frames p := by
    intro q fs k hq
    have hpq : p ≠ q := fun h => hq (by rw [h])
    simp [move, Function.update_of_ne hpq]
  cases e with
  | enterSyscall q regs a =>
      obtain ⟨_, ⟨rfl, _⟩ | ⟨_, _, rfl, _⟩⟩ := (enterSyscall_cases s q regs a).of_ok hs <;>
        exact hmove he
  | exitSyscall q regs =>
      rcases (exitSyscall_cases hinv q regs).of_ok hs with
        ⟨_, rfl⟩ | ⟨_, x, r, _, _, ⟨_, rfl⟩ | ⟨_, rfl⟩⟩
      · exact hmove he
      · exact hmove (k := (s.kernel.saveRegs q regs).pushRecord x r) he
      · exact hmove he
  | enterWrite q fn regs a =>
      rcases (enterWrite_cases s q fn regs a).of_ok hs with ⟨rfl, _⟩ | ⟨_, _, rfl, _⟩ <;>
        exact hmove he
  | exitWrite q returnValue mem =>
      obtain ⟨_, _, _, _, ⟨_, rfl⟩ | ⟨_, _, _, _, _, _, ⟨_, rfl⟩ | ⟨_, _, _, _, _, rfl⟩⟩⟩ :=
        (exitWrite_cases hinv q returnValue mem).of_ok hs <;> exact hmove he
  | enterWrap q w regs mem allocated =>
      cases hs
      exact hmove he
  | exitWrap q mem allocated allocs =>
      obtain ⟨_, _, _, _, rfl, _⟩ := (exitWrap_cases hinv q mem allocated allocs).of_ok hs
      exact hmove he
  | writeProc ppos count parsed =>
      cases hs
      rfl
  | read r =>
      obtain ⟨_, _, _, _, _, rfl, _⟩ := (read_cases hinv r).of_ok hs
      rfl

/-- The pid changes only by a write to `/proc/recorded_process`. -/
theorem pid_step {s' : Sys} (hinv : s.Inv) {e : Event} (hs : s.step e = .ok s') :
    s'.kernel.recordedProcessPid = s.kernel.recordedProcessPid ∨
      ∃ ppos count parsed, e = .writeProc ppos count parsed ∧
        s'.kernel = (s.kernel.writeProc ppos count parsed).1 := by
  cases e with
  | enterSyscall q regs a =>
      obtain ⟨_, ⟨rfl, _⟩ | ⟨_, _, rfl, _⟩⟩ := (enterSyscall_cases s q regs a).of_ok hs <;>
        exact Or.inl rfl
  | exitSyscall q regs =>
      rcases (exitSyscall_cases hinv q regs).of_ok hs with
        ⟨_, rfl⟩ | ⟨_, _, _, _, _, ⟨_, rfl⟩ | ⟨_, rfl⟩⟩ <;> exact Or.inl rfl
  | enterWrite q fn regs a =>
      rcases (enterWrite_cases s q fn regs a).of_ok hs with ⟨rfl, _⟩ | ⟨_, _, rfl, _⟩ <;>
        exact Or.inl rfl
  | exitWrite q returnValue mem =>
      obtain ⟨_, _, _, _, ⟨_, rfl⟩ | ⟨_, _, _, _, _, _, ⟨_, rfl⟩ | ⟨_, _, _, _, _, rfl⟩⟩⟩ :=
        (exitWrite_cases hinv q returnValue mem).of_ok hs <;> exact Or.inl rfl
  | enterWrap q w regs mem allocated =>
      cases hs
      exact Or.inl rfl
  | exitWrap q mem allocated allocs =>
      obtain ⟨_, _, _, _, rfl, hw⟩ := (exitWrap_cases hinv q mem allocated allocs).of_ok hs
      exact Or.inl hw.pid
  | writeProc ppos count parsed =>
      cases hs
      exact Or.inr ⟨ppos, count, parsed, rfl, rfl⟩
  | read r =>
      obtain ⟨_, _, _, _, _, rfl, _, _, _, hpid, _⟩ := (read_cases hinv r).of_ok hs
      exact Or.inl hpid

/-- The frame that an entry of `p` pushes. -/
inductive Pushes (p : Pid) (s : Sys) : Event → Frame → Prop
  | syscall {regs : PtRegs} {a : Option Ptr} {hooked : Bool}
      (h : hooked = true ↔ ¬Kernel.neverReturns (regs .origRax) ∧ ¬s.kernel.notRecorded p ∧
        s.kernel.currentSyscallRecord = none ∧ a.isSome) :
      Pushes p s (.enterSyscall p regs a) (.syscall hooked)
  | write {fn : ProbedFn} {regs : PtRegs} {a : Option Ptr} (hooked : Bool) :
      Pushes p s (.enterWrite p fn regs a) (.write fn hooked)
  | wrap {w : SyscallWrapper} {regs : PtRegs} {mem : UserMem} {allocated : Bool} :
      Pushes p s (.enterWrap p w regs mem allocated)
        (.wrap (s.kernel.preWrapSyscall p w regs mem allocated))

/-- Whatever is on the stack of `p` after an event was there before or has just been pushed. -/
theorem mem_frames_step {s' : Sys} (hinv : s.Inv) {e : Event} (hs : s.step e = .ok s') {f : Frame}
    (hf : f ∈ s'.frames p) : f ∈ s.frames p ∨ Pushes p s e f := by
  by_cases he : e.process = some p
  · cases e with
    | enterSyscall q regs a =>
        obtain rfl : q = p := by simpa [Event.process] using he
        obtain ⟨_, ⟨rfl, hreason⟩ | ⟨x, rfl, rfl, hnr, hpid, hnone, _⟩⟩ :=
          (enterSyscall_cases s q regs a).of_ok hs
        · obtain rfl : f = .syscall false := by simpa [move] using hf
          refine Or.inr (.syscall ?_)
          simp only [Bool.false_eq_true, false_iff]
          rintro ⟨hnr, hpid, hnone, ha⟩
          rcases hreason with h | h | h | h
          · exact hnr h
          · exact hpid h
          · simp [hnone] at h
          · simp [h] at ha
        · obtain rfl : f = .syscall true := by simpa [move] using hf
          exact Or.inr (.syscall (by simp [hnr, hpid, hnone]))
    | exitSyscall q regs =>
        obtain rfl : q = p := by simpa [Event.process] using he
        rcases (exitSyscall_cases hinv q regs).of_ok hs with
          ⟨_, rfl⟩ | ⟨_, _, _, _, _, ⟨_, rfl⟩ | ⟨_, rfl⟩⟩ <;> simp [move, log] at hf
    | enterWrite q fn regs a =>
        obtain rfl : q = p := by simpa [Event.process] using he
        rcases (enterWrite_cases s q fn regs a).of_ok hs with ⟨rfl, _⟩ | ⟨_, _, rfl, _⟩
        · rcases List.mem_cons.1 (by simpa [move] using hf) with rfl | hf
          · exact Or.inr (.write false)
          · exact Or.inl hf
        · rcases List.mem_cons.1 (by simpa [move] using hf) with rfl | hf
          · exact Or.inr (.write true)
          · exact Or.inl hf
    | exitWrite q returnValue mem =>
        obtain rfl : q = p := by simpa [Event.process] using he
        obtain ⟨_, _, rest, hframes, ⟨_, rfl⟩ | ⟨_, _, _, _, _, _, ⟨_, rfl⟩ | ⟨_, _, _, _, _, rfl⟩⟩⟩ :=
          (exitWrite_cases hinv q returnValue mem).of_ok hs <;>
          exact Or.inl (by simpa [move, hframes] using Or.inr hf)
    | enterWrap q w regs mem allocated =>
        obtain rfl : q = p := by simpa [Event.process] using he
        cases hs
        rcases List.mem_cons.1 (by simpa [enterWrap, move] using hf) with rfl | hf
        · exact Or.inr .wrap
        · exact Or.inl hf
    | exitWrap q mem allocated allocs =>
        obtain rfl : q = p := by simpa [Event.process] using he
        obtain ⟨_, rest, _, hframes, rfl, _⟩ :=
          (exitWrap_cases hinv q mem allocated allocs).of_ok hs
        exact Or.inl (by simpa [move, hframes] using Or.inr hf)
    | writeProc ppos count parsed =>
        simp [Event.process] at he
    | read r =>
        simp [Event.process] at he
  · rw [frames_other hinv he hs] at hf
    exact Or.inl hf

theorem recording_step {s' : Sys} (hinv : s.Inv) {e : Event} (hs : s.step e = .ok s')
    (h : s'.Recording p) :
    s.Recording p ∨ ∃ regs a, e = .enterSyscall p regs a ∧ ¬s.kernel.notRecorded p := by
  rcases mem_frames_step hinv hs h with hold | hnew
  · exact Or.inl hold
  · cases hnew with
    | syscall hiff =>
        exact Or.inr ⟨_, _, rfl, (hiff.1 rfl).2.1⟩

/-- Only syscall entries change the entry registers, only exits the log. -/
theorem observe_entry (t : Trace) {e : Event} (he : ∀ regs a, e ≠ .enterSyscall p regs a) :
    (t.observe p e).entry = t.entry := by
  by_cases hp : e.process = some p
  · rw [Trace.observe, if_pos hp]
    cases e with
    | enterSyscall q regs a =>
        obtain rfl : q = p := by simpa [Event.process] using hp
        exact absurd rfl (he regs a)
    | exitSyscall q regs =>
        simp only [Trace.advance, Trace.exitSyscall]
        split <;> rfl
    | exitWrite q returnValue mem =>
        simp only [Trace.advance, Trace.exitWrite]
        split
        · split <;> rfl
        · rfl
    | exitWrap q mem allocated allocs =>
        simp only [Trace.advance, Trace.exitWrap]
        split <;> rfl
    | _ =>
        rfl
  · rw [Trace.observe, if_neg hp]

theorem observe_log (t : Trace) {e : Event} (he : ∀ regs, e ≠ .exitSyscall p regs) :
    (t.observe p e).log = t.log := by
  by_cases hp : e.process = some p
  · rw [Trace.observe, if_pos hp]
    cases e with
    | exitSyscall q regs =>
        obtain rfl : q = p := by simpa [Event.process] using hp
        exact absurd rfl (he regs)
    | exitWrite q returnValue mem =>
        simp only [Trace.advance, Trace.exitWrite]
        split
        · split <;> rfl
        · rfl
    | exitWrap q mem allocated allocs =>
        simp only [Trace.advance, Trace.exitWrap]
        split <;> rfl
    | _ =>
        rfl
  · rw [Trace.observe, if_neg hp]

/-- The return of a syscall of `p`: pushed and logged, or neither. -/
theorem Follows.exitSyscall (h : Follows p s t) {s' : Sys} {regs : PtRegs}
    (hroom : s.kernel.hasRoom) (hs : s.step (.exitSyscall p regs) = .ok s') :
    s'.appended = (t.advance (.exitSyscall p regs)).log.map (TracedSyscall.record p) := by
  rcases (exitSyscall_cases h.inv p regs).of_ok hs with ⟨hframes, rfl⟩ | ⟨hframes, _⟩
  · -- not recorded: it is one of the numbers that `pre_syscall` passes over
    have hnr : Kernel.neverReturns (t.entry .origRax) := by
      have hiff := h.hooked false (by simp [hframes])
      simpa using hiff
    simp [Trace.advance, Trace.exitSyscall, hnr, move, h.appended]
  · obtain ⟨q, R, hR, hpush⟩ := pushed_eq h.inv h.tracks hframes hroom hs
    -- recorded: the trace logs it, and the record that is pushed is that of the log
    have hnr := hR.returns
    have hcopies := hR.copies.eq_flatMap
    have hamount : R.amountOfCopies = BitVec.ofNat 64 R.copiesToUser.length := by
      rw [← (heapRecord_sized h.inv.kernel.heap hR.value).amount_eq, BitVec.ofNat_toNat,
        BitVec.setWidth_eq]
    have hrecord : ({ R with ret := regs .rax } : Record) =
        TracedSyscall.record p { regs := t.entry, ret := regs .rax, items := t.items } := by
      rw [TracedSyscall.record, ← hcopies, ← hamount, ← hR.regs, ← hR.task]
    simp [Trace.advance, Trace.exitSyscall, hnr, hpush, h.appended, hrecord]

/-- The wrappers of `p` have seen the regions of their calls. -/
theorem Follows.wraps_step (hp : p ≠ 0) (h : Follows p s t) {e : Event} (he : s.Undisturbed p e)
    {s' : Sys} (hs : s.step e = .ok s') (hrec' : s'.Recording p) :
    List.Forall₂ SameRegion (s'.frames p) (t.observe p e).calls := by
  by_cases hself : e.process = some p
  · rw [Trace.observe, if_pos hself]
    have hrec : (∀ regs a, e ≠ .enterSyscall p regs a) → s.Recording p := by
      intro hother
      rcases recording_step h.inv hs hrec' with hrec | ⟨regs, a, heq, _⟩
      · exact hrec
      · exact absurd heq (hother regs a)
    cases e with
    | enterSyscall q regs a =>
        obtain rfl : q = p := by simpa [Event.process] using hself
        obtain ⟨_, ⟨rfl, _⟩ | ⟨_, _, rfl, _⟩⟩ := (enterSyscall_cases s q regs a).of_ok hs <;>
          · rw [frames_move_self]
            exact .cons (by simp [SameRegion]) .nil
    | exitSyscall q regs =>
        obtain rfl : q = p := by simpa [Event.process] using hself
        rcases (exitSyscall_cases h.inv q regs).of_ok hs with
          ⟨_, rfl⟩ | ⟨_, _, _, _, _, ⟨_, rfl⟩ | ⟨_, rfl⟩⟩ <;> simp [Recording, move, log] at hrec'
    | enterWrite q fn regs a =>
        obtain rfl : q = p := by simpa [Event.process] using hself
        have hwraps := h.wraps (hrec (by simp))
        rcases (enterWrite_cases s q fn regs a).of_ok hs with ⟨rfl, _⟩ | ⟨_, _, rfl, _⟩ <;>
          · rw [frames_move_self]
            exact .cons (by simp [SameRegion]) hwraps
    | exitWrite q returnValue mem =>
        obtain rfl : q = p := by simpa [Event.process] using hself
        have hwraps := h.wraps (hrec (by simp))
        have hcalls := h.tracks.calls
        obtain ⟨fn, hooked, rest, hframes, hcase⟩ :=
          (exitWrite_cases h.inv q returnValue mem).of_ok hs
        have hframes' : s'.frames q = rest := by
          rcases hcase with ⟨_, rfl⟩ | ⟨_, _, _, _, _, _, ⟨_, rfl⟩ | ⟨_, _, _, _, _, rfl⟩⟩ <;>
            exact frames_move_self
        rw [hframes] at hwraps hcalls
        obtain ⟨call, calls, hfirst, _, hsame⟩ := List.forall₂_cons_left_iff.1 hcalls
        rw [hsame, List.forall₂_cons] at hwraps
        cases hfirst with
        | write fn hooked regs =>
            have hpop : (t.advance (.exitWrite q returnValue mem)).calls = calls := by
              simp only [Trace.advance, Trace.exitWrite, hsame]
              split <;> rfl
            rw [hframes', hpop]
            exact hwraps.2
    | enterWrap q w regs mem allocated =>
        obtain rfl : q = p := by simpa [Event.process] using hself
        have hrec₀ := hrec (by simp)
        cases hs
        rw [Sys.enterWrap, frames_move_self]
        refine .cons ?_ (h.wraps hrec₀)
        rintro recorded region hrecorded hregion
        cases hrecorded
        cases hregion
        -- nothing turns the call away, so both are what `copy_from_user` reads
        obtain ⟨x, hx⟩ := h.inv.isSome_of_recording hrec₀
        simp [Kernel.preWrapSyscall, h.recorded hp, hx, he rfl, h.tracks.regs]
    | exitWrap q mem allocated allocs =>
        obtain rfl : q = p := by simpa [Event.process] using hself
        have hwraps := h.wraps (hrec (by simp))
        have hcalls := h.tracks.calls
        obtain ⟨recorded, rest, k', hframes, rfl, _⟩ :=
          (exitWrap_cases h.inv q mem allocated allocs).of_ok hs
        rw [hframes] at hwraps hcalls
        obtain ⟨call, calls, hfirst, _, hsame⟩ := List.forall₂_cons_left_iff.1 hcalls
        rw [hsame, List.forall₂_cons] at hwraps
        have hpop : (t.advance (.exitWrap q mem allocated allocs)).calls = calls := by
          cases hfirst with
          | wrapRejected region =>
              simp [Trace.advance, Trace.exitWrap, hsame]
          | wrap m =>
              simp [Trace.advance, Trace.exitWrap, hsame]
        rw [frames_move_self, hpop]
        exact hwraps.2
    | writeProc ppos count parsed =>
        simp [Event.process] at hself
    | read r =>
        simp [Event.process] at hself
  · rw [Trace.observe, if_neg hself, frames_other h.inv hself hs]
    apply h.wraps
    rcases recording_step h.inv hs hrec' with hrec | ⟨_, _, rfl, _⟩
    · exact hrec
    · exact absurd rfl hself

theorem Follows.step (hp : p ≠ 0) (h : Follows p s t) {e : Event} (he : s.Undisturbed p e) {s' : Sys}
    (hs : s.step e = .ok s') : Follows p s' (t.observe p e) := by
  have hfollow := h.hooksFollowOwner hp he
  have howner : ∀ q, s'.Recording q → q = p := by
    intro q hq
    rcases recording_step h.inv hs hq with hold | ⟨_, _, _, hrecorded⟩
    · exact h.owner q hold
    · exact h.eq_of_recorded hrecorded
  refine ⟨h.inv.step_ok hs, h.owned.step h.inv hfollow hs,
    h.tracks.step h.inv h.owned hfollow (h.wrapsRelate he) hs, ?_, howner, ?_, ?_, ?_⟩
  · -- the pid stays `p`
    rcases pid_step h.inv hs with hsame | ⟨ppos, count, parsed, rfl, hk⟩
    · exact hsame.trans h.pid
    · rw [hk]
      exact he
  · -- the wrappers go on seeing the regions of their calls
    exact h.wraps_step hp he hs
  · -- a syscall of `p` is recorded unless it never returns
    intro hooked hmem
    rcases mem_frames_step h.inv hs hmem with hold | hnew
    · have hentry : (t.observe p e).entry = t.entry := by
        apply observe_entry t
        rintro regs a rfl
        obtain ⟨hempty, _⟩ := (enterSyscall_cases s p regs a).of_ok hs
        simp [hempty] at hold
      rw [hentry]
      exact h.hooked hooked hold
    · generalize hf : Frame.syscall hooked = f at hnew
      cases hnew with
      | write _ =>
          cases hf
      | wrap =>
          cases hf
      | @syscall regs a hooked' hiff =>
          cases hf
          have hentry : (t.observe p (.enterSyscall p regs a)).entry = regs := by
            simp [Trace.observe, Event.process, Trace.advance]
          have hfree : s.kernel.currentSyscallRecord = none := by
            by_contra hopen
            have hrec := h.recording_of_isSome (Option.isSome_iff_ne_none.2 hopen)
            obtain ⟨hempty, _⟩ := (enterSyscall_cases s p regs a).of_ok hs
            simp [Recording, hempty] at hrec
          rw [hentry, hiff]
          simp [h.recorded hp, hfree, he rfl]
  · -- the log of the trace grows with the history
    by_cases hexit : ∃ regs, e = .exitSyscall p regs
    · obtain ⟨regs, rfl⟩ := hexit
      rw [Trace.observe, if_pos (by rfl)]
      exact h.exitSyscall (he rfl) hs
    · rw [observe_log t fun regs heq => hexit ⟨regs, heq⟩]
      rcases appended_step h.inv hs with hsame | ⟨q, regs, _, _, _, rfl, hframes, _⟩
      · exact hsame.trans h.appended
      · obtain rfl := h.owner q (by simp [Recording, hframes])
        exact absurd ⟨regs, rfl⟩ hexit

/-! ## Every run -/

theorem follows_run (hp : p ≠ 0) {taskPtRegs : Pid → PtRegs} {es : List Event}
    (hrun : run step (init p taskPtRegs) es = .ok s)
    (hquiet : AllSteps step (Undisturbed p) (init p taskPtRegs) es) :
    Follows p s (trace p (taskPtRegs p) es) :=
  run_preserves (Trace.observe p) (fun _ _ _ _ h he hs => h.step hp he hs)
    (follows_init p taskPtRegs) hquiet hrun

/-- Only `p` is inside hooks, and with its record open. -/
theorem Follows.step_error (h : Follows p s t) {e : Event} {f : Fault} (hs : s.step e = .error f) :
    f = .impossible := by
  rcases (h.inv.step e).of_error hs with himpossible | ⟨rfl, _⟩
  · exact himpossible
  · obtain ⟨hnone, q, hq⟩ := nullDeref_inHook h.inv hs
    obtain ⟨R, hR⟩ := h.inv.isSome_of_recording (h.owned q hq)
    rw [hnone] at hR
    cases hR

/-- An undisturbed run with the pid fixed to `p` stops at no fault, but at most where an event is no
behaviour of the kernel.  The records appended to the FIFO are the syscalls of `p` in program order, with
everything that `p` wrote, and every counter is right. -/
theorem appended_eq_log (hp : p ≠ 0) {taskPtRegs : Pid → PtRegs} {es : List Event}
    (hquiet : AllSteps step (Undisturbed p) (init p taskPtRegs) es) :
    (∀ f, run step (init p taskPtRegs) es = .error f → f = .impossible) ∧
      ∀ s, run step (init p taskPtRegs) es = .ok s →
        s.appended = (trace p (taskPtRegs p) es).log.map (TracedSyscall.record p) ∧
          ∀ R ∈ s.appended, R.amountOfCopies.toNat = R.copiesToUser.length := by
  constructor
  · intro f hrun
    exact run_stops (Q := (· = .impossible)) (Trace.observe p) (fun _ _ _ _ h he hs => h.step hp he hs)
      (fun _ _ _ _ h _ hs => h.step_error hs) (follows_init p taskPtRegs) hquiet hrun
  · intro s hrun
    exact ⟨(follows_run hp hrun hquiet).appended, fun R hR => (appended_sized hrun R hR).amount_eq⟩

/-- In a getdents64 of process 1 on one byte, which is wrapped, a copy of one byte uses a put_user; process
2 is in a syscall of its own all the while. -/
def nestedWrite : List Event :=
  [.enterSyscall 1 (PtRegs.set (fun _ => 0) .origRax 217) (some 16),
    .enterSyscall 2 (fun _ => 1) (some 48),
    .enterWrap 1 .getdents64 (PtRegs.set (PtRegs.set (fun _ => 0) .rsi 4096) .rdx 1) (fun _ => some 0) true,
    .enterWrite 1 .copyToUser (PtRegs.set (PtRegs.set (fun _ => 0) .rdi 4096) .rdx 1) (some 32),
    .enterWrite 1 .putUser1 (PtRegs.set (PtRegs.set (fun _ => 0) .rcx 4096) .rax 7) (some 64),
    .exitWrite 1 0 (fun _ => 7), .exitWrite 1 0 (fun _ => 7),
    .exitWrap 1 (fun _ => some 7) true [some 64], .exitSyscall 1 (PtRegs.set (fun _ => 0) .rax 1)]

/-- The record has the copy and the byte that the wrapper finds changed, and not the nested write. -/
theorem appended_eq_log_nestedWrite :
    ∃ s, run step (init 1 fun _ _ => 0) nestedWrite = .ok s ∧
      s.appended = (trace 1 (fun _ => 0) nestedWrite).log.map (TracedSyscall.record 1) ∧
        s.appended.map (fun R => R.copiesToUser.map CopyRecord.bytes) = [[[7], [7]]] := by
  obtain ⟨s, hrun, hbytes⟩ : ∃ s, run step (init 1 fun _ _ => 0) nestedWrite = .ok s ∧
      s.appended.map (fun R => R.copiesToUser.map CopyRecord.bytes) = [[[7], [7]]] := ⟨_, rfl, by decide⟩
  refine ⟨s, hrun, ((appended_eq_log (by decide) ?_).2 s hrun).1, hbytes⟩
  refine allSteps_cons rfl (fun _ => rfl) (allSteps_cons rfl (fun _ => rfl) (allSteps_cons rfl (fun _ => rfl)
    (allSteps_cons rfl (fun _ => rfl) (allSteps_cons rfl (fun _ => rfl) (allSteps_cons rfl trivial
      (allSteps_cons rfl trivial (allSteps_cons rfl (fun _ => ⟨rfl, ?_⟩)
        (allSteps_cons rfl (fun _ => ?_) trivial))))))))
  · -- the wrapper finds one byte changed and gets a block for it
    intro m rest hframes
    cases hframes
    decide
  · decide

end Sys

end RrPython
