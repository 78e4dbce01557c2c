import Mathlib.Data.Fintype.Card
import RrPython.Recorder.Steps

/-!
# Ownership — who holds which record, over every run

Every event keeps `Sys.Inv`, so it holds in every reachable state, and no hook frees or follows a
pointer to memory that is not allocated.
-/

namespace RrPython

open Foundation

namespace Sys

/-! ## Moving between stacks -/

theorem outermost_move {s : Sys} (h : s.Inv) (p : Pid) {fs : List Frame} (hfs : SyscallsOutermost fs)
    (k : Kernel) : ∀ q, SyscallsOutermost ((s.move p fs k).frames q) := by
  intro q
  by_cases hq : q = p
  · subst hq
    simpa [move] using hfs
  · simpa [move, hq] using h.outermost q

/-- The hooked writes that are left keep their pending copy. -/
theorem begun_move {s : Sys} (h : s.Inv) (p : Pid) {fs : List Frame}
    (hfs : ∀ fn, .write fn true ∈ fs → .write fn true ∈ s.frames p) {k : Kernel}
    (hk : s.kernel.KeepsCopy k) :
    ∀ q fn, .write fn true ∈ (s.move p fs k).frames q → Pending k fn := by
  intro q fn hmem
  by_cases hq : q = p
  · subst hq
    have hmem' : .write fn true ∈ fs := by
      simpa [move] using hmem
    exact (h.begun q fn (hfs fn hmem')).keeps hk
  · have hmem' : .write fn true ∈ s.frames q := by
      simpa [move, hq] using hmem
    exact (h.begun q fn hmem').keeps hk

/-- While no copy is pending no write is hooked. -/
theorem begun_of_none {frames : Pid → List Frame} {k : Kernel}
    (hcopy : Exclusive (k.currentCopy.isSome = true) (fun q => hookedWrites (frames q)))
    (hnone : k.currentCopy = none) : ∀ q fn, .write fn true ∈ frames q → Pending k fn := by
  intro q fn hmem
  have hheld := hcopy.held_of_pos (i := q) (hookedWrites_pos hmem)
  simp [hnone] at hheld

/-- A step that changes no count and neither of the two pointers. -/
theorem Inv.move_same {s : Sys} (h : s.Inv) {p : Pid} {fs : List Frame} {k : Kernel} (hk : k.Inv)
    (hrecord : k.currentSyscallRecord = s.kernel.currentSyscallRecord)
    (hcopy : s.kernel.KeepsCopy k) (hfs : SyscallsOutermost fs)
    (hsyscalls : hookedSyscalls fs = hookedSyscalls (s.frames p))
    (hwrites : hookedWrites fs = hookedWrites (s.frames p))
    (hsub : ∀ fn, .write fn true ∈ fs → .write fn true ∈ s.frames p) : (s.move p fs k).Inv :=
  ⟨hk, h.record.congr (by simp [move, hrecord]) (counts_update hsyscalls),
    h.copy.congr (by simp [move, hcopy.pointer]) (counts_update hwrites),
    outermost_move h p hfs k, begun_move h p hsub hcopy⟩

/-! ## One event -/

theorem keepsCopy_saveRegs (k : Kernel) (p : Pid) (regs : PtRegs) :
    k.KeepsCopy (k.saveRegs p regs) :=
  ⟨rfl, fun _ _ => rfl⟩

theorem Inv.enterSyscall {s : Sys} (h : s.Inv) (p : Pid) (regs : PtRegs) (a : Option Ptr) :
    Meets s.Stops Inv (s.enterSyscall p regs a) := by
  apply (enterSyscall_cases s p regs a).mono (fun f hf => Or.inl hf)
  rintro s' ⟨hframes, ⟨rfl, _⟩ | ⟨q, _, rfl, _, _, hopen, hq⟩⟩
  · -- `pre_syscall` answered 1: no lock is taken
    exact h.move_same (inv_saveRegs h.kernel p regs) rfl (keepsCopy_saveRegs s.kernel p regs)
      (by simp [SyscallsOutermost]) (by simp [hframes]) (by simp [hframes]) (by simp)
  · -- `pre_syscall` answered 0: the process takes the record lock, which was free
    obtain ⟨hk, hcopy, _⟩ := (inv_saveRegs h.kernel p regs).openRecord hq hopen p
    have hkeeps := (keepsCopy_saveRegs s.kernel p regs).trans hcopy
    refine ⟨hk, ?_, ?_, outermost_move h p (by simp [SyscallsOutermost]) _,
      begun_move h p (by simp) hkeeps⟩
    · refine h.record.acquire (by simp [hopen]) rfl p ?_ (counts_update_other s.frames _)
      simp [move, hframes]
    · exact h.copy.congr (by rw [← hkeeps.pointer]; rfl) (counts_update (by simp [hframes]))

theorem Inv.exitSyscall {s : Sys} (h : s.Inv) (p : Pid) (regs : PtRegs) :
    Meets s.Stops Inv (s.exitSyscall p regs) := by
  apply (exitSyscall_cases h p regs).mono (fun f hf => Or.inl hf)
  have hsaved := inv_saveRegs h.kernel p regs
  -- pushing and discarding both end with the record lock free
  have hrelease : ∀ {k : Kernel}, s.frames p = [.syscall true] → k.Inv →
      k.currentSyscallRecord = none → s.kernel.KeepsCopy k → (s.move p [] k).Inv := by
    intro k hframes hk hnone hcopy
    refine ⟨hk, ?_, ?_, outermost_move h p (show SyscallsOutermost [] from trivial) k,
      begun_move h p (by simp) hcopy⟩
    · refine h.record.release (by simp [move, hnone]) p ?_ (counts_update_other s.frames _)
      simp [move, hframes]
    · exact h.copy.congr (by simp [move, hcopy.pointer]) (counts_update (by simp [hframes]))
  rintro s' (⟨hframes, rfl⟩ | ⟨hframes, q, r, R, hopen, ⟨_, rfl⟩ | ⟨_, rfl⟩⟩)
  · -- the entry was not recorded
    exact h.move_same hsaved rfl (keepsCopy_saveRegs s.kernel p regs) trivial (by simp [hframes])
      (by simp [hframes]) (by simp)
  · -- the record is pushed
    obtain ⟨hk, hcopy⟩ := hsaved.pushRecord hopen.current hopen.block
    have hinv := hrelease hframes hk rfl ((keepsCopy_saveRegs s.kernel p regs).trans hcopy)
    exact ⟨hinv.kernel, hinv.record, hinv.copy, hinv.outermost, hinv.begun⟩
  · -- the FIFO is full and the record is discarded
    obtain ⟨hk, hcopy, _⟩ := hsaved.discardRecord hopen.current hopen.block
    exact hrelease hframes hk rfl ((keepsCopy_saveRegs s.kernel p regs).trans hcopy)

theorem outermost_cons {s : Sys} (h : s.Inv) (p : Pid) {f : Frame}
    (hf : ∀ hooked, f ≠ .syscall hooked) : SyscallsOutermost (f :: s.frames p) :=
  ⟨fun hooked heq => absurd heq (hf hooked), h.outermost p⟩

theorem outermost_tail {s : Sys} (h : s.Inv) {p : Pid} {f : Frame} {rest : List Frame}
    (hframes : s.frames p = f :: rest) : SyscallsOutermost rest := by
  have hout := h.outermost p
  rw [hframes] at hout
  exact hout.2

theorem Inv.enterWrite {s : Sys} (h : s.Inv) (p : Pid) (fn : ProbedFn) (regs : PtRegs)
    (a : Option Ptr) : Meets s.Stops Inv (s.enterWrite p fn regs a) := by
  apply (enterWrite_cases s p fn regs a).mono (fun f hf => Or.inl hf)
  rintro s' (⟨rfl, _⟩ | ⟨c, _, rfl, _, _, hnone, hc, hlen⟩)
  · -- turned away: no lock is taken
    exact h.move_same h.kernel rfl (Kernel.KeepsCopy.refl s.kernel) (outermost_cons h p (by simp))
      (by simp) (by simp) (by simp)
  · -- accepted: the process takes the copy lock, which was free
    obtain ⟨hk, hrecord, _⟩ := h.kernel.openCopy hc (fn.begun regs)
    refine ⟨hk, ?_, ?_, outermost_move h p (outermost_cons h p (by simp)) _, ?_⟩
    · exact h.record.congr (by rw [← hrecord.pointer]; rfl) (counts_update (by simp))
    · refine h.copy.acquire (by simp [hnone]) rfl p ?_ (counts_update_other s.frames _)
      simp [move]
    · intro q fn' hmem
      -- the lock was free, so the only hooked write is the new one
      have hold : ∀ q', .write fn' true ∉ s.frames q' := by
        intro q' hmem'
        have hheld := h.copy.held_of_pos (i := q') (hookedWrites_pos hmem')
        simp [hnone] at hheld
      by_cases hq : q = p
      · subst hq
        have hnew : fn' = fn := by
          simpa [move, hold q] using hmem
        subst hnew
        exact ⟨c, regs, rfl, Function.update_self .., hlen⟩
      · exact absurd (by simpa [move, hq] using hmem) (hold q)

theorem Inv.exitWrite {s : Sys} (h : s.Inv) (p : Pid) (returnValue : Word) (mem : KernelMem) :
    Meets s.Stops Inv (s.exitWrite p returnValue mem) := by
  apply (exitWrite_cases h p returnValue mem).mono (fun f hf => hf)
  -- freeing and appending the copy both end with the copy lock free
  have hrelease : ∀ {k : Kernel} {fn : ProbedFn} {rest : List Frame},
      s.frames p = .write fn true :: rest → k.Inv → k.currentCopy = none →
      k.currentSyscallRecord = s.kernel.currentSyscallRecord → (s.move p rest k).Inv := by
    intro k fn rest hframes hk hnone hrecord
    have hcopy : Exclusive (k.currentCopy.isSome = true)
        (fun q => hookedWrites ((s.move p rest k).frames q)) := by
      refine h.copy.release (by simp [hnone]) p ?_ (counts_update_other s.frames _)
      simp [move, hframes]
    exact ⟨hk, h.record.congr (by simp [move, hrecord]) (counts_update (by simp [hframes])), hcopy,
      outermost_move h p (outermost_tail h hframes) k, begun_of_none hcopy hnone⟩
  rintro s' ⟨fn, hooked, rest, hframes, ⟨rfl, rfl⟩ | ⟨rfl, c, regs, hcopy, hc, hlen, hret⟩⟩
  · -- the entry was turned away
    exact h.move_same h.kernel rfl (Kernel.KeepsCopy.refl s.kernel) (outermost_tail h hframes)
      (by simp [hframes]) (by simp [hframes]) (by simp [hframes])
  · rcases hret with ⟨_, rfl⟩ | ⟨_, q, r, R, hopen, rfl⟩
    · exact hrelease hframes (h.kernel.dropCopy hcopy).1 rfl rfl
    · exact hrelease hframes
        (h.kernel.takeCopy hopen.current hopen.block hcopy (fn.ended_sized mem hlen)) rfl rfl

theorem Inv.enterWrap {s : Sys} (h : s.Inv) (p : Pid) (w : SyscallWrapper) (regs : PtRegs)
    (mem : UserMem) (allocated : Bool) : (s.enterWrap p w regs mem allocated).Inv :=
  h.move_same h.kernel rfl (Kernel.KeepsCopy.refl s.kernel) (outermost_cons h p (by simp)) (by simp)
    (by simp) (by simp)

theorem Inv.exitWrap {s : Sys} (h : s.Inv) (p : Pid) (mem : UserMem) (allocated : Bool)
    (allocs : List (Option Ptr)) : Meets s.Stops Inv (s.exitWrap p mem allocated allocs) := by
  apply (exitWrap_cases h p mem allocated allocs).mono (fun f hf => hf)
  rintro s' ⟨recorded, rest, k', hframes, rfl, hw⟩
  exact h.move_same hw.inv hw.current hw.copy (outermost_tail h hframes) (by simp [hframes])
    (by simp [hframes]) (by simp [hframes])

theorem Inv.writePid {s : Sys} (h : s.Inv) (ppos : Int) (count : Nat) (parsed : Option Int) :
    (s.writePid ppos count parsed).Inv := by
  rcases writeProc_eq s.kernel ppos count parsed with heq | ⟨pid, _, heq⟩
  · simpa [Sys.writePid, heq] using h
  · unfold Sys.writePid
    rw [heq]
    -- the locks do not depend on the pid
    exact ⟨h.kernel.of_same rfl rfl rfl rfl, h.record, h.copy, h.outermost, fun p fn hmem =>
      (h.begun p fn hmem).keeps ⟨rfl, fun _ _ => rfl⟩⟩

theorem Inv.read {s : Sys} (h : s.Inv) (r : ReadArgs) : Meets s.Stops Inv (s.read r) := by
  apply (read_cases h r).mono (fun f hf => Or.inl hf)
  rintro s' ⟨k', u, n, _, _, rfl, hk, hcopy, hrecord, _, _⟩
  refine ⟨hk, ?_, ?_, h.outermost, fun p fn hmem => (h.begun p fn hmem).keeps hcopy⟩
  · exact h.record.congr (by rw [← hrecord.pointer]) fun _ => rfl
  · exact h.copy.congr (by rw [← hcopy.pointer]) fun _ => rfl

theorem Inv.step {s : Sys} (h : s.Inv) (e : Event) : Meets s.Stops Inv (s.step e) := by
  cases e with
  | enterSyscall p regs a =>
      exact h.enterSyscall p regs a
  | exitSyscall p regs =>
      exact h.exitSyscall p regs
  | enterWrite p fn regs a =>
      exact h.enterWrite p fn regs a
  | exitWrite p returnValue mem =>
      exact h.exitWrite p returnValue mem
  | enterWrap p w regs mem allocated =>
      exact h.enterWrap p w regs mem allocated
  | exitWrap p mem allocated allocs =>
      exact h.exitWrap p mem allocated allocs
  | writeProc ppos count parsed =>
      exact h.writePid ppos count parsed
  | read r =>
      exact h.read r

theorem Inv.step_ok {s s' : Sys} (h : s.Inv) {e : Event} (hs : s.step e = .ok s') : s'.Inv :=
  (h.step e).of_ok hs

/-! ## Every run -/

/-- In every reachable state the invariant holds, and a run stops only at no behaviour of the kernel
or at the dereference of a `NULL` record. -/
theorem inv_run (pid : Int) (taskPtRegs : Pid → PtRegs) (es : List Event) :
    Meets (fun f => f = .impossible ∨ f = .nullDeref) Inv (run step (init pid taskPtRegs) es) := by
  refine Meets.run ?_ (inv_init pid taskPtRegs) es
  intro s e h
  refine (h.step e).mono ?_ fun s' hs' => hs'
  rintro f (hf | ⟨hf, _⟩)
  · exact Or.inl hf
  · exact Or.inr hf

/-- The list of a record has fewer elements than there are addresses, so its counter has not
wrapped. -/
theorem amount_toNat {heap : Heap} (h : HeapOk heap) {p : Ptr} {r : SyscallRecord Ptr}
    (hr : heap p = some (.syscallRecord r)) : r.amountOfCopies.toNat = r.copiesToUser.length := by
  have hself : p ∉ r.copiesToUser := h.unlisted_of_record hr p r hr
  have hnodup : (p :: r.copiesToUser).Nodup := List.nodup_cons.2 ⟨hself, h.nodup hr⟩
  -- distinct addresses are at most `2 ^ 64`, and the record has one of its own
  have hlt : r.copiesToUser.length < 2 ^ 64 := by
    have hinj : Function.Injective (BitVec.toFin : Ptr → Fin (2 ^ 64)) :=
      fun x y hxy => BitVec.eq_of_toFin_eq hxy
    have hcard := (hnodup.map hinj).length_le_card
    rw [Fintype.card_fin, List.length_map, List.length_cons] at hcard
    omega
  rw [h.amount hr, BitVec.toNat_ofNat, Nat.mod_eq_of_lt hlt]

/-- Every copy of a record read out of the heap is one of the listed blocks. -/
theorem mem_mapM_heapCopy {heap : Heap} {cs : List Ptr} {ds : List CopyRecord}
    (h : cs.mapM (heapCopy heap) = some ds) {d : CopyRecord} (hd : d ∈ ds) :
    ∃ c ∈ cs, heap c = some (.copyRecord d) := by
  induction cs generalizing ds with
  | nil =>
      simp at h
      simp [h] at hd
  | cons c cs ih =>
      simp only [List.mapM_cons, Option.bind_eq_bind, Option.bind_eq_some_iff, Option.pure_def,
        Option.some.injEq] at h
      obtain ⟨d₀, hd₀, ds₀, hds₀, rfl⟩ := h
      rcases List.mem_cons.1 hd with rfl | hd
      · refine ⟨c, List.mem_cons_self, ?_⟩
        unfold heapCopy at hd₀
        split at hd₀
        · rename_i x hx
          rw [hx]
          simpa using hd₀
        · cases hd₀
      · obtain ⟨x, hx, hblock⟩ := ih hds₀ hd
        exact ⟨x, List.mem_cons_of_mem c hx, hblock⟩

/-- A record read out of the heap counts its copies, and they their bytes. -/
theorem heapRecord_sized {heap : Heap} (h : HeapOk heap) {p : Ptr} {R : Record}
    (hR : heapRecord heap p = some R) : Record.Sized R := by
  obtain ⟨r, hr, hcs, hRr⟩ := heapRecord_some hR
  have hlen : R.copiesToUser.length = r.copiesToUser.length := by
    obtain ⟨cs, hcs', hlen⟩ := mapM_heapCopy_isSome fun c hc => h.element hr hc
    rw [hcs] at hcs'
    cases hcs'
    exact hlen
  have hamount : R.amountOfCopies = r.amountOfCopies := by
    rw [hRr]
  refine ⟨?_, ?_⟩
  · rw [hamount, hlen]
    exact amount_toNat h hr
  · intro d hd
    obtain ⟨c, hc, hblock⟩ := mem_mapM_heapCopy hcs hd
    exact h.sized hr hc hblock

/-- Only a `post_syscall` that pushes its record changes the history. -/
theorem appended_step {s s' : Sys} (h : s.Inv) {e : Event} (hs : s.step e = .ok s') :
    s'.appended = s.appended ∨
      ∃ p regs q r R, e = .exitSyscall p regs ∧ s.frames p = [.syscall true] ∧
        Open s.kernel q r R ∧
        s'.appended = s.appended ++ [completedValue (s.kernel.saveRegs p regs) R] := by
  cases e with
  | enterSyscall p regs a =>
      obtain ⟨_, ⟨rfl, _⟩ | ⟨_, _, rfl, _⟩⟩ := (enterSyscall_cases s p regs a).of_ok hs <;>
        exact Or.inl rfl
  | exitSyscall p regs =>
      rcases (exitSyscall_cases h p regs).of_ok hs with
        ⟨_, rfl⟩ | ⟨hframes, q, r, R, hopen, ⟨_, rfl⟩ | ⟨_, rfl⟩⟩
      · exact Or.inl rfl
      · exact Or.inr ⟨p, regs, q, r, R, rfl, hframes, hopen, rfl⟩
      · exact Or.inl rfl
  | enterWrite p fn regs a =>
      rcases (enterWrite_cases s p fn regs a).of_ok hs with ⟨rfl, _⟩ | ⟨_, _, rfl, _⟩ <;>
        exact Or.inl rfl
  | exitWrite p returnValue mem =>
      obtain ⟨_, _, _, _, ⟨_, rfl⟩ | ⟨_, _, _, _, _, _, ⟨_, rfl⟩ | ⟨_, _, _, _, _, rfl⟩⟩⟩ :=
        (exitWrite_cases h p returnValue mem).of_ok hs <;> exact Or.inl rfl
  | enterWrap p w regs mem allocated =>
      cases hs
      exact Or.inl rfl
  | exitWrap p mem allocated allocs =>
      obtain ⟨_, _, _, _, rfl, _⟩ := (exitWrap_cases h p mem allocated allocs).of_ok hs
      exact Or.inl rfl
  | writeProc ppos count parsed =>
      cases hs
      exact Or.inl rfl
  | read r =>
      obtain ⟨_, _, _, _, _, rfl, _⟩ := (read_cases h r).of_ok hs
      exact Or.inl rfl

/-- Every record that was ever pushed counts its copies, and they their bytes. -/
theorem appended_sized_step {s s' : Sys} (h : s.Inv) (hsized : ∀ R ∈ s.appended, Record.Sized R)
    {e : Event} (hs : s.step e = .ok s') : ∀ R ∈ s'.appended, Record.Sized R := by
  rcases appended_step h hs with hsame | ⟨_, _, _, _, R, _, _, hopen, hpush⟩
  · rw [hsame]
    exact hsized
  · intro R' hR'
    rw [hpush] at hR'
    rcases List.mem_append.1 hR' with hold | hnew
    · exact hsized R' hold
    · -- completing a record changes neither its counter nor its copies
      obtain ⟨hamount, hcopies⟩ := heapRecord_sized h.kernel.heap hopen.value
      rw [List.mem_singleton.1 hnew]
      exact ⟨hamount, hcopies⟩

theorem appended_sized {pid : Int} {taskPtRegs : Pid → PtRegs} {es : List Event} {s : Sys}
    (hrun : run step (init pid taskPtRegs) es = .ok s) : ∀ R ∈ s.appended, Record.Sized R := by
  have hboth : s.Inv ∧ ∀ R ∈ s.appended, Record.Sized R :=
    run_invariant (I := fun s => s.Inv ∧ ∀ R ∈ s.appended, Record.Sized R)
      (fun s e s' h hs => ⟨h.1.step_ok hs, appended_sized_step h.1 h.2 hs⟩)
      ⟨inv_init pid taskPtRegs, by simp [init]⟩ hrun
  exact hboth.2

/-- Who owns what, in the terms of the source. -/
structure Ownership (s : Sys) : Prop where
  /-- `current_syscall_record` is set exactly while a process is inside a recorded syscall. -/
  current_iff : s.kernel.currentSyscallRecord.isSome ↔ ∃ p, s.Recording p
  /-- That is one process. -/
  single : ∀ p q, s.Recording p → s.Recording q → p = q
  /-- The records of the FIFO and the open one are pairwise distinct. -/
  distinct : (s.kernel.recordedSyscalls ++ s.kernel.currentSyscallRecord.toList).Nodup
  /-- None of them has been freed. -/
  allocated : ∀ p ∈ s.kernel.recordedSyscalls ++ s.kernel.currentSyscallRecord.toList,
    ∃ r, s.kernel.heap p = some (.syscallRecord r)
  /-- A copy is in one record's list at most, and there once. -/
  elements : ∀ p r, s.kernel.heap p = some (.syscallRecord r) → r.copiesToUser.Nodup ∧
    ∀ q t c, s.kernel.heap q = some (.syscallRecord t) → c ∈ r.copiesToUser →
      c ∈ t.copiesToUser → p = q
  amount : ∀ p r, s.kernel.heap p = some (.syscallRecord r) →
    r.amountOfCopies.toNat = r.copiesToUser.length

theorem Inv.ownership {s : Sys} (h : s.Inv) : s.Ownership := by
  refine ⟨?_, fun p q hp hq => h.recording_unique hp hq, h.kernel.nodup, h.kernel.live, ?_,
    fun p r hr => amount_toNat h.kernel.heap hr⟩
  · constructor
    · intro hsome
      obtain ⟨p, hp, _⟩ := h.record.holder hsome
      exact ⟨p, hookedSyscalls_pos.1 (by omega)⟩
    · rintro ⟨p, hp⟩
      exact h.record.held_of_pos (i := p) (hookedSyscalls_pos.2 hp)
  · intro p r hr
    exact ⟨h.kernel.heap.nodup hr, fun q t c ht hc hc' => h.kernel.heap.owner hr ht hc hc'⟩

/-- Every reachable state meets `Ownership`.  No run stops because a hook freed memory a second time
or followed a pointer to freed memory. -/
theorem ownership_reachable (pid : Int) (taskPtRegs : Pid → PtRegs) (es : List Event) :
    Meets (fun f => f = .impossible ∨ f = .nullDeref) Ownership
      (run step (init pid taskPtRegs) es) :=
  (inv_run pid taskPtRegs es).mono (fun _ hf => hf) fun _ hs => hs.ownership

end Sys

end RrPython
