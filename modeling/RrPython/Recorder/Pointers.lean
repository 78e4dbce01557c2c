import RrPython.Recorder.Leaks
import RrPython.Recorder.Values

/-!
# Pointers — what the pointers of the module stand for

`Stands k v lost` relates the module to the value state: following its pointers gives the records of the
value state, and the records at `lost` are those that reads have lost.  Each update of the hooks keeps
it, with the update of the value that it stands for.
-/

namespace RrPython

open Foundation

structure Stands (k : Kernel) (v : ValueSys) (lost : List Ptr) : Prop where
  inv : (k.withLost lost).Inv
  covered : (k.withLost lost).Covered
  lostValues : lost.map (heapRecord k.heap) = (v.withFate .lost).map some
  queue : k.recordedSyscalls.map (heapRecord k.heap) = v.recordedSyscalls.map some
  record : v.currentSyscallRecord = k.currentSyscallRecord.bind (heapRecord k.heap)
  copy : v.currentCopy = k.currentCopy.bind (heapCopy k.heap)
  pid : v.recordedProcessPid = k.recordedProcessPid
  regs : v.taskPtRegs = k.taskPtRegs

namespace Stands

variable {k k' : Kernel} {v : ValueSys} {lost : List Ptr}

/-! ## Reading the relation -/

theorem notRecorded_iff (h : Stands k v lost) (current : Pid) :
    v.notRecorded current ↔ k.notRecorded current := by
  simp [ValueSys.notRecorded, Kernel.notRecorded, h.pid]

theorem length_queue (h : Stands k v lost) :
    v.recordedSyscalls.length = k.recordedSyscalls.length := by
  simpa using (congrArg List.length h.queue).symm

theorem queued_eq (h : Stands k v lost) : k.queued = v.recordedSyscalls := by
  have hmap : k.queued = (k.recordedSyscalls.map (heapRecord k.heap)).filterMap id := by
    rw [List.filterMap_map]
    rfl
  rw [hmap, h.queue, List.filterMap_map]
  simp

theorem isSome_record (h : Stands k v lost) :
    v.currentSyscallRecord.isSome = k.currentSyscallRecord.isSome := by
  rw [h.record]
  cases hopen : k.currentSyscallRecord with
  | none =>
      rfl
  | some p =>
      obtain ⟨r, hr⟩ := h.inv.of_withLost.current_live hopen
      obtain ⟨cs, _, _, hR⟩ := h.inv.heap.heapRecord_eq hr
      have hvalue : heapRecord k.heap p = some { r with copiesToUser := cs } := hR
      simp [hvalue]

theorem isNone_record (h : Stands k v lost) :
    v.currentSyscallRecord = none ↔ k.currentSyscallRecord = none := by
  rw [← Option.isNone_iff_eq_none, ← Option.isNone_iff_eq_none, ← Option.not_isSome,
    ← Option.not_isSome, h.isSome_record]

theorem copy_eq (h : Stands k v lost) {c : Ptr} {d : CopyRecord} (hc : k.currentCopy = some c)
    (hd : k.heap c = some (.copyRecord d)) : v.currentCopy = some d := by
  simp [h.copy, hc, heapCopy, hd]

theorem isSome_copy (h : Stands k v lost) : v.currentCopy.isSome = k.currentCopy.isSome := by
  rw [h.copy]
  cases hcopy : k.currentCopy with
  | none =>
      rfl
  | some c =>
      obtain ⟨⟨d, hd⟩, _⟩ := h.inv.copy c hcopy
      have hblock : k.heap c = some (.copyRecord d) := hd
      simp [heapCopy, hblock]

theorem record_eq (h : Stands k v lost) {p : Ptr} {R : Record}
    (hopen : k.currentSyscallRecord = some p) (hR : heapRecord k.heap p = some R) :
    v.currentSyscallRecord = some R := by
  simp [h.record, hopen, hR]

theorem bind_heapRecord (hr : k.KeepsRecord k') :
    k'.currentSyscallRecord.bind (heapRecord k'.heap) =
      k.currentSyscallRecord.bind (heapRecord k.heap) := by
  rw [hr.pointer]
  cases hopen : k.currentSyscallRecord with
  | none =>
      rfl
  | some p =>
      exact hr.value p hopen

theorem bind_heapCopy (hc : k.KeepsCopy k') :
    k'.currentCopy.bind (heapCopy k'.heap) = k.currentCopy.bind (heapCopy k.heap) := by
  rw [hc.pointer]
  cases hcopy : k.currentCopy with
  | none =>
      rfl
  | some c =>
      simp [heapCopy, hc.block c hcopy]

/-- The lost records and the queued ones read as before if they all do so in front of the FIFO. -/
theorem values_of_keepsQueue (h : Stands k v lost) (k' : Kernel) (v' : ValueSys)
    (hq : (k.withLost lost).KeepsQueue (k'.withLost lost))
    (hfifo : k'.recordedSyscalls = k.recordedSyscalls) (htaken : v'.taken = v.taken)
    (hqueue : v'.recordedSyscalls = v.recordedSyscalls) :
    lost.map (heapRecord k'.heap) = (v'.withFate .lost).map some ∧
      k'.recordedSyscalls.map (heapRecord k'.heap) = v'.recordedSyscalls.map some := by
  have hvalues : ∀ p ∈ lost ++ k.recordedSyscalls, heapRecord k'.heap p = heapRecord k.heap p :=
    hq.values
  constructor
  · rw [ValueSys.withFate, htaken, ← ValueSys.withFate, ← h.lostValues]
    exact List.map_congr_left fun p hp => hvalues p (List.mem_append_left _ hp)
  · rw [hqueue, ← h.queue, hfifo]
    exact List.map_congr_left fun p hp => hvalues p (List.mem_append_right _ hp)

/-! ## The updates of the hooks -/

theorem init (pid : Int) (taskPtRegs : Pid → PtRegs) :
    Stands (Sys.init pid taskPtRegs).kernel (ValueSys.init pid taskPtRegs) [] where
  inv := (Sys.inv_init pid taskPtRegs).kernel
  covered := by
    intro x hx
    cases hx
  lostValues := rfl
  queue := rfl
  record := rfl
  copy := rfl
  pid := rfl
  regs := rfl

theorem setFrames (h : Stands k v lost) (p : Pid) (fs : List Frame) :
    Stands k (v.setFrames p fs) lost :=
  ⟨h.inv, h.covered, h.lostValues, h.queue, h.record, h.copy, h.pid, h.regs⟩

theorem setReads (h : Stands k v lost) (reads : List (Int × List Byte)) :
    Stands k { v with reads } lost :=
  ⟨h.inv, h.covered, h.lostValues, h.queue, h.record, h.copy, h.pid, h.regs⟩

theorem saveRegs (h : Stands k v lost) (p : Pid) (regs : PtRegs) :
    Stands (k.saveRegs p regs) (v.saveRegs p regs) lost where
  inv := Sys.inv_saveRegs h.inv p regs
  covered := h.covered
  lostValues := h.lostValues
  queue := h.queue
  record := h.record
  copy := h.copy
  pid := h.pid
  regs := by
    simp [ValueSys.saveRegs, Kernel.saveRegs, h.regs]

theorem setPid (h : Stands k v lost) (pid : Int) :
    Stands { k with recordedProcessPid := pid } { v with recordedProcessPid := pid } lost where
  inv := h.inv.of_same rfl rfl rfl rfl
  covered := h.covered
  lostValues := h.lostValues
  queue := h.queue
  record := h.record
  copy := h.copy
  pid := rfl
  regs := h.regs

theorem openRecord (h : Stands k v lost) {q : Ptr} (hopen : k.currentSyscallRecord = none)
    (hq : k.heap q = none) (p : Pid) :
    Stands (k.openRecord q (k.newRecord p)) { v with currentSyscallRecord := some (v.freshRecord p) }
      lost := by
  obtain ⟨hinv, hcopy, hqueue⟩ := Kernel.Inv.openRecord (a := q) h.inv hq hopen p
  obtain ⟨hlost, hqueued⟩ := h.values_of_keepsQueue (k.openRecord q (k.newRecord p))
    { v with currentSyscallRecord := some (v.freshRecord p) } hqueue rfl rfl rfl
  refine ⟨hinv, h.covered.openRecord hopen hq p, hlost, hqueued, ?_, ?_, h.pid, h.regs⟩
  · have hvalue := k.openRecord_value q p
    simp only [ValueSys.freshRecord, h.regs]
    exact hvalue.symm
  · have hkeeps : k.KeepsCopy (k.openRecord q (k.newRecord p)) := ⟨hcopy.pointer, hcopy.block⟩
    exact h.copy.trans (bind_heapCopy hkeeps).symm

theorem openCopy (h : Stands k v lost) {c : Ptr} (hnone : k.currentCopy = none)
    (hc : k.heap c = none) (d : CopyRecord) :
    Stands (k.openCopy c d) { v with currentCopy := some d } lost := by
  obtain ⟨hinv, hrecord, hqueue⟩ := Kernel.Inv.openCopy (a := c) h.inv hc d
  obtain ⟨hlost, hqueued⟩ := h.values_of_keepsQueue (k.openCopy c d) { v with currentCopy := some d }
    hqueue rfl rfl rfl
  refine ⟨hinv, h.covered.openCopy hnone hc, hlost, hqueued, ?_, ?_, h.pid, h.regs⟩
  · have hkeeps : k.KeepsRecord (k.openCopy c d) := ⟨hrecord.pointer, hrecord.value⟩
    exact h.record.trans (bind_heapRecord hkeeps).symm
  · simp [Kernel.openCopy, heapCopy]

theorem dropCopy (h : Stands k v lost) {c : Ptr} (hcopy : k.currentCopy = some c) :
    Stands (k.dropCopy c) { v with currentCopy := none } lost := by
  obtain ⟨hinv, hrecord, hqueue⟩ := h.inv.dropCopy hcopy
  obtain ⟨hlost, hqueued⟩ := h.values_of_keepsQueue (k.dropCopy c) { v with currentCopy := none }
    hqueue rfl rfl rfl
  refine ⟨hinv, h.covered.dropCopy h.inv hcopy, hlost, hqueued, ?_, rfl, h.pid, h.regs⟩
  have hkeeps : k.KeepsRecord (k.dropCopy c) := ⟨hrecord.pointer, hrecord.value⟩
  exact h.record.trans (bind_heapRecord hkeeps).symm

theorem takeCopy (h : Stands k v lost) {p c : Ptr} {r : SyscallRecord Ptr} {R : Record}
    {d : CopyRecord} (hopen : k.currentSyscallRecord = some p)
    (hr : k.heap p = some (.syscallRecord r)) (hR : heapRecord k.heap p = some R)
    (hcopy : k.currentCopy = some c) (hd : d.Sized) :
    Stands { k.appendCopy p r c d with currentCopy := none }
      { v with currentCopy := none, currentSyscallRecord := some (SyscallRecord.addTail R d) }
      lost := by
  obtain ⟨⟨e, he⟩, hun⟩ := h.inv.copy c hcopy
  have hold : ∀ s, k.heap c ≠ some (.syscallRecord s) := by
    have hblock : k.heap c = some (.copyRecord e) := he
    simp [hblock]
  obtain ⟨_, _, hvalue, hqueue⟩ := h.inv.appendCopy hopen hr hold hun hd
  obtain ⟨hlost, hqueued⟩ := h.values_of_keepsQueue (k.appendCopy p r c d)
    { v with currentCopy := none, currentSyscallRecord := some (SyscallRecord.addTail R d) }
    hqueue rfl rfl rfl
  refine ⟨h.inv.takeCopy hopen hr hcopy hd, h.covered.takeCopy h.inv hopen hr hcopy, hlost,
    hqueued, ?_, rfl, h.pid, h.regs⟩
  have hvalue' : heapRecord (k.appendCopy p r c d).heap p = some (SyscallRecord.addTail R d) :=
    hvalue R hR
  have hcurrent : (k.appendCopy p r c d).currentSyscallRecord = some p := hopen
  simp [hcurrent, hvalue']

theorem appendFresh (h : Stands k v lost) {p c : Ptr} {r : SyscallRecord Ptr} {R : Record}
    {d : CopyRecord} (hopen : k.currentSyscallRecord = some p)
    (hr : k.heap p = some (.syscallRecord r)) (hR : heapRecord k.heap p = some R)
    (hc : k.heap c = none) (hd : d.Sized) :
    Stands (k.appendCopy p r c d)
      { v with currentSyscallRecord := some (SyscallRecord.addTail R d) } lost := by
  have hold : ∀ s, k.heap c ≠ some (.syscallRecord s) := by
    simp [hc]
  obtain ⟨_, _, hvalue, hqueue⟩ :=
    h.inv.appendCopy hopen hr hold (h.inv.heap.unlisted_of_free hc) hd
  obtain ⟨hinv, hcopy⟩ := Kernel.Inv.appendFresh (c := c) h.inv hopen hr hc hd
  obtain ⟨hlost, hqueued⟩ := h.values_of_keepsQueue (k.appendCopy p r c d)
    { v with currentSyscallRecord := some (SyscallRecord.addTail R d) } hqueue rfl rfl rfl
  refine ⟨hinv, h.covered.appendFresh hopen hr hc, hlost, hqueued, ?_, ?_, h.pid, h.regs⟩
  · have hvalue' : heapRecord (k.appendCopy p r c d).heap p = some (SyscallRecord.addTail R d) :=
      hvalue R hR
    have hcurrent : (k.appendCopy p r c d).currentSyscallRecord = some p := hopen
    simp [hcurrent, hvalue']
  · have hkeeps : k.KeepsCopy (k.appendCopy p r c d) := ⟨hcopy.pointer, hcopy.block⟩
    exact h.copy.trans (bind_heapCopy hkeeps).symm

/-! ### The end of a syscall -/

theorem withLost_pushRecord (p : Ptr) (r : SyscallRecord Ptr) :
    (k.pushRecord p r).withLost lost = (k.withLost lost).pushRecord p r := by
  simp [Kernel.withLost, Kernel.pushRecord, Kernel.completed]

theorem hasRoom_iff (h : Stands k v lost) :
    sizeofPtr * v.recordedSyscalls.length + sizeofPtr ≤ syscallFifoSize ↔ k.hasRoom := by
  rw [h.length_queue]
  rfl

theorem pushRecord (h : Stands k v lost) {p : Ptr} {r : SyscallRecord Ptr} {R : Record}
    (hopen : k.currentSyscallRecord = some p) (hr : k.heap p = some (.syscallRecord r))
    (hR : heapRecord k.heap p = some R) (hroom : k.hasRoom) :
    Stands (k.pushRecord p r) (v.finishRecord R) lost := by
  obtain ⟨hinv, hcopy⟩ := h.inv.pushRecord hopen hr
  rw [← withLost_pushRecord] at hinv hcopy
  -- the other records are not the one that is pushed, so they read as before
  have hother : ∀ q ∈ lost ++ k.recordedSyscalls,
      heapRecord (k.pushRecord p r).heap q = heapRecord k.heap q := by
    intro q hq
    obtain ⟨s, hs⟩ := h.inv.live q (Kernel.Inv.mem_owned hq)
    have hqp : q ≠ p := by
      rintro rfl
      exact h.inv.current_not_queued hopen hq
    exact h.inv.of_withLost.pushRecord_other hr hqp hs
  have hnew : heapRecord (k.pushRecord p r).heap p =
      some { R with ret := v.taskPtRegs R.userspaceRegsPtr .rax } := by
    rw [h.regs]
    exact h.inv.of_withLost.pushRecord_value hr hR
  have hcovered : ((k.pushRecord p r).withLost lost).Covered := by
    rw [withLost_pushRecord]
    exact h.covered.pushRecord hopen hr
  refine ⟨hinv, hcovered, ?_, ?_, rfl, ?_, h.pid, h.regs⟩
  · refine Eq.trans ?_ h.lostValues
    exact List.map_congr_left fun q hq => hother q (List.mem_append_left _ hq)
  · have hfifo : (k.pushRecord p r).recordedSyscalls = k.recordedSyscalls ++ [p] := rfl
    have hqueue : k.recordedSyscalls.map (heapRecord (k.pushRecord p r).heap) =
        v.recordedSyscalls.map some :=
      (List.map_congr_left fun q hq => hother q (List.mem_append_right _ hq)).trans h.queue
    simp only [ValueSys.finishRecord, if_pos (h.hasRoom_iff.2 hroom), hfifo, List.map_append, hqueue,
      List.map_cons, List.map_nil, hnew]
  · have hkeeps : k.KeepsCopy (k.pushRecord p r) := ⟨hcopy.pointer, hcopy.block⟩
    exact h.copy.trans (bind_heapCopy hkeeps).symm

theorem discardRecord (h : Stands k v lost) {p : Ptr} {r : SyscallRecord Ptr} (R : Record)
    (hopen : k.currentSyscallRecord = some p) (hr : k.heap p = some (.syscallRecord r))
    (hroom : ¬k.hasRoom) : Stands (k.discardRecord p r) (v.finishRecord R) lost := by
  obtain ⟨hinv, hcopy, hqueue⟩ := h.inv.discardRecord hopen hr
  have hleft : (v.finishRecord R).recordedSyscalls = v.recordedSyscalls :=
    if_neg fun hle => hroom (h.hasRoom_iff.1 hle)
  obtain ⟨hlost, hqueued⟩ := h.values_of_keepsQueue (k.discardRecord p r) (v.finishRecord R)
    hqueue rfl rfl hleft
  refine ⟨hinv, h.covered.discardRecord h.inv hopen hr, hlost, hqueued, rfl, ?_, h.pid, h.regs⟩
  have hkeeps : k.KeepsCopy (k.discardRecord p r) := ⟨hcopy.pointer, hcopy.block⟩
  exact h.copy.trans (bind_heapCopy hkeeps).symm

/-! ### The wrappers -/

/-- The value state with the copies `cs` appended to its open record, if it has one. -/
def appendAll (v : ValueSys) (cs : List CopyRecord) : ValueSys :=
  { v with
    currentSyscallRecord := v.currentSyscallRecord.map fun R => cs.foldl SyscallRecord.addTail R }

theorem appendAll_nil (v : ValueSys) : appendAll v [] = v := by
  simp [appendAll]

theorem appendAll_append (v : ValueSys) (cs : List CopyRecord) (d : CopyRecord) :
    appendAll v (cs ++ [d]) = { appendAll v cs with
      currentSyscallRecord :=
        (appendAll v cs).currentSyscallRecord.map fun R => SyscallRecord.addTail R d } := by
  simp [appendAll, Function.comp_def]

theorem wrapLoop_nil (ptr : Word) (olds : List Byte) :
    ∀ (i : Nat) (news : List Byte) (allocs : List (Option Ptr)) (k : Kernel),
      (byteDiffs ptr i olds news).take (granted allocs) = [] →
      Kernel.wrapLoop ptr i olds news allocs k = .ok k := by
  induction olds with
  | nil =>
      intro i news allocs k _
      cases news <;> rfl
  | cons old olds ih =>
      intro i news allocs k hnil
      cases news with
      | nil =>
          rfl
      | cons new news =>
          by_cases hsame : old = new
          · subst hsame
            rw [Kernel.wrapLoop_same]
            exact ih (i + 1) news allocs k (by simpa [byteDiffs] using hnil)
          · -- the first difference is only passed over if there is no memory for it
            cases allocs with
            | nil =>
                simp [Kernel.wrapLoop, hsame]
            | cons a allocs =>
                cases a with
                | none =>
                    simp [Kernel.wrapLoop, hsame]
                | some c =>
                    simp [byteDiffs, hsame, granted] at hnil

theorem postWrapSyscall_nil {recorded : SyscallRecordedMem} {mem : UserMem} {allocated : Bool}
    {allocs : List (Option Ptr)} (hnil : wrapCopies (some recorded) mem allocated allocs = []) :
    k.postWrapSyscall recorded mem allocated allocs = .ok k := by
  unfold Kernel.postWrapSyscall
  cases allocated with
  | false =>
      rfl
  | true =>
      cases hread : mem.copyFromUser recorded.ptr recorded.len.toNat with
      | none =>
          rfl
      | some newMem =>
          exact wrapLoop_nil recorded.ptr recorded.mem 0 newMem allocs k
            (by simpa [wrapCopies, hread] using hnil)

theorem postWrapSyscall (h : Stands k v lost) (recorded : SyscallRecordedMem) (mem : UserMem)
    (allocated : Bool) (allocs : List (Option Ptr)) :
    Meets (fun f => f = .impossible ∨ (f = .nullDeref ∧ v.currentSyscallRecord = none ∧
        wrapCopies (some recorded) mem allocated allocs ≠ []))
      (fun k' => Stands k' (appendAll v (wrapCopies (some recorded) mem allocated allocs)) lost ∧
        (v.currentSyscallRecord = none → wrapCopies (some recorded) mem allocated allocs = []))
      (k.postWrapSyscall recorded mem allocated allocs) := by
  by_cases hnil : wrapCopies (some recorded) mem allocated allocs = []
  · rw [postWrapSyscall_nil hnil, hnil]
    refine ⟨?_, fun _ => rfl⟩
    rw [appendAll_nil]
    exact h
  · have hstart : Stands k (appendAll v []) lost ∧
        (v.currentSyscallRecord = none → ([] : List CopyRecord) = []) := by
      rw [appendAll_nil]
      exact ⟨h, fun _ => rfl⟩
    have hloop := Kernel.postWrapSyscall_meets
      (I := fun k' cs => Stands k' (appendAll v cs) lost ∧
        (v.currentSyscallRecord = none → cs = [])) ?_ ?_ hstart recorded mem allocated allocs
    · refine hloop.mono ?_ fun k' hk' => by simpa using hk'
      rintro f (hf | ⟨hf, k', cs', ⟨hk', _⟩, hopen⟩)
      · exact Or.inl hf
      · have hnone := hk'.isNone_record.2 hopen
        exact Or.inr ⟨hf, by simpa [appendAll] using hnone, hnil⟩
    · rintro k' cs p ⟨hk', _⟩ hopen
      exact hk'.inv.of_withLost.current_live hopen
    · rintro k' cs p r c d ⟨hk', _⟩ hopen hr hc hlen hbytes
      obtain ⟨_, _, _, hR⟩ := hk'.inv.heap.heapRecord_eq hr
      have hd : d.Sized := ⟨by simp [hlen, hbytes], by omega⟩
      have hrecord := hk'.record_eq hopen hR
      refine ⟨?_, fun hnone => ?_⟩
      · have happend := hk'.appendFresh hopen hr hR hc hd
        rw [appendAll_append, hrecord]
        exact happend
      · simp [appendAll, hnone] at hrecord

end Stands

end RrPython
