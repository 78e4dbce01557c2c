import RrPython.Recorder.System

/-!
# Invariant — what every hook keeps of the module's state

`Kernel.Inv` says who owns which block of the heap.  Every update of `Effects` keeps it and leaves the
values of all other records, and the block of the pending copy, as they were.
-/

namespace RrPython

open Foundation

namespace Kernel

/-- The records the module still points to. -/
def owned (k : Kernel) : List Ptr :=
  k.recordedSyscalls ++ k.currentSyscallRecord.toList

structure Inv (k : Kernel) : Prop where
  heap : HeapOk k.heap
  nodup : k.owned.Nodup
  live : ∀ p ∈ k.owned, ∃ r, k.heap p = some (.syscallRecord r)
  copy : ∀ c, k.currentCopy = some c →
    (∃ d, k.heap c = some (.copyRecord d)) ∧ Unlisted k.heap c

/-- The pending copy is the same, with the same contents. -/
structure KeepsCopy (k k' : Kernel) : Prop where
  pointer : k'.currentCopy = k.currentCopy
  block : ∀ c, k.currentCopy = some c → k'.heap c = k.heap c

/-- The open record is the same, with the same contents. -/
structure KeepsRecord (k k' : Kernel) : Prop where
  pointer : k'.currentSyscallRecord = k.currentSyscallRecord
  value : ∀ p, k.currentSyscallRecord = some p → heapRecord k'.heap p = heapRecord k.heap p

/-- The FIFO is the same, and so are the records in it. -/
structure KeepsQueue (k k' : Kernel) : Prop where
  pointers : k'.recordedSyscalls = k.recordedSyscalls
  values : ∀ p ∈ k.recordedSyscalls, heapRecord k'.heap p = heapRecord k.heap p

theorem KeepsCopy.refl (k : Kernel) : KeepsCopy k k :=
  ⟨rfl, fun _ _ => rfl⟩

theorem KeepsRecord.refl (k : Kernel) : KeepsRecord k k :=
  ⟨rfl, fun _ _ => rfl⟩

theorem KeepsQueue.refl (k : Kernel) : KeepsQueue k k :=
  ⟨rfl, fun _ _ => rfl⟩

theorem KeepsCopy.trans {k₁ k₂ k₃ : Kernel} (h : KeepsCopy k₁ k₂) (h' : KeepsCopy k₂ k₃) :
    KeepsCopy k₁ k₃ :=
  ⟨h'.pointer.trans h.pointer,
    fun c hc => (h'.block c (h.pointer.trans hc)).trans (h.block c hc)⟩

theorem KeepsRecord.trans {k₁ k₂ k₃ : Kernel} (h : KeepsRecord k₁ k₂) (h' : KeepsRecord k₂ k₃) :
    KeepsRecord k₁ k₃ :=
  ⟨h'.pointer.trans h.pointer,
    fun p hp => (h'.value p (h.pointer.trans hp)).trans (h.value p hp)⟩

theorem KeepsQueue.trans {k₁ k₂ k₃ : Kernel} (h : KeepsQueue k₁ k₂) (h' : KeepsQueue k₂ k₃) :
    KeepsQueue k₁ k₃ :=
  ⟨h'.pointers.trans h.pointers,
    fun p hp => (h'.values p (h.pointers ▸ hp)).trans (h.values p hp)⟩

theorem KeepsQueue.queued_eq {k k' : Kernel} (h : KeepsQueue k k') : k'.queued = k.queued := by
  rw [queued, queued, h.pointers]
  exact List.filterMap_congr h.values

/-- A record that was just opened has no copies. -/
theorem openRecord_value (k : Kernel) (a : Ptr) (userspaceRegsPtr : Pid) :
    heapRecord (k.openRecord a (k.newRecord userspaceRegsPtr)).heap a = some {
      userspaceRegs := k.taskPtRegs userspaceRegsPtr
      ret := 0
      userspaceRegsPtr
      amountOfCopies := 0
      copiesToUser := [] } := by
  simp [heapRecord, openRecord, newRecord]

namespace Inv

variable {k : Kernel}

theorem mem_owned {p : Ptr} (hp : p ∈ k.recordedSyscalls) : p ∈ k.owned :=
  List.mem_append_left _ hp

theorem current_owned {p : Ptr} (hp : k.currentSyscallRecord = some p) : p ∈ k.owned := by
  simp [owned, hp]

theorem current_live (h : k.Inv) {p : Ptr} (hp : k.currentSyscallRecord = some p) :
    ∃ r, k.heap p = some (.syscallRecord r) :=
  h.live p (current_owned hp)

theorem current_not_queued (h : k.Inv) {p : Ptr} (hp : k.currentSyscallRecord = some p) :
    p ∉ k.recordedSyscalls := by
  intro hmem
  have hnodup := h.nodup
  rw [owned, hp] at hnodup
  exact (List.nodup_append.1 hnodup).2.2 p hmem p (by simp) rfl

/-- The registers saved for a task and the recorded pid play no part. -/
theorem of_same {k' : Kernel} (h : k.Inv) (hheap : k'.heap = k.heap)
    (hfifo : k'.recordedSyscalls = k.recordedSyscalls)
    (hopen : k'.currentSyscallRecord = k.currentSyscallRecord)
    (hcopy : k'.currentCopy = k.currentCopy) : k'.Inv := by
  have howned : k'.owned = k.owned := by
    rw [owned, owned, hfifo, hopen]
  refine ⟨hheap ▸ h.heap, howned ▸ h.nodup, ?_, ?_⟩
  · intro p hp
    rw [hheap]
    exact h.live p (howned ▸ hp)
  · intro c hc
    rw [hheap]
    exact h.copy c (hcopy ▸ hc)

/-! ## Records -/

theorem openRecord (h : k.Inv) {a : Ptr} (ha : k.heap a = none)
    (hopen : k.currentSyscallRecord = none) (userspaceRegsPtr : Pid) :
    (k.openRecord a (k.newRecord userspaceRegsPtr)).Inv ∧
      KeepsCopy k (k.openRecord a (k.newRecord userspaceRegsPtr)) ∧
      KeepsQueue k (k.openRecord a (k.newRecord userspaceRegsPtr)) := by
  have howned : k.owned = k.recordedSyscalls := by
    simp [owned, hopen]
  have hne : ∀ {q b}, k.heap q = some b → q ≠ a := fun hq => ne_of_free hq ha
  have hun : Unlisted k.heap a := h.heap.unlisted_of_free ha
  refine ⟨⟨h.heap.newRecord ha rfl rfl, ?_, ?_, ?_⟩, ⟨rfl, ?_⟩, ⟨rfl, ?_⟩⟩
  · -- the FIFO and the open record are distinct
    have hfresh : a ∉ k.recordedSyscalls := by
      intro hmem
      obtain ⟨r, hr⟩ := h.live a (mem_owned hmem)
      exact hne hr rfl
    have hnodup := h.nodup
    rw [howned] at hnodup
    simp only [owned, Kernel.openRecord, Option.toList_some]
    rw [List.nodup_append]
    refine ⟨hnodup, by simp, ?_⟩
    intro q hq q' hq'
    rw [List.mem_singleton] at hq'
    rintro rfl
    exact hfresh (hq' ▸ hq)
  · -- all of them are allocated
    intro q hq
    simp only [owned, Kernel.openRecord, Option.toList_some, List.mem_append,
      List.mem_singleton] at hq
    rcases hq with hq | rfl
    · obtain ⟨r, hr⟩ := h.live q (mem_owned hq)
      exact ⟨r, (Function.update_of_ne (hne hr) ..).trans hr⟩
    · exact ⟨_, Function.update_self ..⟩
  · -- the pending copy is allocated and in no list
    intro c hc
    obtain ⟨⟨d, hd⟩, hcun⟩ := h.copy c hc
    refine ⟨⟨d, (Function.update_of_ne (hne hd) ..).trans hd⟩, hcun.update ?_⟩
    intro r hr
    simp only [Option.some.injEq, Block.syscallRecord.injEq] at hr
    simp [← hr, newRecord]
  · -- the pending copy stays
    intro c hc
    obtain ⟨⟨d, hd⟩, _⟩ := h.copy c hc
    exact Function.update_of_ne (hne hd) ..
  · -- the queued records stay
    intro q hq
    obtain ⟨r, hr⟩ := h.live q (mem_owned hq)
    exact heapRecord_update hr (hne hr) hun

/-- Completing the open record, before it is pushed or freed. -/
theorem complete (h : k.Inv) {p : Ptr} {r : SyscallRecord Ptr}
    (hr : k.heap p = some (.syscallRecord r)) :
    HeapOk (Function.update k.heap p (some (.syscallRecord (k.completed r)))) ∧
      (∀ q s, q ≠ p → k.heap q = some (.syscallRecord s) →
        heapRecord (Function.update k.heap p (some (.syscallRecord (k.completed r)))) q =
          heapRecord k.heap q) ∧
      (∀ c, Unlisted k.heap c →
        Unlisted (Function.update k.heap p (some (.syscallRecord (k.completed r)))) c) := by
  refine ⟨h.heap.setRecord hr rfl rfl, ?_, ?_⟩
  · -- the other records read as before
    intro q s hq hs
    exact heapRecord_update hs hq (h.heap.unlisted_of_record hr)
  · -- what was in no list is in none now
    intro c hc
    apply hc.update
    intro s hs
    simp only [Option.some.injEq, Block.syscallRecord.injEq] at hs
    rw [← hs]
    exact hc p r hr

theorem pushRecord (h : k.Inv) {p : Ptr} {r : SyscallRecord Ptr}
    (hopen : k.currentSyscallRecord = some p) (hr : k.heap p = some (.syscallRecord r)) :
    (k.pushRecord p r).Inv ∧ KeepsCopy k (k.pushRecord p r) := by
  obtain ⟨hok, _, hkeep⟩ := h.complete hr
  -- the pointer moves from `current_syscall_record` to the FIFO
  have howned : (k.pushRecord p r).owned = k.owned := by
    simp [owned, Kernel.pushRecord, hopen]
  refine ⟨⟨hok, howned ▸ h.nodup, ?_, ?_⟩, ⟨rfl, ?_⟩⟩
  · -- all records are allocated, the pushed one among them
    intro q hq
    rw [howned] at hq
    by_cases hqp : q = p
    · subst hqp
      exact ⟨_, Function.update_self ..⟩
    · obtain ⟨s, hs⟩ := h.live q hq
      exact ⟨s, (Function.update_of_ne hqp ..).trans hs⟩
  · -- the pending copy is allocated and in no list
    intro c hc
    obtain ⟨⟨d, hd⟩, hcun⟩ := h.copy c hc
    have hcp : c ≠ p := copy_ne_record hd hr
    exact ⟨⟨d, (Function.update_of_ne hcp ..).trans hd⟩, hkeep c hcun⟩
  · -- the pending copy stays
    intro c hc
    obtain ⟨⟨d, hd⟩, _⟩ := h.copy c hc
    have hcp : c ≠ p := copy_ne_record hd hr
    exact Function.update_of_ne hcp ..

/-- The value of the record that `post_syscall` pushes. -/
theorem pushRecord_value (h : k.Inv) {p : Ptr} {r : SyscallRecord Ptr}
    (hr : k.heap p = some (.syscallRecord r)) {R : Record} (hR : heapRecord k.heap p = some R) :
    heapRecord (k.pushRecord p r).heap p =
      some { R with ret := k.taskPtRegs R.userspaceRegsPtr .rax } := by
  obtain ⟨r₀, hr₀, hcs, hR₀⟩ := heapRecord_some hR
  have hsame : r₀ = r := by
    rw [hr] at hr₀
    simpa using hr₀.symm
  subst hsame
  -- the copies are in other blocks than the record
  have hlist : r₀.copiesToUser.mapM (heapCopy (k.pushRecord p r₀).heap) = some R.copiesToUser := by
    rw [← hcs]
    refine mapM_heapCopy_congr fun c hc => ?_
    obtain ⟨d, hd⟩ := h.heap.element hr hc
    have hcp : c ≠ p := copy_ne_record hd hr
    exact Function.update_of_ne hcp ..
  have hblock : (k.pushRecord p r₀).heap p = some (.syscallRecord (k.completed r₀)) :=
    Function.update_self ..
  have hcopies : (k.completed r₀).copiesToUser = r₀.copiesToUser := rfl
  rw [heapRecord, hblock]
  simp only [hcopies, hlist, Option.map_some]
  rw [hR₀]
  rfl

theorem pushRecord_other (h : k.Inv) {p q : Ptr} {r s : SyscallRecord Ptr}
    (hr : k.heap p = some (.syscallRecord r)) (hqp : q ≠ p)
    (hs : k.heap q = some (.syscallRecord s)) :
    heapRecord (k.pushRecord p r).heap q = heapRecord k.heap q :=
  (h.complete hr).2.1 q s hqp hs

theorem discardRecord (h : k.Inv) {p : Ptr} {r : SyscallRecord Ptr}
    (hopen : k.currentSyscallRecord = some p) (hr : k.heap p = some (.syscallRecord r)) :
    (k.discardRecord p r).Inv ∧ KeepsCopy k (k.discardRecord p r) ∧
      KeepsQueue k (k.discardRecord p r) := by
  obtain ⟨hok, hvalue, hkeep⟩ := h.complete hr
  have hblock : Function.update k.heap p (some (.syscallRecord (k.completed r))) p =
      some (.syscallRecord (k.completed r)) := Function.update_self ..
  have howned : (k.discardRecord p r).owned = k.recordedSyscalls := by
    simp [owned, Kernel.discardRecord]
  have hqueued : ∀ q ∈ k.recordedSyscalls, q ≠ p := by
    rintro q hq rfl
    exact h.current_not_queued hopen hq
  -- a pending copy is in no list, so freeing a record does not reach it
  have hcopyKept : ∀ c d, k.heap c = some (.copyRecord d) → Unlisted k.heap c →
      (k.discardRecord p r).heap c = k.heap c := by
    intro c d hd hcun
    have hcp : c ≠ p := copy_ne_record hd hr
    have hd' := (Function.update_of_ne hcp (some (Block.syscallRecord (k.completed r))) k.heap)
    exact (freedHeap_unlisted hblock (hd'.trans hd) (hkeep c hcun)).trans hd'
  refine ⟨⟨hok.freeRecord hblock, ?_, ?_, ?_⟩, ⟨rfl, ?_⟩, ⟨rfl, ?_⟩⟩
  · -- the FIFO is left, which has no repetitions
    rw [howned]
    have hnodup := h.nodup
    rw [owned, hopen] at hnodup
    exact (List.nodup_append.1 hnodup).1
  · -- its records are allocated
    intro q hq
    rw [howned] at hq
    obtain ⟨s, hs⟩ := h.live q (mem_owned hq)
    have hs' := (Function.update_of_ne (hqueued q hq) (some (Block.syscallRecord (k.completed r)))
      k.heap).trans hs
    exact ⟨s, (hok.freedHeap_record hblock hs' (hqueued q hq)).trans hs'⟩
  · -- the pending copy is allocated and in no list
    intro c hc
    obtain ⟨⟨d, hd⟩, hcun⟩ := h.copy c hc
    exact ⟨⟨d, (hcopyKept c d hd hcun).trans hd⟩, (hkeep c hcun).freed⟩
  · -- the pending copy stays
    intro c hc
    obtain ⟨⟨d, hd⟩, hcun⟩ := h.copy c hc
    exact hcopyKept c d hd hcun
  · -- the queued records stay
    intro q hq
    obtain ⟨s, hs⟩ := h.live q (mem_owned hq)
    have hs' := (Function.update_of_ne (hqueued q hq) (some (Block.syscallRecord (k.completed r)))
      k.heap).trans hs
    calc heapRecord (k.discardRecord p r).heap q
        = heapRecord (Function.update k.heap p (some (.syscallRecord (k.completed r)))) q :=
          hok.heapRecord_freedHeap hblock hs' (hqueued q hq)
      _ = heapRecord k.heap q := hvalue q s (hqueued q hq) hs

/-! ## Copies -/

/-- Updating a block that is in no list and is no record. -/
theorem updateCopy (h : k.Inv) {a : Ptr} {b : Option Block}
    (hold : ∀ r, k.heap a ≠ some (.syscallRecord r)) (hnew : ∀ r, b ≠ some (.syscallRecord r))
    (hun : Unlisted k.heap a) :
    HeapOk (Function.update k.heap a b) ∧
      (∀ p ∈ k.owned, Function.update k.heap a b p = k.heap p ∧
        heapRecord (Function.update k.heap a b) p = heapRecord k.heap p) := by
  refine ⟨h.heap.updateCopy hnew hun, ?_⟩
  intro p hp
  obtain ⟨r, hr⟩ := h.live p hp
  have hpa : p ≠ a := by
    rintro rfl
    exact hold r hr
  exact ⟨Function.update_of_ne hpa .., heapRecord_update hr hpa hun⟩

theorem openCopy (h : k.Inv) {a : Ptr} (ha : k.heap a = none) (d : CopyRecord) :
    (k.openCopy a d).Inv ∧ KeepsRecord k (k.openCopy a d) ∧ KeepsQueue k (k.openCopy a d) := by
  have hun : Unlisted k.heap a := h.heap.unlisted_of_free ha
  obtain ⟨hok, hkeep⟩ := h.updateCopy (b := some (.copyRecord d)) (by simp [ha]) (by simp) hun
  refine ⟨⟨hok, h.nodup, ?_, ?_⟩, ⟨rfl, ?_⟩, ⟨rfl, ?_⟩⟩
  · -- the records are allocated
    intro p hp
    obtain ⟨r, hr⟩ := h.live p hp
    exact ⟨r, (hkeep p hp).1.trans hr⟩
  · -- the pending copy is the new block, which is in no list yet
    intro c hc
    simp only [Kernel.openCopy, Option.some.injEq] at hc
    subst hc
    exact ⟨⟨d, Function.update_self ..⟩, hun.update (by simp)⟩
  · intro p hp
    exact (hkeep p (current_owned hp)).2
  · intro p hp
    exact (hkeep p (mem_owned hp)).2

theorem dropCopy (h : k.Inv) {c : Ptr} (hc : k.currentCopy = some c) :
    (k.dropCopy c).Inv ∧ KeepsRecord k (k.dropCopy c) ∧ KeepsQueue k (k.dropCopy c) := by
  obtain ⟨⟨d, hd⟩, hun⟩ := h.copy c hc
  obtain ⟨hok, hkeep⟩ := h.updateCopy (b := none) (by simp [hd]) (by simp) hun
  refine ⟨⟨hok, h.nodup, ?_, ?_⟩, ⟨rfl, ?_⟩, ⟨rfl, ?_⟩⟩
  · -- the records are allocated
    intro p hp
    obtain ⟨r, hr⟩ := h.live p hp
    exact ⟨r, (hkeep p hp).1.trans hr⟩
  · -- no copy is pending
    intro x hx
    simp [Kernel.dropCopy] at hx
  · intro p hp
    exact (hkeep p (current_owned hp)).2
  · intro p hp
    exact (hkeep p (mem_owned hp)).2

/-- Appending the copy stored at `c` to the open record. -/
theorem appendCopy (h : k.Inv) {p c : Ptr} {r : SyscallRecord Ptr} {d : CopyRecord}
    (hopen : k.currentSyscallRecord = some p) (hr : k.heap p = some (.syscallRecord r))
    (hold : ∀ s, k.heap c ≠ some (.syscallRecord s)) (hun : Unlisted k.heap c) (hd : d.Sized) :
    HeapOk (k.appendCopy p r c d).heap ∧
      (∀ q ∈ k.owned, ∃ s, (k.appendCopy p r c d).heap q = some (.syscallRecord s)) ∧
      (∀ R, heapRecord k.heap p = some R →
        heapRecord (k.appendCopy p r c d).heap p = some (SyscallRecord.addTail R d)) ∧
      KeepsQueue k (k.appendCopy p r c d) := by
  obtain ⟨hok, hkeep⟩ := h.updateCopy (b := some (.copyRecord d)) hold (by simp) hun
  have hp := hkeep p (current_owned hopen)
  have hr' := hp.1.trans hr
  have hc' : Function.update k.heap c (some (.copyRecord d)) c = some (.copyRecord d) :=
    Function.update_self ..
  have hun' : Unlisted (Function.update k.heap c (some (.copyRecord d))) c := hun.update (by simp)
  refine ⟨hok.addTail hr' hc' hun' hd, ?_, ?_, ⟨rfl, ?_⟩⟩
  · -- all records are allocated, the longer one among them
    intro q hq
    by_cases hqp : q = p
    · subst hqp
      exact ⟨_, Function.update_self ..⟩
    · obtain ⟨s, hs⟩ := h.live q hq
      exact ⟨s, (Function.update_of_ne hqp ..).trans ((hkeep q hq).1.trans hs)⟩
  · -- the open record reads with one more copy
    intro R hR
    apply heapRecord_addTail hr' hc' (hp.2.trans hR)
    -- a record is in no list, its own included
    rintro x hx rfl
    exact hok.unlisted_of_record hr' x r hr' hx
  · -- the queued records stay
    intro q hq
    have hqp : q ≠ p := by
      rintro rfl
      exact h.current_not_queued hopen hq
    obtain ⟨s, hs⟩ := h.live q (mem_owned hq)
    have hq' := hkeep q (mem_owned hq)
    calc heapRecord (k.appendCopy p r c d).heap q
        = heapRecord (Function.update k.heap c (some (.copyRecord d))) q :=
          heapRecord_update (hq'.1.trans hs) hqp (hok.unlisted_of_record hr')
      _ = heapRecord k.heap q := hq'.2

/-- `post_put` and `post_copy` append the pending copy. -/
theorem takeCopy (h : k.Inv) {p c : Ptr} {r : SyscallRecord Ptr} {d : CopyRecord}
    (hopen : k.currentSyscallRecord = some p) (hr : k.heap p = some (.syscallRecord r))
    (hc : k.currentCopy = some c) (hd : d.Sized) :
    Inv { k.appendCopy p r c d with currentCopy := none } := by
  obtain ⟨⟨e, he⟩, hun⟩ := h.copy c hc
  obtain ⟨hok, hlive, _, _⟩ := h.appendCopy hopen hr (by simp [he]) hun hd
  exact ⟨hok, h.nodup, hlive, by simp⟩

/-- `post_wrap_syscall` appends a copy of its own. -/
theorem appendFresh (h : k.Inv) {p c : Ptr} {r : SyscallRecord Ptr} {d : CopyRecord}
    (hopen : k.currentSyscallRecord = some p) (hr : k.heap p = some (.syscallRecord r))
    (hc : k.heap c = none) (hd : d.Sized) :
    (k.appendCopy p r c d).Inv ∧ KeepsCopy k (k.appendCopy p r c d) := by
  have hun := h.heap.unlisted_of_free hc
  obtain ⟨hok, hlive, _, _⟩ := h.appendCopy hopen hr (by simp [hc]) hun hd
  -- the pending copy is neither the new block nor the record
  have hblock : ∀ x, k.currentCopy = some x → x ≠ c ∧ (k.appendCopy p r c d).heap x = k.heap x := by
    intro x hx
    obtain ⟨⟨e, he⟩, _⟩ := h.copy x hx
    have hxc : x ≠ c := ne_of_free he hc
    have hxp : x ≠ p := copy_ne_record he hr
    exact ⟨hxc, (Function.update_of_ne hxp ..).trans (Function.update_of_ne hxc ..)⟩
  refine ⟨⟨hok, h.nodup, hlive, ?_⟩, ⟨rfl, fun x hx => (hblock x hx).2⟩⟩
  intro x hx
  obtain ⟨⟨e, he⟩, hxun⟩ := h.copy x hx
  refine ⟨⟨e, (hblock x hx).2.trans he⟩, (hxun.update (by simp)).update ?_⟩
  intro s hs
  simp only [Option.some.injEq, Block.syscallRecord.injEq] at hs
  rw [← hs, SyscallRecord.addTail, List.mem_append, List.mem_singleton]
  -- the longer list is the old one and the new block
  rintro (hmem | hxc)
  · exact hxun p r hr hmem
  · exact (hblock x hx).1 hxc

/-! ## Reads -/

theorem pop (h : k.Inv) {p : Ptr} {rest : List Ptr} (hfifo : k.recordedSyscalls = p :: rest) :
    Inv { k with recordedSyscalls := rest } := by
  have hcons : k.owned = p :: { k with recordedSyscalls := rest }.owned := by
    simp [owned, hfifo]
  have hnodup := h.nodup
  rw [hcons, List.nodup_cons] at hnodup
  exact ⟨h.heap, hnodup.2, fun q hq => h.live q (hcons ▸ List.mem_cons_of_mem p hq), h.copy⟩

theorem popFree (h : k.Inv) {p : Ptr} {rest : List Ptr} {r : SyscallRecord Ptr}
    (hfifo : k.recordedSyscalls = p :: rest) (hr : k.heap p = some (.syscallRecord r)) :
    Inv { k with recordedSyscalls := rest, heap := freedHeap k.heap p r } ∧
      KeepsCopy k { k with recordedSyscalls := rest, heap := freedHeap k.heap p r } ∧
      KeepsRecord k { k with recordedSyscalls := rest, heap := freedHeap k.heap p r } := by
  have hcons : k.owned = p :: { k with recordedSyscalls := rest }.owned := by
    simp [owned, hfifo]
  have hnodup := h.nodup
  rw [hcons, List.nodup_cons] at hnodup
  have hother : ∀ q ∈ { k with recordedSyscalls := rest }.owned, q ≠ p := by
    rintro q hq rfl
    exact hnodup.1 hq
  refine ⟨⟨h.heap.freeRecord hr, hnodup.2, ?_, ?_⟩, ⟨rfl, ?_⟩, ⟨rfl, ?_⟩⟩
  · -- the remaining records are allocated
    intro q hq
    obtain ⟨s, hs⟩ := h.live q (hcons ▸ List.mem_cons_of_mem p hq)
    exact ⟨s, (h.heap.freedHeap_record hr hs (hother q hq)).trans hs⟩
  · -- the pending copy is allocated and in no list
    intro c hc
    obtain ⟨⟨d, hd⟩, hun⟩ := h.copy c hc
    exact ⟨⟨d, (freedHeap_unlisted hr hd hun).trans hd⟩, hun.freed⟩
  · -- the pending copy stays
    intro c hc
    obtain ⟨⟨d, hd⟩, hun⟩ := h.copy c hc
    exact freedHeap_unlisted hr hd hun
  · -- the open record stays
    intro q hq
    have hmem : q ∈ { k with recordedSyscalls := rest }.owned := by
      simp [owned, hq]
    obtain ⟨s, hs⟩ := h.current_live hq
    exact h.heap.heapRecord_freedHeap hr hs (hother q hmem)

/-- A read that is not blocked runs to its end and keeps the open record and the pending copy. -/
theorem readProc (h : k.Inv) (r : ReadArgs) :
    k.readProc r = .error .impossible ∨
      ∃ (k' : Kernel) (u : UserSpace) (n : Int), k.readProc r = .ok (k', u, n) ∧
        k'.Inv ∧ KeepsCopy k k' ∧ KeepsRecord k k' ∧
        k'.recordedProcessPid = k.recordedProcessPid ∧ k'.taskPtRegs = k.taskPtRegs := by
  refine readProc_preserves (I := fun k' => k'.Inv ∧ KeepsCopy k k' ∧ KeepsRecord k k' ∧
    k'.recordedProcessPid = k.recordedProcessPid ∧ k'.taskPtRegs = k.taskPtRegs) ?_ ?_ ?_
    ⟨h, KeepsCopy.refl k, KeepsRecord.refl k, rfl, rfl⟩ r
  · -- the invariant says that the dump finds its records
    intro k' hk'
    exact ⟨hk'.1.heap, fun p hp => hk'.1.live p (mem_owned hp)⟩
  · -- taking a pointer out of the FIFO
    rintro k' p rest ⟨hinv, hcopy, hrecord, hpid, hregs⟩ hfifo
    exact ⟨hinv.pop hfifo, ⟨hcopy.pointer, hcopy.block⟩, ⟨hrecord.pointer, hrecord.value⟩, hpid,
      hregs⟩
  · -- freeing the record that was dumped
    rintro k' p rest s ⟨hinv, hcopy, hrecord, hpid, hregs⟩ hfifo hs
    obtain ⟨hinv', hcopy', hrecord'⟩ := hinv.popFree hfifo hs
    exact ⟨hinv', hcopy.trans hcopy', hrecord.trans hrecord', hpid, hregs⟩

end Inv

end Kernel

end RrPython
