import RrPython.Foundation.Outcome
import RrPython.Recorder.Heap

/-!
# Effects — what each hook can do to the module

One description per hook of everything it can do, as one of a few named updates of `Kernel`.  The
invariants are proved from these descriptions and never look into a hook again.
-/

namespace RrPython

open Foundation

namespace Kernel

/-! ## The updates -/

/-- The record that `pre_syscall` allocates. -/
def newRecord (k : Kernel) (userspaceRegsPtr : Pid) : SyscallRecord Ptr where
  userspaceRegs := k.taskPtRegs userspaceRegsPtr
  ret := 0
  userspaceRegsPtr
  amountOfCopies := 0
  copiesToUser := []

def openRecord (k : Kernel) (a : Ptr) (r : SyscallRecord Ptr) : Kernel :=
  { k with heap := Function.update k.heap a (some (.syscallRecord r)), currentSyscallRecord := some a }

/-- The record `r` as `post_syscall` completes it. -/
def completed (k : Kernel) (r : SyscallRecord Ptr) : SyscallRecord Ptr :=
  { r with ret := k.taskPtRegs r.userspaceRegsPtr .rax }

def hasRoom (k : Kernel) : Prop :=
  sizeofPtr * k.recordedSyscalls.length + sizeofPtr ≤ syscallFifoSize

instance (k : Kernel) : Decidable k.hasRoom := by
  unfold hasRoom
  infer_instance

/-- The open record `r` at `p` goes to the FIFO. -/
def pushRecord (k : Kernel) (p : Ptr) (r : SyscallRecord Ptr) : Kernel :=
  { k with
    heap := Function.update k.heap p (some (.syscallRecord (k.completed r)))
    recordedSyscalls := k.recordedSyscalls ++ [p]
    currentSyscallRecord := none }

/-- The open record `r` at `p` is freed since the FIFO is full. -/
def discardRecord (k : Kernel) (p : Ptr) (r : SyscallRecord Ptr) : Kernel :=
  { k with
    heap := freedHeap (Function.update k.heap p (some (.syscallRecord (k.completed r)))) p
      (k.completed r)
    currentSyscallRecord := none }

def openCopy (k : Kernel) (a : Ptr) (c : CopyRecord) : Kernel :=
  { k with heap := Function.update k.heap a (some (.copyRecord c)), currentCopy := some a }

def dropCopy (k : Kernel) (c : Ptr) : Kernel :=
  { k with heap := Function.update k.heap c none, currentCopy := none }

/-- The copy `d` is stored at `c` and appended to the record `r` at `p`. -/
def appendCopy (k : Kernel) (p : Ptr) (r : SyscallRecord Ptr) (c : Ptr) (d : CopyRecord) : Kernel :=
  { k with
    heap := Function.update (Function.update k.heap c (some (.copyRecord d))) p
      (some (.syscallRecord (r.addTail c))) }

/-! ## syscall_recorder.c -/

theorem preSyscall_cases (k : Kernel) (current : Pid) (nr : Word) (userspaceRegsPtr : Pid)
    (a : Option Ptr) :
    Meets (· = .impossible)
      (fun x =>
        (x = (k, 1) ∧
          (neverReturns nr ∨ k.notRecorded current ∨ k.currentSyscallRecord.isSome ∨ a = none)) ∨
        (∃ p, a = some p ∧ x = (k.openRecord p (k.newRecord userspaceRegsPtr), 0) ∧
          ¬neverReturns nr ∧ ¬k.notRecorded current ∧ k.currentSyscallRecord = none ∧
          k.heap p = none))
      (k.preSyscall current nr userspaceRegsPtr a) := by
  unfold preSyscall
  split
  · rename_i hnr
    exact Or.inl ⟨rfl, Or.inl hnr⟩
  · rename_i hnr
    split
    · rename_i hpid
      exact Or.inl ⟨rfl, Or.inr (Or.inl hpid)⟩
    · rename_i hpid
      split
      · rename_i hopen
        exact Or.inl ⟨rfl, Or.inr (Or.inr (Or.inl hopen))⟩
      · rename_i hopen
        have hnone : k.currentSyscallRecord = none := by
          simpa using hopen
        cases a with
        | none =>
            -- `kmalloc` failed: the NULL it returned is stored over a NULL
            have hsame : { k with currentSyscallRecord := none } = k := by
              rw [← hnone]
            refine Or.inl ⟨?_, Or.inr (Or.inr (Or.inr rfl))⟩
            simp [hsame]
        | some p =>
            -- `kmalloc` gave the block `p`, which was free
            simp only [kmalloc]
            split
            · rfl
            · rename_i hfree
              have hp : k.heap p = none := by
                simpa using (not_or.1 hfree).1
              exact Or.inr ⟨p, rfl, rfl, hnr, hpid, hnone, hp⟩

theorem postSyscall_some {k : Kernel} (hok : HeapOk k.heap) {p : Ptr} {r : SyscallRecord Ptr}
    (hopen : k.currentSyscallRecord = some p) (hr : k.heap p = some (.syscallRecord r)) :
    k.postSyscall = .ok (if k.hasRoom then k.pushRecord p r else k.discardRecord p r) := by
  have hload : k.loadSyscallRecord k.currentSyscallRecord = .ok (p, r) := by
    simp [loadSyscallRecord, hopen, hr]
  have hok' : HeapOk (k.store p (.syscallRecord (k.completed r))).heap := hok.setRecord hr rfl rfl
  have hr' : (k.store p (.syscallRecord (k.completed r))).heap p =
      some (.syscallRecord (k.completed r)) := by
    simp [store]
  have hfree := freeSyscallRecord_ok hok' hr'
  by_cases hroom : k.hasRoom
  · -- `kfifo_in` stores the pointer
    have hcond : sizeofPtr * k.recordedSyscalls.length + sizeofPtr ≤ syscallFifoSize := hroom
    simp [postSyscall, hopen, loadSyscallRecord, hr, bind, Except.bind, kfifoIn, store, hcond,
      pure, Except.pure, hroom, pushRecord, completed]
  · -- the FIFO is full: `kfifo_in` stores nothing, and the record is freed with its copies
    have hcond : ¬sizeofPtr * k.recordedSyscalls.length + sizeofPtr ≤ syscallFifoSize := hroom
    have hzero : ¬(0 = sizeofPtr) := by decide
    rw [hopen] at hload
    simp only [postSyscall, hopen, hload, bind, Except.bind, kfifoIn]
    simp only [store, hcond, if_false, hzero, hroom] at hfree ⊢
    simp only [completed] at hfree
    rw [hfree]
    rfl

/-! ## copy_to_user_wrapper.c -/

theorem beginCopy_cases (k : Kernel) (current : Pid) (a : Option Ptr) (c : CopyRecord) :
    Meets (· = .impossible)
      (fun x =>
        (x = (k, 1) ∧ (k.notRecorded current ∨ k.currentSyscallRecord = none ∨
          k.currentCopy.isSome ∨ a = none)) ∨
        (∃ p, a = some p ∧ x = (k.openCopy p c, 0) ∧ ¬k.notRecorded current ∧
          k.currentSyscallRecord.isSome ∧ k.currentCopy = none ∧ k.heap p = none ∧
          c.len.toNat + 40 ≤ kmallocMaxSize))
      (k.beginCopy current a c) := by
  unfold beginCopy
  split
  · rename_i hpid
    exact Or.inl ⟨rfl, Or.inl hpid⟩
  · rename_i hpid
    split
    · rename_i hopen
      exact Or.inl ⟨rfl, Or.inr (Or.inl (by simpa using hopen))⟩
    · rename_i hopen
      have hsome : k.currentSyscallRecord.isSome := by
        cases h : k.currentSyscallRecord with
        | none =>
            simp [h] at hopen
        | some p =>
            rfl
      split
      · rename_i hcopy
        exact Or.inl ⟨rfl, Or.inr (Or.inr (Or.inl hcopy))⟩
      · rename_i hcopy
        have hnone : k.currentCopy = none := by
          simpa using hcopy
        cases a with
        | none =>
            -- `kmalloc` failed: the NULL it returned is stored over a NULL
            have hsame : { k with currentCopy := none } = k := by
              rw [← hnone]
            refine Or.inl ⟨?_, Or.inr (Or.inr (Or.inr rfl))⟩
            simp [hsame]
        | some p =>
            -- `kmalloc` gave the block `p`, which was free and not too large
            simp only [kmalloc]
            split
            · rfl
            · rename_i hfree
              have hp : k.heap p = none := by
                simpa using (not_or.1 hfree).1
              have hsize : c.len.toNat + 40 ≤ kmallocMaxSize := by
                have hle := (not_or.1 hfree).2
                simp only [sizeofCopyRecordElement] at hle
                omega
              exact Or.inr ⟨p, rfl, rfl, hpid, hsome, hnone, hp, hsize⟩

/-- The probed function failed: the pending copy is freed. -/
theorem endCopy_failed {k : Kernel} {returnValue : Word} (hret : returnValue ≠ 0) {c : Ptr}
    (hcopy : k.currentCopy = some c) {d : CopyRecord} (hc : k.heap c = some (.copyRecord d))
    (fill : CopyRecord → CopyRecord) : k.endCopy returnValue fill = .ok (k.dropCopy c) := by
  rw [endCopy, if_pos hret]
  simp [hcopy, kfree, hc, bind, Except.bind, pure, Except.pure, dropCopy]

/-- The probed function succeeded: the pending copy goes to the open record. -/
theorem endCopy_succeeded {k : Kernel} {c p : Ptr} (hcopy : k.currentCopy = some c) {d : CopyRecord}
    (hc : k.heap c = some (.copyRecord d)) (hopen : k.currentSyscallRecord = some p)
    {r : SyscallRecord Ptr} (hr : k.heap p = some (.syscallRecord r))
    (fill : CopyRecord → CopyRecord) :
    k.endCopy 0 fill = .ok { k.appendCopy p r c (fill d) with currentCopy := none } := by
  -- storing the filled copy leaves the block of the record alone
  have hpc : p ≠ c := by
    rintro rfl
    simp [hr] at hc
  simp [endCopy, hcopy, loadCopyRecord, hc, bind, Except.bind, pure, Except.pure, listAddTail, store,
    loadSyscallRecord, hopen, Function.update_of_ne hpc, hr, appendCopy, SyscallRecord.addTail]

/-- The probed function succeeded but no record is open any more. -/
theorem endCopy_null {k : Kernel} {c : Ptr} (hcopy : k.currentCopy = some c) {d : CopyRecord}
    (hc : k.heap c = some (.copyRecord d)) (hopen : k.currentSyscallRecord = none)
    (fill : CopyRecord → CopyRecord) : k.endCopy 0 fill = .error .nullDeref := by
  simp [endCopy, hcopy, loadCopyRecord, hc, bind, Except.bind, listAddTail, store,
    loadSyscallRecord, hopen]

end Kernel

/-! ## syscall_wrapper.c -/

/-- The copy of the byte at index `i` of the region at `ptr`. -/
def byteCopy (ptr : Word) (i : Nat) (new : Byte) : CopyRecord where
  fromAddr := 0
  toAddr := ptr + BitVec.ofNat 64 i
  len := 1
  bytes := [new]

/-- The 1-byte copies that make `news` out of `olds` in the region at `ptr`, from index `i` on. -/
def byteDiffs (ptr : Word) : Nat → List Byte → List Byte → List CopyRecord
  | i, old :: olds, new :: news =>
      if old ≠ new then
        { fromAddr := 0, toAddr := ptr + BitVec.ofNat 64 i, len := 1, bytes := [new] } ::
          byteDiffs ptr (i + 1) olds news
      else byteDiffs ptr (i + 1) olds news
  | _, _, _ => []

/-- How many allocations succeed before one fails. -/
def granted (allocs : List (Option Ptr)) : Nat :=
  (allocs.takeWhile Option.isSome).length

/-- The copies that `post_wrap_syscall` appends for the region `recorded` left by the entry handler. -/
def wrapCopies (recorded : Option SyscallRecordedMem) (mem : UserMem) (allocated : Bool)
    (allocs : List (Option Ptr)) : List CopyRecord :=
  match recorded with
  | none => []
  | some m =>
      if !allocated then []
      else
        match mem.copyFromUser m.ptr m.len.toNat with
        | none => []
        | some newMem => (byteDiffs m.ptr 0 m.mem newMem).take (granted allocs)

namespace Kernel

/-- A byte that is as it was needs no copy. -/
theorem wrapLoop_same (ptr : Word) (i : Nat) (b : Byte) (olds news : List Byte)
    (allocs : List (Option Ptr)) (k : Kernel) :
    wrapLoop ptr i (b :: olds) (b :: news) allocs k = wrapLoop ptr (i + 1) olds news allocs k := by
  simp [wrapLoop]

/-- A byte that differs is appended to the open record, given a free block for its copy. -/
theorem wrapLoop_diff {old new : Byte} (hne : old ≠ new) {k : Kernel} {p c : Ptr}
    {r : SyscallRecord Ptr} (hopen : k.currentSyscallRecord = some p)
    (hr : k.heap p = some (.syscallRecord r)) (hc : k.heap c = none) (ptr : Word) (i : Nat)
    (olds news : List Byte) (allocs : List (Option Ptr)) :
    wrapLoop ptr i (old :: olds) (new :: news) (some c :: allocs) k =
      wrapLoop ptr (i + 1) olds news allocs (k.appendCopy p r c (byteCopy ptr i new)) := by
  have hpc : p ≠ c := ne_of_free hr hc
  have hsize : ¬kmallocMaxSize < sizeofCopyRecordElement + 1 := by decide
  simp [wrapLoop, hne, kmalloc, hc, hsize, bind, Except.bind, pure, Except.pure, listAddTail,
    loadSyscallRecord, hopen, Function.update_of_ne hpc, hr, store, appendCopy, SyscallRecord.addTail,
    byteCopy]

/-- Rule for the loop of `post_wrap_syscall`: what appending one 1-byte copy preserves, the loop
preserves, with the appended copies added up in `cs`. -/
theorem wrapLoop_meets {I : Kernel → List CopyRecord → Prop}
    (hlive : ∀ {k cs p}, I k cs → k.currentSyscallRecord = some p →
      ∃ r, k.heap p = some (.syscallRecord r))
    (happend : ∀ {k cs p r c d}, I k cs → k.currentSyscallRecord = some p →
      k.heap p = some (.syscallRecord r) → k.heap c = none → d.len = 1 → d.bytes.length = 1 →
        I (k.appendCopy p r c d) (cs ++ [d]))
    (ptr : Word) (olds : List Byte) :
    ∀ (i : Nat) (news : List Byte) (allocs : List (Option Ptr)) {k : Kernel} {cs : List CopyRecord},
      I k cs →
      Meets (fun f => f = .impossible ∨
          (f = .nullDeref ∧ ∃ k' cs', I k' cs' ∧ k'.currentSyscallRecord = none))
        (fun k' => I k' (cs ++ (byteDiffs ptr i olds news).take (granted allocs)))
        (wrapLoop ptr i olds news allocs k) := by
  -- on the old bytes, with `I` carrying the copies that were appended so far
  induction olds with
  | nil =>
      intro i news allocs k cs hI
      simpa [wrapLoop, byteDiffs] using hI
  | cons old olds ih =>
      intro i news allocs k cs hI
      cases news with
      | nil =>
          simpa [wrapLoop, byteDiffs] using hI
      | cons new news =>
          by_cases hsame : old = new
          · subst hsame
            rw [wrapLoop_same]
            simpa [byteDiffs] using ih (i + 1) news allocs hI
          · cases allocs with
            | nil =>
                simpa [wrapLoop, hsame, granted] using hI
            | cons a allocs =>
                cases a with
                | none =>
                    -- the first failed allocation leaves the loop
                    simpa [wrapLoop, hsame, granted] using hI
                | some c =>
                    cases hc : k.heap c with
                    | some b =>
                        -- `kmalloc` serves no block that is in use
                        simp [wrapLoop, hsame, kmalloc, hc, bind, Except.bind]
                    | none =>
                        cases hopen : k.currentSyscallRecord with
                        | none =>
                            -- `list_add_tail` follows a NULL record
                            have hnull : ∃ k' cs', I k' cs' ∧ k'.currentSyscallRecord = none :=
                              ⟨k, cs, hI, hopen⟩
                            have hsize : ¬kmallocMaxSize < sizeofCopyRecordElement + 1 := by decide
                            simpa [wrapLoop, hsame, kmalloc, hc, hsize, bind, Except.bind, listAddTail,
                              loadSyscallRecord, hopen] using hnull
                        | some p =>
                            -- one more copy is in the list, and the rest of the loop goes on from there
                            obtain ⟨r, hr⟩ := hlive hI hopen
                            have hnext := happend hI hopen hr hc (d := byteCopy ptr i new) rfl rfl
                            have hrest := ih (i + 1) news allocs hnext
                            rw [wrapLoop_diff hsame hopen hr hc]
                            simpa [byteDiffs, hsame, granted, byteCopy] using hrest

theorem postWrapSyscall_meets {I : Kernel → List CopyRecord → Prop}
    (hlive : ∀ {k cs p}, I k cs → k.currentSyscallRecord = some p →
      ∃ r, k.heap p = some (.syscallRecord r))
    (happend : ∀ {k cs p r c d}, I k cs → k.currentSyscallRecord = some p →
      k.heap p = some (.syscallRecord r) → k.heap c = none → d.len = 1 → d.bytes.length = 1 →
        I (k.appendCopy p r c d) (cs ++ [d]))
    {k : Kernel} {cs : List CopyRecord} (hI : I k cs) (recorded : SyscallRecordedMem) (mem : UserMem)
    (allocated : Bool) (allocs : List (Option Ptr)) :
    Meets (fun f => f = .impossible ∨
        (f = .nullDeref ∧ ∃ k' cs', I k' cs' ∧ k'.currentSyscallRecord = none))
      (fun k' => I k' (cs ++ wrapCopies (some recorded) mem allocated allocs))
      (k.postWrapSyscall recorded mem allocated allocs) := by
  unfold postWrapSyscall
  cases hmalloc : allocated with
  | false =>
      -- `new_mem` could not be allocated
      simpa [wrapCopies] using hI
  | true =>
      cases hread : mem.copyFromUser recorded.ptr recorded.len.toNat with
      | none =>
          -- `copy_from_user` failed
          simpa [wrapCopies, hread] using hI
      | some newMem =>
          have hloop := wrapLoop_meets (I := I) hlive happend recorded.ptr recorded.mem 0 newMem
            allocs hI
          simpa [wrapCopies, hread] using hloop

end Kernel

end RrPython
