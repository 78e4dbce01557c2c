import RrPython.Foundation.PointPatch
import RrPython.Pipeline.WrappedCall

/-!
# RegionDiff — the differences that `post_wrap_syscall` records

`wrapLoop` walks two lists; the C loop walks two buffers with an `int`.  For regions below `2 ^ 31`
bytes both are the same loop, it returns whenever the kernel serves its allocations, and what it
appends is the patch that makes the region as it is after the call out of the region before it.
-/

namespace RrPython

open Foundation

/-- One copy for each place at which the region differs, in increasing order. -/
def diffCopies (ptr : Word) (olds news : List Byte) : List CopyRecord :=
  (diffIndices olds news).map fun i => byteCopy ptr i (news.getD i 0)

namespace Kernel

/-! ## The index -/

/-- `i + 1` as an `unsigned long`, as long as the loop goes on. -/
theorem widen_succ {i : BitVec 32} {n : Word} (h : i.signExtend 64 < n) :
    ((i + 1).signExtend 64).toNat > (i.signExtend 64).toNat := by
  have hn := n.isLt
  rw [BitVec.lt_def] at h
  simp only [BitVec.toNat_signExtend, BitVec.msb_eq_decide, BitVec.toNat_setWidth,
    BitVec.toNat_add, decide_eq_true_eq] at h ⊢
  have hi := i.isLt
  have hone : (1 : BitVec 32).toNat = 1 := rfl
  rw [hone]
  split_ifs at h ⊢ <;> omega

theorem widen_ofNat {i : Nat} (hi : i < 2 ^ 31) :
    (BitVec.ofNat 32 i).signExtend 64 = BitVec.ofNat 64 i := by
  apply BitVec.eq_of_toNat_eq
  simp only [BitVec.toNat_signExtend, BitVec.msb_eq_decide, BitVec.toNat_setWidth,
    BitVec.toNat_ofNat, decide_eq_true_eq]
  split_ifs <;> omega

/-- The loop of `post_wrap_syscall` with its index: an `int`, which the comparison with `len` and the
addition to `ptr` make an `unsigned long`.  Beyond the buffers there is nothing to compare. -/
def wrapLoopFrom (recorded : SyscallRecordedMem) (newMem : List Byte) (i : BitVec 32)
    (allocs : List (Option Ptr)) (k : Kernel) : Except Fault Kernel :=
  if i.signExtend 64 < recorded.len then
    match recorded.mem[(i.signExtend 64).toNat]?, newMem[(i.signExtend 64).toNat]? with
    | some old, some new =>
        if old ≠ new then
          match allocs with
          | some p :: allocs => do
              let k ← k.kmalloc (sizeofCopyRecordElement + 1) (some p) (.copyRecord {
                fromAddr := 0, toAddr := recorded.ptr + i.signExtend 64, len := 1, bytes := [new] })
              let k ← k.listAddTail p
              wrapLoopFrom recorded newMem (i + 1) allocs k
          | _ => .ok k
        else wrapLoopFrom recorded newMem (i + 1) allocs k
    | _, _ => .error .badDeref
  else .ok k
termination_by recorded.len.toNat - (i.signExtend 64).toNat
decreasing_by
  all_goals
    have hlt : i.signExtend 64 < recorded.len := ‹_›
    have hsucc := widen_succ hlt
    rw [BitVec.lt_def] at hlt
    omega

/-- A region that an `int` can index is walked as the two lists are. -/
theorem wrapLoopFrom_eq {recorded : SyscallRecordedMem} {newMem : List Byte}
    (hold : recorded.mem.length = recorded.len.toNat) (hnew : newMem.length = recorded.len.toNat)
    (hint : recorded.len.toNat < 2 ^ 31) {i j : Nat} (hij : i + j = recorded.len.toNat)
    (allocs : List (Option Ptr)) (k : Kernel) :
    wrapLoopFrom recorded newMem (BitVec.ofNat 32 i) allocs k =
      wrapLoop recorded.ptr i (recorded.mem.drop i) (newMem.drop i) allocs k := by
  have hi : (BitVec.ofNat 32 i).signExtend 64 = BitVec.ofNat 64 i := widen_ofNat (by omega)
  have hval : (BitVec.ofNat 64 i).toNat = i := by
    rw [BitVec.toNat_ofNat, Nat.mod_eq_of_lt (by omega)]
  -- on the bytes that are left
  induction j generalizing i allocs k with
  | zero =>
      have hdone : ¬BitVec.ofNat 64 i < recorded.len := by
        rw [BitVec.lt_def, hval]
        omega
      have hempty : recorded.mem.drop i = [] := List.drop_eq_nil_of_le (by omega)
      rw [wrapLoopFrom, hi, if_neg hdone, hempty, wrapLoop]
      simp
  | succ j ih =>
      have hgoes : BitVec.ofNat 64 i < recorded.len := by
        rw [BitVec.lt_def, hval]
        omega
      have hnext : BitVec.ofNat 32 i + 1 = BitVec.ofNat 32 (i + 1) := by
        rw [BitVec.ofNat_add]
        rfl
      have hrest := fun allocs k => ih (i := i + 1) (by omega) allocs k (widen_ofNat (by omega))
        (by rw [BitVec.toNat_ofNat, Nat.mod_eq_of_lt (by omega)])
      have hlt : i < recorded.mem.length := by omega
      have hlt' : i < newMem.length := by omega
      rw [wrapLoopFrom, hi, if_pos hgoes, hval, hnext, List.getElem?_eq_getElem hlt,
        List.getElem?_eq_getElem hlt', List.drop_eq_getElem_cons hlt, List.drop_eq_getElem_cons hlt']
      by_cases hsame : recorded.mem[i] = newMem[i]
      · simp [wrapLoop, hsame, hrest]
      · cases allocs with
        | nil =>
            simp [wrapLoop, hsame]
        | cons a allocs =>
            cases a with
            | none =>
                simp [wrapLoop, hsame]
            | some p =>
                -- one more copy, and the next round on both sides
                simp [wrapLoop, hsame, hrest]

/-- `post_wrap_syscall` with the loop of the C code. -/
def postWrapSyscallInt (k : Kernel) (recorded : SyscallRecordedMem) (mem : UserMem)
    (allocated : Bool) (allocs : List (Option Ptr)) : Except Fault Kernel :=
  if !allocated then .ok k
  else
    match mem.copyFromUser recorded.ptr recorded.len.toNat with
    | none => .ok k
    | some newMem => wrapLoopFrom recorded newMem 0 allocs k

theorem postWrapSyscallInt_eq {recorded : SyscallRecordedMem}
    (hold : recorded.mem.length = recorded.len.toNat) (hint : recorded.len.toNat < 2 ^ 31)
    (k : Kernel) (mem : UserMem) (allocated : Bool) (allocs : List (Option Ptr)) :
    k.postWrapSyscallInt recorded mem allocated allocs =
      k.postWrapSyscall recorded mem allocated allocs := by
  unfold postWrapSyscallInt postWrapSyscall
  cases hread : mem.copyFromUser recorded.ptr recorded.len.toNat with
  | none =>
      rfl
  | some newMem =>
      have hloop := wrapLoopFrom_eq hold (length_copyFromUser hread) hint (Nat.zero_add _) allocs k
      simp only [List.drop_zero] at hloop
      simp only [← hloop]
      rfl

/-! ## The allocations -/

/-- The answers of a `kmalloc` that serves every request: blocks that are free and are not served
twice. -/
structure FreshBlocks (heap : Heap) (addrs : List Ptr) : Prop where
  nodup : addrs.Nodup
  free : ∀ a ∈ addrs, heap a = none

theorem FreshBlocks.tail {heap heap' : Heap} {a : Ptr} {addrs : List Ptr}
    (h : FreshBlocks heap (a :: addrs)) (hframe : ∀ x, x ≠ a → heap x = none → heap' x = none) :
    FreshBlocks heap' addrs := by
  obtain ⟨hnew, hnodup⟩ := List.nodup_cons.1 h.nodup
  refine ⟨hnodup, fun x hx => hframe x ?_ (h.free x (List.mem_cons_of_mem a hx))⟩
  rintro rfl
  exact hnew hx

theorem granted_map_some (addrs : List Ptr) : granted (addrs.map some) = addrs.length := by
  induction addrs with
  | nil =>
      rfl
  | cons a addrs ih =>
      simpa [granted] using ih

/-- With a block for every difference the loop comes to its end. -/
theorem wrapLoop_returns (ptr : Word) (olds : List Byte) :
    ∀ (i : Nat) (news : List Byte) {addrs : List Ptr} {k : Kernel} {q : Ptr} {r : SyscallRecord Ptr},
      k.currentSyscallRecord = some q → k.heap q = some (.syscallRecord r) →
      FreshBlocks k.heap addrs → (byteDiffs ptr i olds news).length ≤ addrs.length →
      ∃ k', wrapLoop ptr i olds news (addrs.map some) k = .ok k' := by
  induction olds with
  | nil =>
      intro i news addrs k q r _ _ _ _
      exact ⟨k, by simp [wrapLoop]⟩
  | cons old olds ih =>
      intro i news addrs k q r hopen hr hfresh henough
      cases news with
      | nil =>
          exact ⟨k, by simp [wrapLoop]⟩
      | cons new news =>
          by_cases hsame : old = new
          · -- the byte needs no block
            subst hsame
            have hrest : (byteDiffs ptr (i + 1) olds news).length ≤ addrs.length := by
              simpa [byteDiffs] using henough
            rw [Kernel.wrapLoop_same]
            exact ih (i + 1) news hopen hr hfresh hrest
          · cases addrs with
            | nil =>
                simp [byteDiffs, hsame] at henough
            | cons a addrs =>
                have hrest : (byteDiffs ptr (i + 1) olds news).length ≤ addrs.length := by
                  simpa [byteDiffs, hsame] using henough
                have ha : k.heap a = none := hfresh.free a List.mem_cons_self
                -- the other blocks stay free: the record was none of them
                have htail : FreshBlocks (k.appendCopy q r a (byteCopy ptr i new)).heap addrs := by
                  refine hfresh.tail fun x hxa hx => ?_
                  have hxq : x ≠ q := (ne_of_free hr hx).symm
                  exact (Function.update_of_ne hxq ..).trans ((Function.update_of_ne hxa ..).trans hx)
                rw [List.map_cons, wrapLoop_diff hsame hopen hr ha]
                exact ih (i + 1) news hopen (Function.update_self ..) htail hrest

end Kernel

/-! ## The patch -/

/-- The differences that the loop appends are those of the region. -/
theorem byteDiffs_eq (ptr : Word) (olds : List Byte) :
    ∀ (i : Nat) (news : List Byte), olds.length = news.length →
      byteDiffs ptr i olds news =
        (diffIndices olds news).map fun j => byteCopy ptr (i + j) (news.getD j 0) := by
  induction olds with
  | nil =>
      intro i news _
      rfl
  | cons old olds ih =>
      intro i news hlen
      cases news with
      | nil =>
          simp at hlen
      | cons new news =>
          have hrest := ih (i + 1) news (by simpa using hlen)
          have hshift : (fun j => byteCopy ptr (i + 1 + j) (news.getD j 0)) =
              (fun j => byteCopy ptr (i + j) ((new :: news).getD j 0)) ∘ (· + 1) := by
            funext j
            simp [Nat.add_assoc, Nat.add_comm 1 j]
          rw [diffIndices_cons, List.map_append, List.map_map, ← hshift, ← hrest]
          by_cases hsame : old = new
          · simp [byteDiffs, hsame]
          · simp [byteDiffs, hsame, byteCopy]

theorem byteDiffs_zero {ptr : Word} {olds news : List Byte} (hlen : olds.length = news.length) :
    byteDiffs ptr 0 olds news = diffCopies ptr olds news := by
  simpa [diffCopies] using byteDiffs_eq ptr olds 0 news hlen

/-- A copy of one byte of the region sets that byte. -/
theorem copyFromUser_byteCopy {mem : UserMem} {ptr : Word} {n i : Nat} {xs : List Byte} {b : Byte}
    (hn : n ≤ 2 ^ 64) (hi : i < n) (hxs : mem.copyFromUser ptr n = some xs) :
    UserMem.copyFromUser ((byteCopy ptr i b).apply mem) ptr n = some (xs.set i b) := by
  obtain ⟨hlen, hbytes⟩ := copyFromUser_eq_some.1 hxs
  refine copyFromUser_eq_some.2 ⟨by simpa using hlen, fun j hj => ?_⟩
  rw [List.getElem?_set]
  by_cases hij : i = j
  · subst hij
    simp [byteCopy, CopyRecord.apply, ByteMemory.store, hlen, hi]
  · have hne : ptr + BitVec.ofNat 64 j ≠ ptr + BitVec.ofNat 64 i :=
      ByteMemory.ofNat_ne_ofNat (by omega) (by omega) (Ne.symm hij) ptr
    rw [if_neg hij, ← hbytes j hj]
    simp [byteCopy, CopyRecord.apply, ByteMemory.store, hne]

/-- Applied to a memory, copies of bytes of the region patch what is read from it. -/
theorem copyFromUser_patch {ptr : Word} {n : Nat} (hn : n ≤ 2 ^ 64) (news : List Byte)
    (hnews : news.length = n) {places : List Nat} :
    ∀ {mem : UserMem} {xs : List Byte}, (∀ i ∈ places, i < n) → mem.copyFromUser ptr n = some xs →
      UserMem.copyFromUser
          ((places.map fun i => byteCopy ptr i (news.getD i 0)).foldl CopyRecord.apply mem) ptr n =
        some (patch news places xs) := by
  induction places with
  | nil =>
      intro mem xs _ hxs
      exact hxs
  | cons i places ih =>
      intro mem xs hplaces hxs
      have hi : i < n := hplaces i List.mem_cons_self
      have hb : news[i]? = some (news.getD i 0) := by
        rw [List.getD_eq_getElem?_getD, List.getElem?_eq_getElem (by omega), Option.getD_some]
      have hfirst := copyFromUser_byteCopy (b := news.getD i 0) hn hi hxs
      rw [List.map_cons, List.foldl_cons, patch_cons hb]
      exact ih (fun j hj => hplaces j (List.mem_cons_of_mem i hj)) hfirst

/-- Memory outside the region stays. -/
theorem foldl_byteCopy_frame {ptr x : Word} {n : Nat} (hx : ∀ i < n, x ≠ ptr + BitVec.ofNat 64 i)
    (news : List Byte) {places : List Nat} :
    ∀ {mem : ByteMemory}, (∀ i ∈ places, i < n) →
      (places.map fun i => byteCopy ptr i (news.getD i 0)).foldl CopyRecord.apply mem x = mem x := by
  induction places with
  | nil =>
      intro mem _
      rfl
  | cons i places ih =>
      intro mem hplaces
      have hne := hx i (hplaces i List.mem_cons_self)
      rw [List.map_cons, List.foldl_cons, ih fun j hj => hplaces j (List.mem_cons_of_mem i hj)]
      simp [byteCopy, CopyRecord.apply, ByteMemory.store, hne]

theorem diffCopies_apply {ptr : Word} {n : Nat} (hn : n ≤ 2 ^ 64) {olds news : List Byte}
    (hnews : news.length = n) {mem : UserMem} (holds : mem.copyFromUser ptr n = some olds) :
    UserMem.copyFromUser ((diffCopies ptr olds news).foldl CopyRecord.apply mem) ptr n = some news ∧
      ∀ x, (∀ i < n, x ≠ ptr + BitVec.ofNat 64 i) →
        (diffCopies ptr olds news).foldl CopyRecord.apply mem x = mem x := by
  have hlen : olds.length = n := length_copyFromUser holds
  have hplaces : ∀ i ∈ diffIndices olds news, i < n := fun i hi => hlen ▸ (mem_diffIndices.1 hi).1
  refine ⟨?_, fun x hx => foldl_byteCopy_frame hx news hplaces⟩
  rw [diffCopies, copyFromUser_patch hn news hnews hplaces holds,
    patch_diffIndices (hlen.trans hnews.symm)]

/-! ## The record -/

namespace Sys

/-- With every allocation and every read of user memory served, `post_wrap_syscall` appends the
differences of the region to the open record, and they are exactly what the call has changed. -/
theorem postWrapSyscall_exact {pid : Int} {taskPtRegs : Pid → PtRegs} {es : List Event} {s : Sys}
    (hrun : run step (init pid taskPtRegs) es = .ok s) {q : Ptr} {R : Record} (hopen : s.OpenAt q R)
    {ptr len : Word} (hint : len.toNat < 2 ^ 31) {before after : UserMem} {olds news : List Byte}
    (holds : before.copyFromUser ptr len.toNat = some olds)
    (hnews : after.copyFromUser ptr len.toNat = some news) {addrs : List Ptr}
    (hfresh : Kernel.FreshBlocks s.kernel.heap addrs)
    (henough : (diffIndices olds news).length ≤ addrs.length) :
    ∃ k',
      s.kernel.postWrapSyscallInt { ptr, len, mem := olds } after true (addrs.map some) = .ok k' ∧
      k'.currentSyscallRecord = some q ∧
      heapRecord k'.heap q = some { R with
        copiesToUser := R.copiesToUser ++ diffCopies ptr olds news
        amountOfCopies := R.amountOfCopies + BitVec.ofNat 64 (diffIndices olds news).length } ∧
      (R.amountOfCopies + BitVec.ofNat 64 (diffIndices olds news).length).toNat =
        R.amountOfCopies.toNat + (diffIndices olds news).length ∧
      UserMem.copyFromUser ((diffCopies ptr olds news).foldl CopyRecord.apply before) ptr len.toNat =
        some news ∧
      ∀ x, (∀ i < len.toNat, x ≠ ptr + BitVec.ofNat 64 i) →
        (diffCopies ptr olds news).foldl CopyRecord.apply before x = before x := by
  have hinv : s.Inv := (inv_run pid taskPtRegs es).of_ok hrun
  have hold : olds.length = len.toNat := length_copyFromUser holds
  have hnew : news.length = len.toNat := length_copyFromUser hnews
  have hdiffs : byteDiffs ptr 0 olds news = diffCopies ptr olds news :=
    byteDiffs_zero (hold.trans hnew.symm)
  have hcount : (diffCopies ptr olds news).length = (diffIndices olds news).length := by
    simp [diffCopies]
  obtain ⟨r, hr, _⟩ := heapRecord_some hopen.2
  -- the loop comes to its end
  obtain ⟨k', hk'⟩ : ∃ k', s.kernel.postWrapSyscall { ptr, len, mem := olds } after true
      (addrs.map some) = .ok k' := by
    obtain ⟨k', hk'⟩ := Kernel.wrapLoop_returns ptr olds 0 news hopen.1 hr hfresh
      (by rw [hdiffs, hcount]; exact henough)
    exact ⟨k', by simpa [Kernel.postWrapSyscall, hnews] using hk'⟩
  -- what it has appended are the differences
  have hwrapped : Wrapped s.kernel (diffCopies ptr olds news) k' := by
    have hmeets := postWrapSyscall_wrapped hinv.kernel { ptr, len, mem := olds } after true
      (addrs.map some)
    have hcopies : wrapCopies (some { ptr, len, mem := olds }) after true (addrs.map some) =
        diffCopies ptr olds news := by
      have hall : (diffCopies ptr olds news).length ≤ granted (addrs.map some) := by
        rw [Kernel.granted_map_some, hcount]
        exact henough
      simp [wrapCopies, hnews, hdiffs, List.take_of_length_le hall]
    simpa [hcopies] using hmeets.of_ok hk'
  have hvalue := hwrapped.value q R hopen.1 hopen.2
  rw [addCopies_eq, hcount] at hvalue
  -- the counter agrees with the list before and after, so it has not wrapped
  have hbefore := (heapRecord_sized hinv.kernel.heap hopen.2).amount_eq
  have hafter := (heapRecord_sized hwrapped.inv.heap hvalue).amount_eq
  rw [List.length_append, hcount, ← hbefore] at hafter
  refine ⟨k', ?_, hwrapped.current.trans hopen.1, hvalue, hafter, diffCopies_apply (by omega) hnew holds⟩
  rw [Kernel.postWrapSyscallInt_eq hold hint]
  exact hk'

/-- Two bytes, of which the call has changed the second. -/
theorem postWrapSyscall_exact_second :
    ∃ k' R,
      inSyscall.kernel.postWrapSyscallInt { ptr := 1, len := 2, mem := [0, 0] }
        (fun x => if x = 2 then some 5 else some 0) true [some 48] = .ok k' ∧
      heapRecord k'.heap 16 = some R ∧ R.copiesToUser = [byteCopy 1 1 5] ∧ R.amountOfCopies = 1 := by
  have hrun : run step (init 1 fun _ _ => 0) [.enterSyscall 1 (fun _ => 1) (some 16)] =
      .ok inSyscall := rfl
  have hread : UserMem.copyFromUser (fun _ => some 0) 1 (2 : Word).toNat = some [0, 0] := rfl
  have hchanged : UserMem.copyFromUser (fun x => if x = 2 then some 5 else some 0) 1 (2 : Word).toNat =
      some [0, 5] := rfl
  have hfresh : Kernel.FreshBlocks inSyscall.kernel.heap [48] := by
    refine ⟨by decide, fun a ha => ?_⟩
    obtain rfl : a = 48 := List.mem_singleton.1 ha
    rfl
  obtain ⟨k', hk', _, hvalue, _⟩ :=
    postWrapSyscall_exact hrun (q := 16) ⟨rfl, rfl⟩ (by decide) hread hchanged hfresh (by decide)
  exact ⟨k', _, hk', hvalue, rfl, rfl⟩

end Sys

end RrPython
