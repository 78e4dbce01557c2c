import RrPython.Pipeline.Execution
import RrPython.Recorder.Faithful

/-!
# WrappedCall — what is recorded of a wrapped function

During a wrapped function the hooks append the copies that they see, and after it `post_wrap_syscall`
appends one byte for each byte of the region that differs from before.  Applied in this order the copies
reproduce the region, except where a byte ends as it began although a hooked write has changed it in
between: there is no difference to append, and the hooked write stays.
-/

namespace RrPython

open Foundation

/-! ## Writes of the kernel -/

/-- A write to user memory during the wrapped function, which a hook has recorded or not. -/
inductive KernelWrite
  | hooked (c : CopyRecord)
  | unhooked (addr : Word) (bytes : List Byte)

namespace KernelWrite

def apply (mem : ByteMemory) : KernelWrite → ByteMemory
  | .hooked c => c.apply mem
  | .unhooked addr bytes => mem.store addr bytes

/-- What the hooks record of the write. -/
def copies : KernelWrite → List CopyRecord
  | .hooked c => [c]
  | .unhooked _ _ => []

end KernelWrite

def applyWrites (mem : ByteMemory) (ws : List KernelWrite) : ByteMemory :=
  ws.foldl KernelWrite.apply mem

/-- The byte that the last hooked write to `x` has put there. -/
def lastHooked (ws : List KernelWrite) (x : Word) : Option Byte :=
  (ws.flatMap KernelWrite.copies).foldl CopyRecord.apply (fun _ => none) x

theorem store_or (mem : ByteMemory) (addr x : Word) (bytes : List Byte) :
    ∀ part : ByteMemory, (part.store addr bytes x).or (mem x) =
      ByteMemory.store (fun y => (part y).or (mem y)) addr bytes x := by
  induction bytes generalizing addr with
  | nil =>
      intro part
      rfl
  | cons b bs ih =>
      intro part
      rw [ByteMemory.store, ByteMemory.store, ih]
      -- it is enough that the first byte does the same to both
      congr 1
      funext y
      by_cases hy : y = addr
      · subst hy
        simp
      · simp [hy]

/-- Applied to any memory, copies put their own bytes over it. -/
theorem foldl_apply_or (mem : ByteMemory) (x : Word) (cs : List CopyRecord) :
    ∀ part : ByteMemory, (cs.foldl CopyRecord.apply part x).or (mem x) =
      cs.foldl CopyRecord.apply (fun y => (part y).or (mem y)) x := by
  induction cs with
  | nil =>
      intro part
      rfl
  | cons c cs ih =>
      intro part
      have hfirst : (fun y => (c.apply part y).or (mem y)) =
          c.apply (fun y => (part y).or (mem y)) :=
        funext fun y => store_or mem c.toAddr y c.bytes part
      rw [List.foldl_cons, List.foldl_cons, ih, hfirst]

theorem foldl_hooked_eq (mem : ByteMemory) (ws : List KernelWrite) (x : Word) :
    (ws.flatMap KernelWrite.copies).foldl CopyRecord.apply mem x = (lastHooked ws x).or (mem x) := by
  rw [lastHooked, foldl_apply_or]
  rfl

/-! ## The differences -/

/-- How many of the first `i` bytes differ. -/
def diffsBefore (olds news : List Byte) (i : Nat) : Nat :=
  ((olds.zip news).take i).countP fun b => b.1 ≠ b.2

/-- Byte `i` differs, and the loop of `post_wrap_syscall` reaches it before its allocations fail. -/
def DiffAppended (olds news : List Byte) (allocs : Nat) (i : Nat) : Prop :=
  olds[i]? ≠ news[i]? ∧ diffsBefore olds news i < allocs

instance (olds news : List Byte) (allocs i : Nat) : Decidable (DiffAppended olds news allocs i) := by
  unfold DiffAppended
  infer_instance

theorem diffsBefore_succ (old new : Byte) (olds news : List Byte) (i : Nat) :
    diffsBefore (old :: olds) (new :: news) (i + 1) =
      diffsBefore olds news i + if old ≠ new then 1 else 0 := by
  simp [diffsBefore, List.countP_cons]

/-- Differences from index `k + 1` on leave byte `k` alone. -/
theorem foldl_byteDiffs_frame (ptr : Word) (mem : ByteMemory) {olds news : List Byte} {k j g : Nat}
    (hlen : k + news.length ≤ 2 ^ 64) (hj : j < k) :
    ((byteDiffs ptr k olds news).take g).foldl CopyRecord.apply mem (ptr + BitVec.ofNat 64 j) =
      mem (ptr + BitVec.ofNat 64 j) := by
  have hdiffs : ∀ d ∈ (byteDiffs ptr k olds news).take g, ∀ mem : ByteMemory,
      d.apply mem (ptr + BitVec.ofNat 64 j) = mem (ptr + BitVec.ofNat 64 j) := by
    intro d hd mem
    obtain ⟨i, b, hb, haddr, hbytes⟩ := mem_byteDiffs (List.mem_of_mem_take hd)
    have hi : i < news.length := (List.getElem?_eq_some_iff.1 hb).1
    refine ByteMemory.store_frame _ fun i' hi' => ?_
    -- a region of at most `2 ^ 64` bytes does not meet itself
    rw [hbytes, List.length_singleton, Nat.lt_one_iff] at hi'
    subst hi'
    rw [haddr, BitVec.add_zero]
    exact ByteMemory.ofNat_ne_ofNat (by omega) (by omega) (by omega) ptr
  generalize (byteDiffs ptr k olds news).take g = ds at hdiffs
  induction ds generalizing mem with
  | nil =>
      rfl
  | cons d ds ih =>
      rw [List.foldl_cons, ih _ fun d' hd' => hdiffs d' (by simp [hd']), hdiffs d (by simp)]

/-- The appended differences put the new byte where it differs and leave the others. -/
theorem foldl_byteDiffs (ptr : Word) (olds : List Byte) :
    ∀ (news : List Byte) (mem : ByteMemory) (k g i : Nat), olds.length = news.length →
      k + olds.length ≤ 2 ^ 64 → i < olds.length →
      ((byteDiffs ptr k olds news).take g).foldl CopyRecord.apply mem
          (ptr + BitVec.ofNat 64 (k + i)) =
        if DiffAppended olds news g i then news[i]? else mem (ptr + BitVec.ofNat 64 (k + i)) := by
  -- on the bytes from before; `k` of the region are done and `g` allocations are left
  induction olds with
  | nil =>
      intro news mem k g i _ _ hi
      simp at hi
  | cons old olds ih =>
      intro news mem k g i hlen hk hi
      cases news with
      | nil =>
          simp at hlen
      | cons new news =>
          have hlen' : olds.length = news.length := by
            simpa using hlen
          rw [List.length_cons] at hk hi
          by_cases hsame : old = new
          · -- the byte is as it was
            have hskip : byteDiffs ptr k (old :: olds) (new :: news) = byteDiffs ptr (k + 1) olds news := by
              simp [byteDiffs, hsame]
            rw [hskip]
            cases i with
            | zero =>
                rw [foldl_byteDiffs_frame ptr mem (by omega) (by omega), if_neg]
                simp [DiffAppended, hsame]
            | succ i =>
                have hrest := ih news mem (k + 1) g i hlen' (by omega) (by omega)
                rw [Nat.add_right_comm, Nat.add_assoc] at hrest
                rw [hrest]
                simp [DiffAppended, diffsBefore_succ, hsame]
          · have hfirst : byteDiffs ptr k (old :: olds) (new :: news) =
                { fromAddr := 0, toAddr := ptr + BitVec.ofNat 64 k, len := 1, bytes := [new] } ::
                  byteDiffs ptr (k + 1) olds news := by
              simp [byteDiffs, hsame]
            rw [hfirst]
            -- the byte differs: it costs an allocation, and without one the loop ends here
            cases g with
            | zero =>
                simp [DiffAppended]
            | succ g =>
                rw [List.take_succ_cons, List.foldl_cons]
                cases i with
                | zero =>
                    -- no later difference is at this byte
                    rw [foldl_byteDiffs_frame ptr _ (by omega) (by omega), if_pos]
                    · simp [CopyRecord.apply, ByteMemory.store]
                    · simp [DiffAppended, diffsBefore, hsame]
                | succ i =>
                    have hrest := ih news (CopyRecord.apply mem
                      { fromAddr := 0, toAddr := ptr + BitVec.ofNat 64 k, len := 1, bytes := [new] })
                      (k + 1) g i hlen' (by omega) (by omega)
                    rw [Nat.add_right_comm, Nat.add_assoc] at hrest
                    rw [hrest]
                    have hne : ptr + BitVec.ofNat 64 (k + (i + 1)) ≠ ptr + BitVec.ofNat 64 k :=
                      ByteMemory.ofNat_ne_ofNat (by omega) (by omega) (by omega) ptr
                    simp [DiffAppended, diffsBefore_succ, hsame, CopyRecord.apply, ByteMemory.store, hne]

/-! ## The calls -/

namespace Sys

/-- From `s` to `s'` the process `p` makes the writes `ws` within one call; other processes take their
steps in between and leave the open record alone. -/
inductive Writes (p : Pid) : Sys → List KernelWrite → Sys → Prop
  | done (s : Sys) : Writes p s [] s
  /-- A complete copy that the entry handler has accepted. -/
  | hooked {s s₁ s₂ s' : Sys} {fn : ProbedFn} {regs : PtRegs} {a : Option Ptr} {mem : KernelMem}
      {ws : List KernelWrite} (henter : s.step (.enterWrite p fn regs a) = .ok s₁)
      (hframes : s₁.frames p = .write fn true :: s.frames p)
      (hexit : s₁.step (.exitWrite p 0 mem) = .ok s₂) (hrest : Writes p s₂ ws s') :
      Writes p s (.hooked (fn.written regs mem) :: ws) s'
  /-- One that it has turned away. -/
  | passed {s s₁ s₂ s' : Sys} {fn : ProbedFn} {regs : PtRegs} {a : Option Ptr} {mem : KernelMem}
      {ws : List KernelWrite} (henter : s.step (.enterWrite p fn regs a) = .ok s₁)
      (hframes : s₁.frames p = .write fn false :: s.frames p)
      (hexit : s₁.step (.exitWrite p 0 mem) = .ok s₂) (hrest : Writes p s₂ ws s') :
      Writes p s (.unhooked (fn.written regs mem).toAddr (fn.written regs mem).bytes :: ws) s'
  /-- `__put_user`, which no probe sees. -/
  | unhooked {s s' : Sys} {ws : List KernelWrite} (addr : Word) (bytes : List Byte)
      (hrest : Writes p s ws s') : Writes p s (.unhooked addr bytes :: ws) s'
  | other {s s₁ s' : Sys} {ws : List KernelWrite} {e : Event} (he : e.process ≠ some p)
      (hs : s.step e = .ok s₁) (hkeeps : s.kernel.KeepsRecord s₁.kernel) (hrest : Writes p s₁ ws s') :
      Writes p s ws s'

/-- One call of a wrapped function: its region `m` is read from the memory `before`, the kernel makes
the writes `ws`, and the region is read as `new` afterwards.  `allocs` are the answers of `kmalloc` to
`post_wrap_syscall`. -/
structure WrappedCall (p : Pid) (s : Sys) (m : SyscallRecordedMem) (before : ByteMemory)
    (ws : List KernelWrite) (new : List Byte) (allocs : List (Option Ptr)) (s' : Sys) : Prop where
  enter : ∃ w regs, s.kernel.preWrapSyscall p w regs before true = some m ∧
    ∃ s₁ s₂, s.step (.enterWrap p w regs before true) = .ok s₁ ∧ Writes p s₁ ws s₂ ∧
      s₂.step (.exitWrap p (applyWrites before ws) true allocs) = .ok s'
  read : UserMem.copyFromUser (applyWrites before ws) m.ptr m.len.toNat = some new

/-- The open record is at `q` and reads as `R`. -/
def OpenAt (s : Sys) (q : Ptr) (R : Record) : Prop :=
  s.kernel.currentSyscallRecord = some q ∧ heapRecord s.kernel.heap q = some R

variable {p : Pid} {s s₁ s₂ s' : Sys} {q : Ptr} {R : Record}

theorem openAt_keeps (h : s.OpenAt q R) (hkeeps : s.kernel.KeepsRecord s'.kernel) : s'.OpenAt q R :=
  ⟨hkeeps.pointer.trans h.1, (hkeeps.value q h.1).trans h.2⟩

/-- The entry handler of a write that it accepts has begun the pending copy. -/
theorem openAt_begun (hinv : s.Inv) (h : s.OpenAt q R) {fn : ProbedFn} {regs : PtRegs}
    {a : Option Ptr} (henter : s.step (.enterWrite p fn regs a) = .ok s₁)
    (hframes : s₁.frames p = .write fn true :: s.frames p) :
    ∃ c, s₁ = s.move p (.write fn true :: s.frames p) (s.kernel.openCopy c (fn.begun regs)) ∧
      s₁.OpenAt q R := by
  rcases (enterWrite_cases s p fn regs a).of_ok henter with
    ⟨rfl, _⟩ | ⟨c, _, rfl, _, _, _, hfree, _⟩
  · simp [move] at hframes
  · exact ⟨c, rfl, openAt_keeps h (hinv.kernel.openCopy hfree (fn.begun regs)).2.1⟩

/-- A complete copy that is accepted is appended to the open record. -/
theorem openAt_hooked (hinv : s.Inv) (h : s.OpenAt q R) {fn : ProbedFn} {regs : PtRegs}
    {a : Option Ptr} {mem : KernelMem} (henter : s.step (.enterWrite p fn regs a) = .ok s₁)
    (hframes : s₁.frames p = .write fn true :: s.frames p)
    (hexit : s₁.step (.exitWrite p 0 mem) = .ok s₂) :
    s₂.OpenAt q (SyscallRecord.addTail R (fn.written regs mem)) ∧ s₂.frames p = s.frames p := by
  have hinv₁ := hinv.step_ok henter
  obtain ⟨c, rfl, h₁⟩ := openAt_begun hinv h henter hframes
  obtain ⟨fn', hooked, rest, hframes', hcase⟩ := (exitWrite_cases hinv₁ p 0 mem).of_ok hexit
  rw [hframes] at hframes'
  cases hframes'
  rcases hcase with ⟨hfalse, _⟩ | ⟨_, c', regs', hcopy, hc, hlen', ⟨hne, _⟩ | ⟨_, q', r, R', hopen, rfl⟩⟩
  · cases hfalse
  · exact absurd rfl hne
  · -- the pending copy is the one that was just begun
    obtain rfl : c = c' := Option.some.inj hcopy
    have hwritten : fn.ended mem (fn.begun regs') = fn.written regs mem := by
      have hblock : (s.kernel.openCopy c (fn.begun regs)).heap c =
          some (.copyRecord (fn.begun regs)) := Function.update_self ..
      have hbegun : fn.begun regs = fn.begun regs' := by
        simpa using hblock.symm.trans hc
      rw [← hbegun, fn.ended_begun]
    obtain rfl : q' = q := Option.some.inj (hopen.current.symm.trans h₁.1)
    have hun := (hinv₁.kernel.copy c hcopy).2
    obtain ⟨_, _, hvalue, _⟩ := hinv₁.kernel.appendCopy hopen.current hopen.block
      (by simp [hc]) hun (fn.ended_sized mem hlen')
    refine ⟨⟨h₁.1, ?_⟩, Function.update_self ..⟩
    rw [← hwritten]
    exact hvalue R h₁.2

/-- One that is turned away leaves the record alone, whatever it returns. -/
theorem openAt_passed (hinv : s.Inv) (h : s.OpenAt q R) {fn : ProbedFn} {regs : PtRegs}
    {a : Option Ptr} {ret : Word} {mem : KernelMem} (henter : s.step (.enterWrite p fn regs a) = .ok s₁)
    (hframes : s₁.frames p = .write fn false :: s.frames p)
    (hexit : s₁.step (.exitWrite p ret mem) = .ok s₂) :
    s₂.OpenAt q R ∧ s₂.frames p = s.frames p := by
  have hinv₁ := hinv.step_ok henter
  rcases (enterWrite_cases s p fn regs a).of_ok henter with ⟨rfl, _⟩ | ⟨c, _, rfl, _⟩
  · obtain ⟨fn', hooked, rest, hframes', hcase⟩ := (exitWrite_cases hinv₁ p ret mem).of_ok hexit
    rw [hframes] at hframes'
    cases hframes'
    rcases hcase with ⟨_, rfl⟩ | ⟨htrue, _⟩
    · exact ⟨h, Function.update_self ..⟩
    · cases htrue
  · simp [move] at hframes

/-- So does one that is accepted and does not copy everything. -/
theorem openAt_dropped (hinv : s.Inv) (h : s.OpenAt q R) {fn : ProbedFn} {regs : PtRegs}
    {a : Option Ptr} {ret : Word} {mem : KernelMem} (henter : s.step (.enterWrite p fn regs a) = .ok s₁)
    (hframes : s₁.frames p = .write fn true :: s.frames p) (hret : ret ≠ 0)
    (hexit : s₁.step (.exitWrite p ret mem) = .ok s₂) :
    s₂.OpenAt q R ∧ s₂.frames p = s.frames p := by
  have hinv₁ := hinv.step_ok henter
  obtain ⟨c, rfl, h₁⟩ := openAt_begun hinv h henter hframes
  obtain ⟨fn', hooked, rest, hframes', hcase⟩ := (exitWrite_cases hinv₁ p ret mem).of_ok hexit
  rw [hframes] at hframes'
  cases hframes'
  rcases hcase with ⟨hfalse, _⟩ | ⟨_, c', regs', hcopy, hc, hlen', ⟨_, rfl⟩ | ⟨hzero, _⟩⟩
  · cases hfalse
  · -- the pending copy is freed
    exact ⟨openAt_keeps h₁ (hinv₁.kernel.dropCopy hcopy).2.1, Function.update_self ..⟩
  · exact absurd hzero hret

/-- The hooks append the copies of the writes that they see. -/
theorem Writes.appends {ws : List KernelWrite} (hws : Writes p s ws s') :
    ∀ {R : Record}, s.Inv → s.OpenAt q R →
      s'.Inv ∧ s'.OpenAt q (addCopies R (ws.flatMap KernelWrite.copies)) ∧ s'.frames p = s.frames p := by
  induction hws with
  | done s =>
      intro R hinv h
      exact ⟨hinv, h, rfl⟩
  | hooked henter hframes hexit _ ih =>
      intro R hinv h
      obtain ⟨h₂, hframes₂⟩ := openAt_hooked hinv h henter hframes hexit
      obtain ⟨hinv', h', hframes'⟩ := ih ((hinv.step_ok henter).step_ok hexit) h₂
      exact ⟨hinv', h', hframes'.trans hframes₂⟩
  | passed henter hframes hexit _ ih =>
      intro R hinv h
      obtain ⟨h₂, hframes₂⟩ := openAt_passed hinv h henter hframes hexit
      obtain ⟨hinv', h', hframes'⟩ := ih ((hinv.step_ok henter).step_ok hexit) h₂
      exact ⟨hinv', h', hframes'.trans hframes₂⟩
  | unhooked addr bytes _ ih =>
      intro R hinv h
      exact ih hinv h
  | other he hs hkeeps _ ih =>
      intro R hinv h
      obtain ⟨hinv', h', hframes'⟩ := ih (hinv.step_ok hs) (openAt_keeps h hkeeps)
      exact ⟨hinv', h', hframes'.trans (frames_other hinv he hs)⟩

/-- What is recorded of the call: the copies of the hooks, then the differences. -/
theorem WrappedCall.appends {m : SyscallRecordedMem} {before : ByteMemory} {ws : List KernelWrite}
    {new : List Byte} {allocs : List (Option Ptr)} (hcall : WrappedCall p s m before ws new allocs s')
    (hinv : s.Inv) (h : s.OpenAt q R) :
    s'.OpenAt q (addCopies (addCopies R (ws.flatMap KernelWrite.copies))
      ((byteDiffs m.ptr 0 m.mem new).take (granted allocs))) := by
  obtain ⟨w, regs, hregion, s₁, s₂, henter, hwrites, hexit⟩ := hcall.enter
  cases henter
  have hinv₁ : (s.enterWrap p w regs before true).Inv := hinv.step_ok (e := .enterWrap p w regs before true) rfl
  obtain ⟨hinv₂, h₂, hframes₂⟩ := hwrites.appends hinv₁ h
  obtain ⟨recorded, rest, k', hframes, rfl, hwrapped⟩ :=
    (exitWrap_cases hinv₂ p (applyWrites before ws) true allocs).of_ok hexit
  -- the wrapper that returns is the one that has read the region
  have hrecorded : recorded = some m := by
    rw [hframes₂, enterWrap, frames_move_self, hregion] at hframes
    cases hframes
    rfl
  have hcopies : wrapCopies recorded (applyWrites before ws) true allocs =
      (byteDiffs m.ptr 0 m.mem new).take (granted allocs) := by
    simp [hrecorded, wrapCopies, hcall.read]
  rw [hcopies] at hwrapped
  exact ⟨hwrapped.current.trans h₂.1, hwrapped.value q _ h₂.1 h₂.2⟩

theorem length_preWrapSyscall {k : Kernel} {w : SyscallWrapper} {regs : PtRegs} {mem : UserMem}
    {m : SyscallRecordedMem} (h : k.preWrapSyscall p w regs mem true = some m) :
    m.mem.length = m.len.toNat := by
  simp only [Kernel.preWrapSyscall, SyscallWrapper.readRegion] at h
  split_ifs at h
  simp only [Option.map_eq_some_iff] at h
  obtain ⟨bytes, hbytes, rfl⟩ := h
  exact length_copyFromUser hbytes

/-- The two memories agree on the region. -/
def SameRegionBytes (m : SyscallRecordedMem) (mem mem' : ByteMemory) : Prop :=
  ∀ i < m.len.toNat, mem (m.ptr + BitVec.ofNat 64 i) = mem' (m.ptr + BitVec.ofNat 64 i)

/-- Every byte for which no difference is appended ends as the hooked writes alone leave it. -/
def HookedBytesLast (m : SyscallRecordedMem) (before : ByteMemory) (ws : List KernelWrite)
    (new : List Byte) (allocs : List (Option Ptr)) : Prop :=
  ∀ i < m.len.toNat, ¬DiffAppended m.mem new (granted allocs) i →
    (lastHooked ws (m.ptr + BitVec.ofNat 64 i)).or (before (m.ptr + BitVec.ofNat 64 i)) =
      applyWrites before ws (m.ptr + BitVec.ofNat 64 i)

/-- The copies recorded for a wrapped call turn the region as it was before into what it is after
exactly if no byte ends with a value that the last hooked write to it has not put there and that is no
difference either. -/
theorem reproduces_iff_hookedBytesLast {pid : Int} {taskPtRegs : Pid → PtRegs} {es : List Event}
    (hrun : run step (init pid taskPtRegs) es = .ok s) {m : SyscallRecordedMem} {before : ByteMemory}
    {ws : List KernelWrite} {new : List Byte} {allocs : List (Option Ptr)}
    (hcall : WrappedCall p s m before ws new allocs s') {R' : Record} (hR : s.OpenAt q R)
    (hR' : s'.OpenAt q R') :
    SameRegionBytes m ((R'.copiesToUser.drop R.copiesToUser.length).foldl CopyRecord.apply before)
        (applyWrites before ws) ↔
      HookedBytesLast m before ws new allocs := by
  have hinv : s.Inv := (inv_run pid taskPtRegs es).of_ok hrun
  obtain ⟨w, regs, hregion, _⟩ := hcall.enter
  have hlen := length_preWrapSyscall hregion
  have hnew := length_copyFromUser hcall.read
  have hcopies : R'.copiesToUser.drop R.copiesToUser.length =
      ws.flatMap KernelWrite.copies ++ (byteDiffs m.ptr 0 m.mem new).take (granted allocs) := by
    have hvalue := (hcall.appends hinv hR).2
    rw [hR'.2] at hvalue
    rw [Option.some.inj hvalue, addCopies_copies, addCopies_copies, List.append_assoc, List.drop_left]
  -- the appended differences set their bytes, the others are as the hooks leave them
  have hbyte : ∀ i < m.len.toNat,
      (R'.copiesToUser.drop R.copiesToUser.length).foldl CopyRecord.apply before
          (m.ptr + BitVec.ofNat 64 i) =
        if DiffAppended m.mem new (granted allocs) i then
          applyWrites before ws (m.ptr + BitVec.ofNat 64 i)
        else (lastHooked ws (m.ptr + BitVec.ofNat 64 i)).or (before (m.ptr + BitVec.ofNat 64 i)) := by
    intro i hi
    have hlt := m.len.isLt
    have hdiffs := foldl_byteDiffs m.ptr m.mem new
      ((ws.flatMap KernelWrite.copies).foldl CopyRecord.apply before) 0 (granted allocs) i
      (hlen.trans hnew.symm) (by omega) (by omega)
    have hget : new[i]? = applyWrites before ws (m.ptr + BitVec.ofNat 64 i) := by
      have hnewlt : i < new.length := by omega
      have hsome : new[i]? = some new[i] := List.getElem?_eq_getElem hnewlt
      rw [hsome, copyFromUser_getElem? hcall.read hsome]
    rw [Nat.zero_add, hget, foldl_hooked_eq] at hdiffs
    rw [hcopies, List.foldl_append, hdiffs]
  refine forall₂_congr fun i hi => ?_
  rw [hbyte i hi]
  split_ifs with hdiff
  · exact iff_of_true rfl fun hnot => absurd hdiff hnot
  · exact ⟨fun h _ => h, fun h => h hdiff⟩

/-- A region of one byte, which holds 0. -/
def oneByteRegion : SyscallRecordedMem where
  ptr := 1
  len := 1
  mem := [0]

def oneByteBefore : ByteMemory := fun x => if x = 1 then some 0 else none

/-- `put_user` of 1 to the byte, as the hooks record it. -/
def putOne : CopyRecord := ProbedFn.putUser1.written (fun _ => 1) (fun _ => 0)

/-- The state after a run that is known to succeed. -/
def after (s : Sys) (es : List Event) : Sys :=
  match run step s es with
  | .ok s' => s'
  | .error _ => s

/-- Process 1 is inside a recorded syscall. -/
def inSyscall : Sys :=
  after (init 1 fun _ _ => 0) [.enterSyscall 1 (fun _ => 1) (some 16)]

/-- It is inside `getdents64`, which has put 1 into the region. -/
def afterPut : Sys :=
  after inSyscall [.enterWrap 1 .getdents64 (fun _ => 1) oneByteBefore true,
    .enterWrite 1 .putUser1 (fun _ => 1) (some 32), .exitWrite 1 0 (fun _ => 0)]

/-- It has left `getdents64` with the memory `mem`. -/
def afterCall (mem : UserMem) : Sys :=
  after afterPut [.exitWrap 1 mem true [some 48]]

theorem writes_putOne {ws : List KernelWrite}
    (hrest : Writes 1 afterPut ws afterPut) :
    Writes 1 (inSyscall.enterWrap 1 .getdents64 (fun _ => 1) oneByteBefore true) (.hooked putOne :: ws)
      afterPut :=
  @Writes.hooked 1 _ _ _ _ .putUser1 (fun _ => 1) (some 32) (fun _ => 0) _ rfl rfl rfl hrest

/-- A `__put_user` that the hooked `put_user` overwrites. -/
theorem reproduces_iff_hookedBytesLast_putOne :
    ∃ R R', inSyscall.OpenAt 16 R ∧
      (afterCall (applyWrites oneByteBefore [.unhooked 1 [2], .hooked putOne])).OpenAt 16 R' ∧
      SameRegionBytes oneByteRegion
        ((R'.copiesToUser.drop R.copiesToUser.length).foldl CopyRecord.apply oneByteBefore)
        (applyWrites oneByteBefore [.unhooked 1 [2], .hooked putOne]) := by
  have hrun : run step (init 1 fun _ _ => 0) [.enterSyscall 1 (fun _ => 1) (some 16)] =
      .ok inSyscall := rfl
  have hcall : WrappedCall 1 inSyscall oneByteRegion oneByteBefore [.unhooked 1 [2], .hooked putOne]
      [1] [some 48] (afterCall (applyWrites oneByteBefore [.unhooked 1 [2], .hooked putOne])) :=
    ⟨⟨.getdents64, fun _ => 1, rfl, _, afterPut, rfl, .unhooked 1 [2] (writes_putOne (.done _)), rfl⟩,
      rfl⟩
  refine ⟨_, _, ⟨rfl, rfl⟩, ⟨rfl, rfl⟩, ?_⟩
  refine (reproduces_iff_hookedBytesLast hrun hcall ⟨rfl, rfl⟩ ⟨rfl, rfl⟩).2 ?_
  intro i hi _
  obtain rfl : i = 0 := Nat.lt_one_iff.1 hi
  decide

/-- A hooked `put_user` that a `__put_user` takes back. -/
theorem not_reproduces_takenBack :
    WrappedCall 1 inSyscall oneByteRegion oneByteBefore [.hooked putOne, .unhooked 1 [0]] [0] [some 48]
        (afterCall (applyWrites oneByteBefore [.hooked putOne, .unhooked 1 [0]])) ∧
      ∃ R R', inSyscall.OpenAt 16 R ∧
        (afterCall (applyWrites oneByteBefore [.hooked putOne, .unhooked 1 [0]])).OpenAt 16 R' ∧
        ¬SameRegionBytes oneByteRegion
          ((R'.copiesToUser.drop R.copiesToUser.length).foldl CopyRecord.apply oneByteBefore)
          (applyWrites oneByteBefore [.hooked putOne, .unhooked 1 [0]]) := by
  refine ⟨⟨⟨.getdents64, fun _ => 1, rfl, _, afterPut, rfl, writes_putOne (.unhooked 1 [0] (.done _)),
    rfl⟩, rfl⟩, _, _, ⟨rfl, rfl⟩, ⟨rfl, rfl⟩, fun h => ?_⟩
  have hbyte := h 0 (by decide)
  exact absurd hbyte (by decide)

end Sys

end RrPython
