import Mathlib.Data.List.Basic
import RrPython.Foundation.FittingPrefix
import RrPython.Recorder.Heap

/-!
# Dumper — reading the FIFO out through `/proc/syscall_dumper`

`dump_single_record`, `dump_records` and `read_proc` of `syscall_dumper.c`.  `read_proc` holds the
FIFO's mutex while it dumps, as `post_syscall` does while it pushes, so a read is one event.
-/

namespace RrPython

open Foundation

/-- One call of `read`. -/
structure ReadArgs where
  buf : Word
  size : Word
  nonblock : Bool
  /-- A signal is pending when the reader, having slept on an empty FIFO, wakes up. -/
  signalPending : Bool
  /-- What the `copy_to_user` calls of this read will fail to copy. -/
  faults : List Nat

/-- The reader's memory at the start of the read. -/
def ReadArgs.user (r : ReadArgs) : UserSpace where
  faults := r.faults

namespace Kernel

def generalDumpError : Int := 1

def shortWriteError : Int := 2

def einval : Int := 22

def efault : Int := 14

def erestartsys : Int := 512

/-- The record at `p` with its copies, as the dump functions walk it. -/
def readRecord (k : Kernel) (p : Ptr) : Except Fault Record :=
  match heapRecord k.heap p with
  | some r => .ok r
  | none => .error .badDeref

def dumpSingleRecord (k : Kernel) (buf size : Word) (u : UserSpace) :
    Except Fault (Kernel × UserSpace × Int) :=
  match k.recordedSyscalls with
  -- cleanup frees the uninitialised `syscall_record`
  | [] => .error .badFree
  | p :: rest => do
      let k := { k with recordedSyscalls := rest }
      let r ← k.readRecord p
      let len := getRecordLen r
      -- the record has left the FIFO and is neither put back nor freed
      if size < len then pure (k, u, -shortWriteError)
      else
        let (u, ret) := dumpSyscallRecord r buf u
        if ret ≠ 0 then
          let k ← k.freeSyscallRecord p
          pure (k, u, -generalDumpError)
        else
          let (u, ret) := dumpCopyRecords r.copiesToUser (buf + sizeofSyscallDump) u
          if ret ≠ 0 then
            let k ← k.freeSyscallRecord p
            pure (k, u, -generalDumpError)
          else
            let k ← k.freeSyscallRecord p
            -- `ssize_t`
            pure (k, u, len.toInt)

/-- The `do … while` loop of `dump_records`; `fuel` bounds the iterations, each of which takes one
record out of the FIFO. -/
def dumpRecordsLoop : Nat → Kernel → Word → Word → UserSpace → Int → Bool →
    Except Fault (Kernel × UserSpace × Int)
  | 0, _, _, _, _, _, _ => .error .impossible
  | fuel + 1, k, buf, size, u, sizeWritten, didDoFirstWrite => do
      let (k, u, dumpRet) ← k.dumpSingleRecord buf size u
      if dumpRet = -shortWriteError then
        pure (k, u, if didDoFirstWrite then sizeWritten else -einval)
      else if dumpRet = -generalDumpError then pure (k, u, -efault)
      else if k.recordedSyscalls.isEmpty then pure (k, u, sizeWritten + dumpRet)
      else
        dumpRecordsLoop fuel k (buf + BitVec.ofInt 64 dumpRet) (size - BitVec.ofInt 64 dumpRet) u
          (sizeWritten + dumpRet) true

def dumpRecords (k : Kernel) (buf size : Word) (u : UserSpace) :
    Except Fault (Kernel × UserSpace × Int) :=
  dumpRecordsLoop (max 1 k.recordedSyscalls.length) k buf size u 0 false

/-- `read_proc`.  A reader that sleeps and is not interrupted comes back once the FIFO is filled;
that call is the event of the later moment. -/
def readProc (k : Kernel) (r : ReadArgs) : Except Fault (Kernel × UserSpace × Int) :=
  if k.recordedSyscalls.isEmpty then
    if r.nonblock then .ok (k, r.user, 0)
    else if r.signalPending then .ok (k, r.user, -erestartsys)
    else .error .impossible
  else k.dumpRecords r.buf r.size r.user

/-! ## One record -/

/-- A record that does not fit leaves the FIFO without a byte having been written. -/
theorem dumpSingleRecord_short {k : Kernel} {p : Ptr} {rest : List Ptr}
    (hfifo : k.recordedSyscalls = p :: rest) {R : Record} (hR : heapRecord k.heap p = some R)
    (buf : Word) {size : Word} (hsize : size < getRecordLen R) (u : UserSpace) :
    k.dumpSingleRecord buf size u =
      .ok ({ k with recordedSyscalls := rest }, u, -shortWriteError) := by
  have hread : { k with recordedSyscalls := rest }.readRecord p = .ok R := by
    simp [readRecord, hR]
  simp [dumpSingleRecord, hfifo, hread, bind, Except.bind, pure, Except.pure, hsize]

/-- A record that fits: `dump_single_record` goes on to `dump_syscall_record`. -/
theorem dumpSingleRecord_long {k : Kernel} (h : HeapOk k.heap) {p : Ptr} {rest : List Ptr}
    (hfifo : k.recordedSyscalls = p :: rest) {r : SyscallRecord Ptr}
    (hr : k.heap p = some (.syscallRecord r)) {R : Record} (hR : heapRecord k.heap p = some R)
    (buf : Word) {size : Word} (hfits : ¬size < getRecordLen R) (u : UserSpace) :
    k.dumpSingleRecord buf size u =
      let freed := { k with recordedSyscalls := rest, heap := freedHeap k.heap p r }
      let (u, ret) := dumpSyscallRecord R buf u
      if ret ≠ 0 then .ok (freed, u, -generalDumpError)
      else
        let (u, ret) := dumpCopyRecords R.copiesToUser (buf + sizeofSyscallDump) u
        if ret ≠ 0 then .ok (freed, u, -generalDumpError)
        else .ok (freed, u, (getRecordLen R).toInt) := by
  have hread : { k with recordedSyscalls := rest }.readRecord p = .ok R := by
    simp [readRecord, hR]
  have hfree := Kernel.freeSyscallRecord_ok (k := { k with recordedSyscalls := rest }) h hr
  simp only [dumpSingleRecord, hfifo, hread, bind, Except.bind, pure, Except.pure, if_neg hfits,
    hfree]

/-- What `dump_single_record` does to the module: the oldest record leaves the FIFO and is freed,
unless it did not fit. -/
theorem dumpSingleRecord_kernel {k : Kernel} (h : HeapOk k.heap) {p : Ptr} {rest : List Ptr}
    (hfifo : k.recordedSyscalls = p :: rest) {r : SyscallRecord Ptr}
    (hr : k.heap p = some (.syscallRecord r)) (buf size : Word) (u : UserSpace) :
    ∃ (k' : Kernel) (u' : UserSpace) (n : Int),
      k.dumpSingleRecord buf size u = .ok (k', u', n) ∧
      (k' = { k with recordedSyscalls := rest } ∨
        k' = { k with recordedSyscalls := rest, heap := freedHeap k.heap p r }) := by
  obtain ⟨cs, _, _, hR⟩ := h.heapRecord_eq hr
  by_cases hfits : size < getRecordLen { r with copiesToUser := cs }
  · exact ⟨_, _, _, dumpSingleRecord_short hfifo hR buf hfits u, Or.inl rfl⟩
  · rw [dumpSingleRecord_long h hfifo hr hR buf hfits u]
    dsimp only
    -- stored whole or in part, it is freed
    split
    · exact ⟨_, _, _, rfl, Or.inr rfl⟩
    · split
      · exact ⟨_, _, _, rfl, Or.inr rfl⟩
      · exact ⟨_, _, _, rfl, Or.inr rfl⟩

/-- A record that fits is stored in pieces from `buf` on and freed. -/
theorem dumpSingleRecord_serves {k : Kernel} (h : HeapOk k.heap) {p : Ptr} {rest : List Ptr}
    (hfifo : k.recordedSyscalls = p :: rest) {r : SyscallRecord Ptr}
    (hr : k.heap p = some (.syscallRecord r)) {R : Record} (hR : heapRecord k.heap p = some R)
    (hsized : ∀ c ∈ R.copiesToUser, c.Sized) (buf : Word) {size : Word}
    (hsize : R.dumpLen ≤ size.toNat) (hlt : R.dumpLen < 2 ^ 63) {u : UserSpace}
    (hu : u.Serves (Record.chunks R).length) :
    ∃ u' : UserSpace, k.dumpSingleRecord buf size u =
        .ok ({ k with recordedSyscalls := rest, heap := freedHeap k.heap p r }, u', R.dumpLen) ∧
      u'.faults = u.faults.drop (Record.chunks R).length ∧
      u'.writes = u.writes ++ layOut buf (Record.chunks R) := by
  have hlen : (getRecordLen R).toNat = R.dumpLen := getRecordLen_toNat hsized (by omega)
  have hfits : ¬size < getRecordLen R := by
    rw [BitVec.lt_def, hlen]
    omega
  have hret : (getRecordLen R).toInt = (R.dumpLen : Int) := by
    rw [BitVec.toInt_eq_toNat_of_lt (by omega), hlen]
  -- the header goes to `buf`, and the copies follow behind it
  rw [Record.length_chunks, Nat.add_comm] at hu ⊢
  obtain ⟨u₁, hheader, hf₁, hw₁⟩ :=
    dumpSyscallRecord_serves R buf (hu.of_le (Nat.le_add_right 1 _))
  obtain ⟨u₂, hcopies, hf₂, hw₂⟩ := dumpCopyRecords_serves hsized (buf + sizeofSyscallDump)
    ((UserSpace.serves_add hf₁).1 hu).2
  refine ⟨u₂, ?_, ?_, ?_⟩
  · rw [dumpSingleRecord_long h hfifo hr hR buf hfits u]
    simp [hheader, hcopies, hret]
  · rw [hf₂, hf₁, List.drop_drop]
  · have hheaderLen : BitVec.ofNat 64 R.dumpHeader.length = sizeofSyscallDump := by
      rw [R.length_dumpHeader]
      rfl
    rw [hw₂, hw₁, List.append_assoc, Record.chunks, layOut, hheaderLen]
    rfl

/-- A record of which a piece cannot be stored is freed all the same. -/
theorem dumpSingleRecord_fails {k : Kernel} (h : HeapOk k.heap) {p : Ptr} {rest : List Ptr}
    (hfifo : k.recordedSyscalls = p :: rest) {r : SyscallRecord Ptr}
    (hr : k.heap p = some (.syscallRecord r)) {R : Record} (hR : heapRecord k.heap p = some R)
    (hsized : ∀ c ∈ R.copiesToUser, c.Sized) (buf : Word) {size : Word}
    (hfits : ¬size < getRecordLen R) {u : UserSpace} (hu : ¬u.Serves (Record.chunks R).length) :
    ∃ u' : UserSpace, k.dumpSingleRecord buf size u =
      .ok ({ k with recordedSyscalls := rest, heap := freedHeap k.heap p r }, u',
        -generalDumpError) := by
  rw [dumpSingleRecord_long h hfifo hr hR buf hfits u]
  rw [Record.length_chunks, Nat.add_comm] at hu
  by_cases hfirst : u.Serves 1
  · obtain ⟨u₁, hheader, hf₁, _⟩ := dumpSyscallRecord_serves R buf hfirst
    obtain ⟨u₂, hcopies⟩ := dumpCopyRecords_fails hsized (buf + sizeofSyscallDump) fun hrest =>
      hu ((UserSpace.serves_add hf₁).2 ⟨hfirst, hrest⟩)
    exact ⟨u₂, by simp [hheader, hcopies]⟩
  · obtain ⟨u₁, hheader⟩ := dumpSyscallRecord_fails R buf hfirst
    exact ⟨u₁, by simp [hheader]⟩

end Kernel

/-! ## A whole read -/

/-- The bytes that the dumps of `rs` take. -/
def dumpsLen (rs : List Record) : Nat :=
  (rs.map Record.dumpLen).sum

/-- How a read of at most `size` bytes splits the queued records: it hands out `delivered`, the
first record that does not fit is `lost`, and `left` stays queued. -/
structure ReadSplit (size : Nat) (queued delivered lost left : List Record) : Prop where
  queued_eq : queued = delivered ++ lost ++ left
  delivered_le : dumpsLen delivered ≤ size
  lost_iff : lost = [] ↔ dumpsLen queued ≤ size
  left_nil : lost = [] → left = []

/-- The longest prefix that fits is handed out, and the next record is lost. -/
theorem readSplit_fittingPrefix (size : Nat) (rs : List Record) :
    ReadSplit size rs (fittingPrefix Record.dumpLen size rs)
      ((rs.drop (fittingPrefix Record.dumpLen size rs).length).take 1)
      ((rs.drop (fittingPrefix Record.dumpLen size rs).length).drop 1) := by
  have hlongest := fittingPrefix_longest Record.dumpLen size rs
  refine ⟨?_, hlongest.fits, ?_, ?_⟩
  · rw [List.append_assoc, List.take_append_drop]
    exact (List.prefix_iff_eq_append.1 hlongest.isPrefix).symm
  · rw [List.take_eq_nil_iff, or_iff_right Nat.one_ne_zero]
    exact drop_fittingPrefix_eq_nil_iff
  · intro hlost
    rw [List.take_eq_nil_iff, or_iff_right Nat.one_ne_zero] at hlost
    rw [hlost]
    rfl

/-- The records the FIFO points to. -/
def Kernel.queued (k : Kernel) : List Record :=
  k.recordedSyscalls.filterMap (heapRecord k.heap)

/-- The FIFO points to allocated records. -/
def Kernel.QueueLive (k : Kernel) : Prop :=
  ∀ p ∈ k.recordedSyscalls, ∃ r, k.heap p = some (.syscallRecord r)

/-- A record that the dump functions measure and store as it is. -/
structure Record.Dumpable (r : Record) : Prop where
  copies : ∀ c ∈ r.copiesToUser, c.Sized
  dumpLen_lt : Record.dumpLen r < 2 ^ 64

namespace Kernel

theorem queued_cons {k : Kernel} {p : Ptr} {rest : List Ptr} (hfifo : k.recordedSyscalls = p :: rest)
    {R : Record} (hR : heapRecord k.heap p = some R) :
    k.queued = R :: { k with recordedSyscalls := rest }.queued := by
  simp [queued, hfifo, hR]

/-- Freeing the oldest record leaves the others as they were. -/
theorem queued_freed {k : Kernel} (h : HeapOk k.heap) {p : Ptr} {rest : List Ptr}
    {r : SyscallRecord Ptr} (hr : k.heap p = some (.syscallRecord r)) (hp : p ∉ rest)
    (hlive : ∀ q ∈ rest, ∃ s, k.heap q = some (.syscallRecord s)) :
    { k with recordedSyscalls := rest, heap := freedHeap k.heap p r }.queued =
      { k with recordedSyscalls := rest }.queued := by
  refine List.filterMap_congr fun q hq => ?_
  obtain ⟨s, hs⟩ := hlive q hq
  have hqp : q ≠ p := by
    rintro rfl
    exact hp hq
  exact h.heapRecord_freedHeap hr hs hqp

theorem QueueLive.freed {k : Kernel} (hlive : k.QueueLive) (h : HeapOk k.heap) {p : Ptr}
    {rest : List Ptr} (hfifo : k.recordedSyscalls = p :: rest) (hp : p ∉ rest)
    {r : SyscallRecord Ptr} (hr : k.heap p = some (.syscallRecord r)) :
    { k with recordedSyscalls := rest, heap := freedHeap k.heap p r }.QueueLive := by
  intro q hq
  have hqp : q ≠ p := by
    rintro rfl
    exact hp hq
  obtain ⟨s, hs⟩ := hlive q (by rw [hfifo]; exact List.mem_cons_of_mem p hq)
  exact ⟨s, (h.freedHeap_record hr hs hqp).trans hs⟩

/-- The records in the FIFO are as the loop of `dump_records` needs them for a buffer of `size`
bytes: the length of one that fits is a positive `ssize_t`. -/
structure Dumping (k : Kernel) (size : Nat) : Prop where
  heap : HeapOk k.heap
  live : k.QueueLive
  nodup : k.recordedSyscalls.Nodup
  dumpable : ∀ r ∈ k.queued, r.Dumpable
  returned : ∀ r ∈ k.queued, r.dumpLen ≤ size → r.dumpLen < 2 ^ 63

/-- The oldest record, and the FIFO once it has been freed. -/
theorem Dumping.oldest {k : Kernel} {size : Nat} (h : k.Dumping size)
    (hne : k.recordedSyscalls ≠ []) :
    ∃ (p : Ptr) (rest : List Ptr) (r : SyscallRecord Ptr) (R : Record),
      k.recordedSyscalls = p :: rest ∧ k.heap p = some (.syscallRecord r) ∧
      heapRecord k.heap p = some R ∧
      k.queued = R :: { k with recordedSyscalls := rest, heap := freedHeap k.heap p r }.queued ∧
      { k with recordedSyscalls := rest, heap := freedHeap k.heap p r }.Dumping
        (size - R.dumpLen) := by
  obtain ⟨p, rest, hfifo⟩ := List.exists_cons_of_ne_nil hne
  obtain ⟨r, hr⟩ := h.live p (by simp [hfifo])
  obtain ⟨R, hR⟩ : ∃ R : Record, heapRecord k.heap p = some R := by
    obtain ⟨cs, _, _, hcs⟩ := h.heap.heapRecord_eq hr
    exact ⟨_, hcs⟩
  obtain ⟨hprest, hrestNodup⟩ := List.nodup_cons.1 (hfifo ▸ h.nodup)
  have hrest : ∀ q ∈ rest, ∃ s, k.heap q = some (.syscallRecord s) := by
    intro q hq
    apply h.live
    rw [hfifo]
    exact List.mem_cons_of_mem p hq
  have hqueued : k.queued =
      R :: { k with recordedSyscalls := rest, heap := freedHeap k.heap p r }.queued := by
    rw [queued_cons hfifo hR, queued_freed h.heap hr hprest hrest]
  have hmem : ∀ s ∈ { k with recordedSyscalls := rest, heap := freedHeap k.heap p r }.queued,
      s ∈ k.queued := by
    intro s hs
    rw [hqueued]
    exact List.mem_cons_of_mem R hs
  refine ⟨p, rest, r, R, hfifo, hr, hR, hqueued, h.heap.freeRecord hr,
    h.live.freed h.heap hfifo hprest hr, hrestNodup, fun s hs => h.dumpable s (hmem s hs), ?_⟩
  intro s hs hle
  exact h.returned s (hmem s hs) (hle.trans (Nat.sub_le size R.dumpLen))

/-- One turn of the loop that stores a record of `n` bytes. -/
theorem dumpRecordsLoop_next {k k₁ : Kernel} {u u₁ : UserSpace} {buf size : Word} {n : Nat}
    (hsingle : k.dumpSingleRecord buf size u = .ok (k₁, u₁, n)) (fuel : Nat) (sizeWritten : Int)
    (didDoFirstWrite : Bool) :
    dumpRecordsLoop (fuel + 1) k buf size u sizeWritten didDoFirstWrite =
      if k₁.recordedSyscalls.isEmpty then .ok (k₁, u₁, sizeWritten + n)
      else
        dumpRecordsLoop fuel k₁ (buf + BitVec.ofNat 64 n) (size - BitVec.ofNat 64 n) u₁
          (sizeWritten + n) true := by
  have hshort : (n : Int) ≠ -shortWriteError := by
    simp only [shortWriteError]
    omega
  have hgeneral : (n : Int) ≠ -generalDumpError := by
    simp only [generalDumpError]
    omega
  simp only [dumpRecordsLoop, hsingle, bind, Except.bind, pure, Except.pure, hshort, hgeneral,
    if_false, BitVec.ofInt_natCast]

/-- The records that a buffer of `size` bytes holds. -/
def fitting (k : Kernel) (size : Nat) : List Record :=
  fittingPrefix Record.dumpLen size k.queued

/-- How the loop of `dump_records` ends that starts with `k`, `buf`, `size` and `u`. -/
structure LoopResult (k : Kernel) (buf size : Word) (u : UserSpace) (sizeWritten : Int)
    (didDoFirstWrite : Bool) (k' : Kernel) (u' : UserSpace) (n : Int) : Prop where
  shorter : k'.queued.length < k.queued.length
  fails : ¬u.Serves ((k.fitting size.toNat).flatMap Record.chunks).length → n = -efault
  returns : u.Serves ((k.fitting size.toNat).flatMap Record.chunks).length →
    n = if didDoFirstWrite = true ∨ k.fitting size.toNat ≠ [] then
      sizeWritten + dumpsLen (k.fitting size.toNat) else -einval
  left : u.Serves ((k.fitting size.toNat).flatMap Record.chunks).length →
    k'.queued = (k.queued.drop (k.fitting size.toNat).length).drop 1
  writes : u.Serves ((k.fitting size.toNat).flatMap Record.chunks).length →
    u'.writes = u.writes ++ layOut buf ((k.fitting size.toNat).flatMap Record.chunks)

namespace LoopResult

variable {k k₁ k' : Kernel} {buf size : Word} {u u₁ u' : UserSpace} {sizeWritten n : Int}
  {didDoFirstWrite : Bool} {R : Record}

/-- The oldest record does not fit. -/
theorem short (hqueued : k.queued = R :: k₁.queued) (hfits : size.toNat < R.dumpLen) :
    LoopResult k buf size u sizeWritten didDoFirstWrite k₁ u
      (if didDoFirstWrite then sizeWritten else -einval) := by
  have hnone : k.fitting size.toNat = [] := by
    rw [fitting, hqueued, fittingPrefix_of_lt hfits]
  refine ⟨?_, ?_, fun _ => ?_, fun _ => ?_, fun _ => ?_⟩
  · rw [hqueued]
    exact Nat.lt_succ_self _
  · rw [hnone]
    exact fun hfails => absurd u.serves_zero hfails
  · simp [hnone, dumpsLen]
  · rw [hnone, hqueued]
    rfl
  · simp [hnone, layOut]

/-- The oldest record fits, and one of its pieces cannot be stored. -/
theorem fault (hqueued : k.queued = R :: k₁.queued) (hfits : R.dumpLen ≤ size.toNat)
    (hu : ¬u.Serves (Record.chunks R).length) :
    LoopResult k buf size u sizeWritten didDoFirstWrite k₁ u' (-efault) := by
  have hnot : ¬u.Serves ((k.fitting size.toNat).flatMap Record.chunks).length := by
    rw [fitting, hqueued, fittingPrefix_of_le hfits, List.flatMap_cons, List.length_append]
    exact fun hall => hu (hall.of_le (Nat.le_add_right _ _))
  refine ⟨?_, fun _ => rfl, fun hall => absurd hall hnot, fun hall => absurd hall hnot,
    fun hall => absurd hall hnot⟩
  rw [hqueued]
  exact Nat.lt_succ_self _

/-- The only record fits and is stored. -/
theorem last (hqueued : k.queued = [R]) (hqueued₁ : k₁.queued = []) (hfits : R.dumpLen ≤ size.toNat)
    (hu : u.Serves (Record.chunks R).length)
    (hw : u₁.writes = u.writes ++ layOut buf (Record.chunks R)) :
    LoopResult k buf size u sizeWritten didDoFirstWrite k₁ u₁ (sizeWritten + R.dumpLen) := by
  have hone : k.fitting size.toNat = [R] := by
    rw [fitting, hqueued, fittingPrefix_of_le hfits, fittingPrefix_nil]
  have hchunks : (k.fitting size.toNat).flatMap Record.chunks = Record.chunks R := by
    simp [hone]
  refine ⟨?_, ?_, fun _ => ?_, fun _ => ?_, fun _ => ?_⟩
  · rw [hqueued, hqueued₁]
    exact Nat.lt_succ_self _
  · rw [hchunks]
    exact fun hfails => absurd hu hfails
  · simp [hone, dumpsLen]
  · rw [hone, hqueued, hqueued₁]
    rfl
  · rw [hchunks, hw]

/-- The oldest record fits and is stored, and the loop goes on behind its dump. -/
theorem next (hqueued : k.queued = R :: k₁.queued) (hfits : R.dumpLen ≤ size.toNat)
    (hu : u.Serves (Record.chunks R).length)
    (hf : u₁.faults = u.faults.drop (Record.chunks R).length)
    (hw : u₁.writes = u.writes ++ layOut buf (Record.chunks R))
    (hsize : (size - BitVec.ofNat 64 R.dumpLen).toNat = size.toNat - R.dumpLen)
    (h : LoopResult k₁ (buf + BitVec.ofNat 64 R.dumpLen) (size - BitVec.ofNat 64 R.dumpLen) u₁
      (sizeWritten + R.dumpLen) true k' u' n) :
    LoopResult k buf size u sizeWritten didDoFirstWrite k' u' n := by
  obtain ⟨hshorter, hfails, hreturns, hleft, hwrites⟩ := h
  rw [hsize] at hfails hreturns hleft hwrites
  have hcons : k.fitting size.toNat = R :: k₁.fitting (size.toNat - R.dumpLen) := by
    rw [fitting, hqueued, fittingPrefix_of_le hfits]
    rfl
  have hserves : u.Serves ((k.fitting size.toNat).flatMap Record.chunks).length ↔
      u₁.Serves ((k₁.fitting (size.toNat - R.dumpLen)).flatMap Record.chunks).length := by
    rw [hcons, List.flatMap_cons, List.length_append, UserSpace.serves_add hf]
    exact and_iff_right hu
  refine ⟨?_, ?_, fun hall => ?_, fun hall => ?_, fun hall => ?_⟩
  · rw [hqueued]
    exact hshorter.trans (Nat.lt_succ_self _)
  · exact fun hnot => hfails fun hall => hnot (hserves.2 hall)
  · rw [hreturns (hserves.1 hall), hcons]
    simp [dumpsLen, Int.add_assoc]
  · rw [hleft (hserves.1 hall), hcons, hqueued]
    rfl
  · calc u'.writes
        = u₁.writes ++ layOut (buf + BitVec.ofNat 64 R.dumpLen)
            ((k₁.fitting (size.toNat - R.dumpLen)).flatMap Record.chunks) := hwrites (hserves.1 hall)
      _ = u.writes ++ (layOut buf (Record.chunks R) ++ layOut (buf + BitVec.ofNat 64 R.dumpLen)
            ((k₁.fitting (size.toNat - R.dumpLen)).flatMap Record.chunks)) := by
          rw [hw, List.append_assoc]
      _ = u.writes ++ layOut buf ((k.fitting size.toNat).flatMap Record.chunks) := by
          rw [hcons, List.flatMap_cons, layOut_append, Record.flatten_chunks, R.length_dump]

end LoopResult

/-- The loop of `dump_records` hands out the longest prefix that fits.  It returns an error exactly if
one of the pieces of that prefix cannot be stored, or if there is nothing to hand out at all. -/
theorem dumpRecordsLoop_contract :
    ∀ {fuel : Nat} {k : Kernel} {u : UserSpace} (buf size : Word) (sizeWritten : Int)
      (didDoFirstWrite : Bool), k.recordedSyscalls ≠ [] → k.recordedSyscalls.length ≤ fuel →
      k.Dumping size.toNat →
      ∃ (k' : Kernel) (u' : UserSpace) (n : Int),
        dumpRecordsLoop fuel k buf size u sizeWritten didDoFirstWrite = .ok (k', u', n) ∧
        LoopResult k buf size u sizeWritten didDoFirstWrite k' u' n := by
  intro fuel
  -- on the iterations that are left, which the length of the FIFO bounds
  induction fuel with
  | zero =>
      intro k u buf size w d hne hfuel
      exact absurd (List.length_eq_zero_iff.1 (Nat.le_zero.1 hfuel)) hne
  | succ fuel ih =>
      intro k u buf size w d hne hfuel hk
      obtain ⟨p, rest, r, R, hfifo, hr, hR, hqueued, hk₁⟩ := hk.oldest hne
      have hRmem : R ∈ k.queued := by
        rw [hqueued]
        exact List.mem_cons_self
      have hRdump : R.Dumpable := hk.dumpable R hRmem
      have hlen := getRecordLen_toNat hRdump.copies hRdump.dumpLen_lt
      -- does the oldest record fit into what is left of the buffer?
      by_cases hfits : R.dumpLen ≤ size.toNat
      · have hlong : ¬size < getRecordLen R := by
          rw [BitVec.lt_def, hlen]
          omega
        by_cases hu : u.Serves (Record.chunks R).length
        · obtain ⟨u₁, hsingle, hf₁, hw₁⟩ := dumpSingleRecord_serves hk.heap hfifo hr hR hRdump.copies
            buf hfits (hk.returned R hRmem hfits) hu
          rw [dumpRecordsLoop_next hsingle]
          by_cases hlast : rest = []
          · subst hlast
            exact ⟨_, u₁, _, rfl, .last hqueued rfl hfits hu hw₁⟩
          · have hsize : (size - BitVec.ofNat 64 R.dumpLen).toNat = size.toNat - R.dumpLen := by
              rw [BitVec.toNat_sub_of_le]
              · simp only [BitVec.toNat_ofNat]
                omega
              · rw [BitVec.le_def]
                simp only [BitVec.toNat_ofNat]
                omega
            have hmore : rest.isEmpty = false := by
              simpa using hlast
            have hfuel' : rest.length ≤ fuel := by
              rw [hfifo, List.length_cons] at hfuel
              exact Nat.le_of_succ_le_succ hfuel
            obtain ⟨k', u', n, hloop, hresult⟩ :=
              ih (u := u₁) (buf + BitVec.ofNat 64 R.dumpLen) (size - BitVec.ofNat 64 R.dumpLen)
                (w + R.dumpLen) true hlast hfuel' (hsize ▸ hk₁)
            refine ⟨k', u', n, ?_, hresult.next hqueued hfits hu hf₁ hw₁ hsize⟩
            simpa only [hmore, Bool.false_eq_true, if_false] using hloop
        · obtain ⟨u₁, hsingle⟩ :=
            dumpSingleRecord_fails hk.heap hfifo hr hR hRdump.copies buf hlong hu
          refine ⟨_, u₁, -efault, ?_, .fault hqueued hfits hu⟩
          simp [dumpRecordsLoop, hsingle, bind, Except.bind, pure, Except.pure, generalDumpError,
            shortWriteError]
      · -- it does not, and `kfifo_out` has taken it out all the same
        have hshort : size < getRecordLen R := by
          rw [BitVec.lt_def, hlen]
          omega
        have hsingle := dumpSingleRecord_short hfifo hR buf hshort u
        refine ⟨_, u, _, ?_, .short (queued_cons hfifo hR) (Nat.not_le.1 hfits)⟩
        simp only [dumpRecordsLoop, hsingle, bind, Except.bind, pure, Except.pure, if_true]

/-! ## Any read -/

section Invariant

variable {I : Kernel → Prop}

/-- What holds of the module however a read goes: each iteration takes the oldest record out of the
FIFO and perhaps frees it. -/
theorem dumpRecordsLoop_preserves (hlive : ∀ {k}, I k → HeapOk k.heap ∧ k.QueueLive)
    (hpop : ∀ {k p rest}, I k → k.recordedSyscalls = p :: rest →
      I { k with recordedSyscalls := rest })
    (hfree : ∀ {k p rest r}, I k → k.recordedSyscalls = p :: rest →
      k.heap p = some (.syscallRecord r) →
        I { k with recordedSyscalls := rest, heap := freedHeap k.heap p r }) :
    ∀ {fuel : Nat} {k : Kernel} {buf size : Word} {u : UserSpace} {sizeWritten : Int}
      {didDoFirstWrite : Bool}, k.recordedSyscalls ≠ [] → k.recordedSyscalls.length ≤ fuel → I k →
      ∃ (k' : Kernel) (u' : UserSpace) (n : Int),
        dumpRecordsLoop fuel k buf size u sizeWritten didDoFirstWrite = .ok (k', u', n) ∧ I k' := by
  intro fuel
  induction fuel with
  | zero =>
      intro k buf size u w d hne hfuel
      exact absurd (List.length_eq_zero_iff.1 (Nat.le_zero.1 hfuel)) hne
  | succ fuel ih =>
      intro k buf size u w d hne hfuel hI
      obtain ⟨p, rest, hfifo⟩ := List.exists_cons_of_ne_nil hne
      obtain ⟨hok, hqueue⟩ := hlive hI
      obtain ⟨r, hr⟩ := hqueue p (by simp [hfifo])
      obtain ⟨k₁, u₁, n, hsingle, hk₁⟩ := dumpSingleRecord_kernel hok hfifo hr buf size u
      -- whatever became of the record, the rest of the loop starts from a state with `I`
      have hI₁ : I k₁ := by
        rcases hk₁ with rfl | rfl
        · exact hpop hI hfifo
        · exact hfree hI hfifo hr
      have hrest : k₁.recordedSyscalls = rest := by
        rcases hk₁ with rfl | rfl <;> rfl
      simp only [dumpRecordsLoop, hsingle, bind, Except.bind, pure, Except.pure]
      split
      · exact ⟨_, _, _, rfl, hI₁⟩
      · split
        · exact ⟨_, _, _, rfl, hI₁⟩
        · split
          · exact ⟨_, _, _, rfl, hI₁⟩
          · rename_i hmore
            refine ih ?_ ?_ hI₁
            · simpa using hmore
            · rw [hfifo, List.length_cons] at hfuel
              rw [hrest]
              exact Nat.le_of_succ_le_succ hfuel

theorem readProc_preserves (hlive : ∀ {k}, I k → HeapOk k.heap ∧ k.QueueLive)
    (hpop : ∀ {k p rest}, I k → k.recordedSyscalls = p :: rest →
      I { k with recordedSyscalls := rest })
    (hfree : ∀ {k p rest r}, I k → k.recordedSyscalls = p :: rest →
      k.heap p = some (.syscallRecord r) →
        I { k with recordedSyscalls := rest, heap := freedHeap k.heap p r })
    {k : Kernel} (hI : I k) (r : ReadArgs) :
    k.readProc r = .error .impossible ∨
      ∃ (k' : Kernel) (u' : UserSpace) (n : Int), k.readProc r = .ok (k', u', n) ∧ I k' := by
  simp only [readProc]
  split
  · split
    · exact Or.inr ⟨_, _, _, rfl, hI⟩
    · split
      · exact Or.inr ⟨_, _, _, rfl, hI⟩
      · exact Or.inl rfl
  · rename_i hne
    have hnil : k.recordedSyscalls ≠ [] := by
      simpa using hne
    exact Or.inr (dumpRecordsLoop_preserves hlive hpop hfree hnil (Nat.le_max_right 1 _) hI)

end Invariant

/-- A read of a filled FIFO on a reader whose memory is writable. -/
theorem readProc_reliable {k : Kernel} (hne : k.recordedSyscalls ≠ []) (hok : HeapOk k.heap)
    (hlive : k.QueueLive) (hnodup : k.recordedSyscalls.Nodup) (hdump : ∀ r ∈ k.queued, r.Dumpable)
    {r : ReadArgs} (hlt : r.size.toNat < 2 ^ 63) (hu : r.user.Reliable) :
    ∃ (k' : Kernel) (u' : UserSpace) (delivered lost left : List Record),
      k.readProc r = .ok (k', u', if lost.isEmpty || !delivered.isEmpty then dumpsLen delivered
        else -einval) ∧
      ReadSplit r.size.toNat k.queued delivered lost left ∧ k'.queued = left ∧
      u'.writes = layOut r.buf (delivered.flatMap Record.chunks) := by
  have hk : k.Dumping r.size.toNat :=
    ⟨hok, hlive, hnodup, hdump, fun R _ hle => hle.trans_lt hlt⟩
  obtain ⟨k', u', n, hloop, hresult⟩ :=
    dumpRecordsLoop_contract (u := r.user) r.buf r.size 0 false hne (Nat.le_max_right 1 _) hk
  have hall := hu.serves ((k.fitting r.size.toNat).flatMap Record.chunks).length
  have hsplit := readSplit_fittingPrefix r.size.toNat k.queued
  refine ⟨k', u', k.fitting r.size.toNat, _, _, ?_, hsplit, hresult.left hall,
    by simpa [ReadArgs.user] using hresult.writes hall⟩
  have hfilled : k.recordedSyscalls.isEmpty = false := by
    simpa using hne
  simp only [readProc, hfilled, dumpRecords, hloop, Bool.false_eq_true, if_false]
  rw [hresult.returns hall]
  by_cases hnone : k.fitting r.size.toNat = []
  · -- nothing was handed out of a filled FIFO, so a record is lost
    have hqueue : k.queued ≠ [] := by
      obtain ⟨_, _, _, _, _, _, _, hqueued, _⟩ := hk.oldest hne
      rw [hqueued]
      exact List.cons_ne_nil _ _
    have hlost : (k.queued.drop (fittingPrefix Record.dumpLen r.size.toNat k.queued).length).take 1 ≠
        [] := by
      rw [show fittingPrefix Record.dumpLen r.size.toNat k.queued = [] from hnone]
      simpa using hqueue
    simp [hnone, hlost]
  · simp [hnone]

end Kernel

end RrPython
