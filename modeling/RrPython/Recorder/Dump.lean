import RrPython.Recorder.Records

/-!
# Dump — writing one record into the reader's buffer

`get_record_len`, `dump_syscall_record` and `dump_copy_records` of `syscall_dumper.c`, over a reader
whose memory is seen through the sequence of `copy_to_user` calls made on it.
-/

namespace RrPython

open Foundation

/-! ## The reader's memory -/

/-- A user address space as `copy_to_user` sees it: what was stored so far, in order, and for each
call still to come the number of bytes it will fail to copy (none once the list is used up). -/
structure UserSpace where
  writes : List (Word × List Byte) := []
  faults : List Nat := []

namespace UserSpace

/-- Returns the number of bytes that were not copied. -/
def copyToUser (u : UserSpace) (dst : Word) (src : List Byte) : UserSpace × Nat :=
  let missing := min (u.faults.headD 0) src.length
  ({ writes := u.writes ++ [(dst, src.take (src.length - missing))], faults := u.faults.tail },
    missing)

/-- Everything stored so far, in the order of the calls. -/
def stored (u : UserSpace) : List Byte :=
  u.writes.flatMap Prod.snd

/-- Every `copy_to_user` still to come succeeds. -/
def Reliable (u : UserSpace) : Prop :=
  ∀ n ∈ u.faults, n = 0

/-- The next `n` calls of `copy_to_user` succeed. -/
def Serves (u : UserSpace) (n : Nat) : Prop :=
  ∀ missing ∈ u.faults.take n, missing = 0

variable {u u' : UserSpace} {m n : Nat}

theorem reliable_empty : ({} : UserSpace).Reliable :=
  fun _ hn => absurd hn List.not_mem_nil

theorem Reliable.serves (hu : u.Reliable) (n : Nat) : u.Serves n :=
  fun missing hmissing => hu missing (List.mem_of_mem_take hmissing)

theorem serves_zero (u : UserSpace) : u.Serves 0 := by
  simp [Serves]

theorem Serves.of_le (hu : u.Serves n) (hle : m ≤ n) : u.Serves m :=
  fun missing hmissing => hu missing (List.take_subset_take_left _ hle hmissing)

/-- `u'` is what comes after the first `m` calls. -/
theorem serves_add (hu' : u'.faults = u.faults.drop m) :
    u.Serves (m + n) ↔ u.Serves m ∧ u'.Serves n := by
  rw [Serves, List.take_add, Serves, Serves, hu']
  exact List.forall_mem_append

theorem serves_one_iff : u.Serves 1 ↔ u.faults.headD 0 = 0 := by
  cases hf : u.faults <;> simp [Serves, hf]

theorem copyToUser_serves (hu : u.Serves 1) (dst : Word) (src : List Byte) :
    ∃ u' : UserSpace, u.copyToUser dst src = (u', 0) ∧ u'.faults = u.faults.drop 1 ∧
      u'.writes = u.writes ++ [(dst, src)] := by
  refine ⟨{ writes := u.writes ++ [(dst, src)], faults := u.faults.tail }, ?_, ?_, rfl⟩
  · simp only [copyToUser, serves_one_iff.1 hu, Nat.zero_min, Nat.sub_zero, List.take_length]
  · exact List.drop_one.symm

theorem copyToUser_fails (hu : ¬u.Serves 1) (dst : Word) {src : List Byte} (hsrc : src ≠ []) :
    (u.copyToUser dst src).2 ≠ 0 := by
  have hhead : u.faults.headD 0 ≠ 0 := fun h => hu (serves_one_iff.2 h)
  have hlen : src.length ≠ 0 := fun h => hsrc (List.length_eq_zero_iff.1 h)
  simp only [copyToUser]
  omega

end UserSpace

/-- Chunks stored one after the other from address `buf` on. -/
def layOut (buf : Word) : List (List Byte) → List (Word × List Byte)
  | [] => []
  | chunk :: chunks => (buf, chunk) :: layOut (buf + BitVec.ofNat 64 chunk.length) chunks

theorem flatMap_snd_layOut (buf : Word) (chunks : List (List Byte)) :
    (layOut buf chunks).flatMap Prod.snd = chunks.flatten := by
  induction chunks generalizing buf with
  | nil =>
      rfl
  | cons chunk chunks ih =>
      simp [layOut, ih]

theorem layOut_append (buf : Word) (xs ys : List (List Byte)) :
    layOut buf (xs ++ ys) = layOut buf xs ++ layOut (buf + BitVec.ofNat 64 xs.flatten.length) ys := by
  induction xs generalizing buf with
  | nil =>
      simp [layOut]
  | cons x xs ih =>
      have hsum : buf + BitVec.ofNat 64 x.length + BitVec.ofNat 64 xs.flatten.length =
          buf + BitVec.ofNat 64 (x :: xs).flatten.length := by
        rw [BitVec.add_assoc, ← BitVec.ofNat_add, ← List.length_append, List.flatten_cons]
      calc layOut buf (x :: xs ++ ys)
          = (buf, x) :: layOut (buf + BitVec.ofNat 64 x.length) (xs ++ ys) := rfl
        _ = layOut buf (x :: xs) ++
              layOut (buf + BitVec.ofNat 64 (x :: xs).flatten.length) ys := by
          rw [ih, hsum]
          rfl

/-- Every chunk lies within as many bytes from `buf` on as the chunks have together. -/
theorem mem_layOut_within {buf : Word} {chunks : List (List Byte)} {piece : Word × List Byte}
    (h : piece ∈ layOut buf chunks) :
    ∃ off : Nat, piece.1 = buf + BitVec.ofNat 64 off ∧
      off + piece.2.length ≤ chunks.flatten.length := by
  induction chunks generalizing buf with
  | nil =>
      cases h
  | cons chunk chunks ih =>
      rw [List.flatten_cons, List.length_append]
      rcases List.mem_cons.1 h with rfl | h
      · exact ⟨0, (BitVec.add_zero buf).symm, by simp⟩
      · obtain ⟨off, haddr, hle⟩ := ih h
        refine ⟨chunk.length + off, ?_, by omega⟩
        rw [haddr, BitVec.ofNat_add, BitVec.add_assoc]

/-! ## Dumping a record -/

def getRecordLen (r : Record) : Word :=
  r.copiesToUser.foldl (fun size c => size + (sizeofCopyRecord + c.len)) sizeofSyscallDump

/-- `record_size` is an `unsigned int`, so the sum is cut to 32 bits. -/
def recordSize (c : CopyRecord) : BitVec 32 :=
  (sizeofCopyRecord + c.len).setWidth 32

def dumpCopyRecords : List CopyRecord → Word → UserSpace → UserSpace × Int
  | [], _, u => (u, 0)
  | c :: cs, buf, u =>
      let (u, missing) := u.copyToUser buf (c.toBytes.take (recordSize c).toNat)
      if missing ≠ 0 then (u, -1)
      else dumpCopyRecords cs (buf + (recordSize c).setWidth 64) u

def dumpSyscallRecord (r : Record) (buf : Word) (u : UserSpace) : UserSpace × Int :=
  let (u, missing) := u.copyToUser buf r.dumpHeader
  if missing ≠ 0 then (u, -1) else (u, 0)

/-- The pieces in which a record is stored: its header, then copy by copy. -/
def Record.chunks (r : Record) : List (List Byte) :=
  r.dumpHeader :: r.copiesToUser.map CopyRecord.toBytes

@[simp] theorem Record.flatten_chunks (r : Record) : (Record.chunks r).flatten = Record.dump r := by
  simp [Record.chunks, Record.dump, List.flatMap_def]

@[simp] theorem Record.length_chunks (r : Record) :
    (Record.chunks r).length = r.copiesToUser.length + 1 := by
  simp [Record.chunks]

/-! ## What a dump writes -/

theorem recordSize_toNat {c : CopyRecord} (hc : c.Sized) :
    (recordSize c).toNat = 24 + c.bytes.length := by
  have hlen := hc.len_eq
  have hlt := hc.bytes_lt
  simp only [recordSize, BitVec.toNat_setWidth, BitVec.toNat_add, sizeofCopyRecord_toNat, hlen]
  omega

/-- What `dump_copy_records` hands to `copy_to_user` for one copy. -/
theorem take_recordSize {c : CopyRecord} (hc : c.Sized) :
    c.toBytes.take (recordSize c).toNat = c.toBytes :=
  List.take_of_length_le (by rw [recordSize_toNat hc, c.length_toBytes])

theorem setWidth_recordSize {c : CopyRecord} (hc : c.Sized) :
    (recordSize c).setWidth 64 = BitVec.ofNat 64 c.toBytes.length := by
  apply BitVec.eq_of_toNat_eq
  simp [recordSize_toNat hc]

theorem dumpCopyRecords_serves :
    ∀ {cs : List CopyRecord}, (∀ c ∈ cs, c.Sized) → ∀ (buf : Word) {u : UserSpace},
      u.Serves cs.length →
      ∃ u' : UserSpace, dumpCopyRecords cs buf u = (u', 0) ∧
        u'.faults = u.faults.drop cs.length ∧
        u'.writes = u.writes ++ layOut buf (cs.map CopyRecord.toBytes) := by
  intro cs
  induction cs with
  | nil =>
      intro _ buf u _
      exact ⟨u, rfl, rfl, by simp [layOut]⟩
  | cons c cs ih =>
      intro hsized buf u hu
      have hc : c.Sized := hsized c List.mem_cons_self
      rw [List.length_cons, Nat.add_comm] at hu
      obtain ⟨u₁, hcopy, hf₁, hw₁⟩ :=
        UserSpace.copyToUser_serves (hu.of_le (Nat.le_add_right 1 _)) buf c.toBytes
      obtain ⟨u₂, hrest, hf₂, hw₂⟩ :=
        ih (fun d hd => hsized d (List.mem_cons_of_mem c hd))
          (buf + BitVec.ofNat 64 c.toBytes.length) ((UserSpace.serves_add hf₁).1 hu).2
      refine ⟨u₂, ?_, ?_, ?_⟩
      · simp only [dumpCopyRecords, take_recordSize hc, hcopy, setWidth_recordSize hc]
        simpa using hrest
      · rw [hf₂, hf₁, List.drop_drop, List.length_cons, Nat.add_comm]
      · rw [hw₂, hw₁, List.append_assoc]
        rfl

theorem dumpCopyRecords_fails :
    ∀ {cs : List CopyRecord}, (∀ c ∈ cs, c.Sized) → ∀ (buf : Word) {u : UserSpace},
      ¬u.Serves cs.length → ∃ u' : UserSpace, dumpCopyRecords cs buf u = (u', -1) := by
  intro cs
  induction cs with
  | nil =>
      intro _ buf u hu
      exact absurd u.serves_zero hu
  | cons c cs ih =>
      intro hsized buf u hu
      have hc : c.Sized := hsized c List.mem_cons_self
      simp only [dumpCopyRecords, take_recordSize hc]
      by_cases hfirst : u.Serves 1
      · -- this copy is stored, so one of the later ones fails
        obtain ⟨u₁, hcopy, hf₁, _⟩ := UserSpace.copyToUser_serves hfirst buf c.toBytes
        rw [List.length_cons, Nat.add_comm, UserSpace.serves_add hf₁] at hu
        rw [hcopy]
        exact ih (fun d hd => hsized d (List.mem_cons_of_mem c hd)) _ fun hrest =>
          hu ⟨hfirst, hrest⟩
      · have hne : c.toBytes ≠ [] := by
          intro hnil
          have hlen := c.length_toBytes
          rw [hnil, List.length_nil] at hlen
          omega
        exact ⟨_, if_pos (UserSpace.copyToUser_fails hfirst buf hne)⟩

theorem dumpSyscallRecord_serves (r : Record) (buf : Word) {u : UserSpace} (hu : u.Serves 1) :
    ∃ u' : UserSpace, dumpSyscallRecord r buf u = (u', 0) ∧ u'.faults = u.faults.drop 1 ∧
      u'.writes = u.writes ++ [(buf, r.dumpHeader)] := by
  obtain ⟨u', hcopy, hf', hw⟩ := UserSpace.copyToUser_serves hu buf r.dumpHeader
  exact ⟨u', by simp [dumpSyscallRecord, hcopy], hf', hw⟩

theorem dumpSyscallRecord_fails (r : Record) (buf : Word) {u : UserSpace} (hu : ¬u.Serves 1) :
    ∃ u' : UserSpace, dumpSyscallRecord r buf u = (u', -1) := by
  have hne : r.dumpHeader ≠ [] := by
    intro hnil
    have hlen := r.length_dumpHeader
    rw [hnil] at hlen
    exact absurd hlen (by decide)
  exact ⟨_, if_pos (UserSpace.copyToUser_fails hu buf hne)⟩

/-- The 64-bit sum of `get_record_len` is the length of the dump as long as that fits. -/
theorem getRecordLen_toNat {r : Record} (hr : ∀ c ∈ r.copiesToUser, c.Sized)
    (hfits : r.dumpLen < 2 ^ 64) : (getRecordLen r).toNat = r.dumpLen := by
  have hsum : ∀ (cs : List CopyRecord) (start : Word), (∀ c ∈ cs, c.Sized) →
      start.toNat + (cs.map fun c => 24 + c.bytes.length).sum < 2 ^ 64 →
      (cs.foldl (fun size c => size + (sizeofCopyRecord + c.len)) start).toNat =
        start.toNat + (cs.map fun c => 24 + c.bytes.length).sum := by
    intro cs
    induction cs with
    | nil =>
        intro start _ _
        simp
    | cons c cs ih =>
        intro start hcs hlt
        have hlen := (hcs c List.mem_cons_self).len_eq
        simp only [List.map_cons, List.sum_cons] at hlt ⊢
        have hstart : (start + (sizeofCopyRecord + c.len)).toNat =
            start.toNat + (24 + c.bytes.length) := by
          simp only [BitVec.toNat_add, sizeofCopyRecord_toNat, hlen]
          omega
        have hrest := ih (start + (sizeofCopyRecord + c.len))
          (fun d hd => hcs d (List.mem_cons_of_mem c hd)) (by omega)
        rw [List.foldl_cons, hrest, hstart]
        omega
  exact hsum r.copiesToUser sizeofSyscallDump hr hfits

end RrPython
