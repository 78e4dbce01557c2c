import RrPython.Recorder.Delivery

/-!
# Reads — what one call of `dump_records` hands out and what it leaves behind

A call stores the longest prefix of the FIFO that its buffer holds, one record behind the other.  It
pops each record before it looks at its length, so a call that returns an error has taken at least one
record out of the FIFO, and no path puts one back.
-/

namespace RrPython

open Foundation

/-- What `get_record_len` returns, as a number. -/
def Record.len (R : Record) : Nat :=
  (getRecordLen R).toNat

namespace Kernel

/-- Where the loop of `dump_records` does `size -= dump_ret`, there is that much left of the buffer. -/
def SizeNeverWraps : Nat → Kernel → Word → Word → UserSpace → Prop
  | 0, _, _, _, _ => True
  | fuel + 1, k, buf, size, u =>
      ∀ (k' : Kernel) (u' : UserSpace) (dumpRet : Int),
        k.dumpSingleRecord buf size u = .ok (k', u', dumpRet) →
        dumpRet ≠ -shortWriteError → dumpRet ≠ -generalDumpError →
          BitVec.ofInt 64 dumpRet ≤ size ∧
            SizeNeverWraps fuel k' (buf + BitVec.ofInt 64 dumpRet) (size - BitVec.ofInt 64 dumpRet) u'

/-- If a call of `dump_records` returns an error, the FIFO is as it was, and a reader whose memory is
writable and who brings a buffer for all the records gets them. -/
def FailedReadConsumesNothing (k : Kernel) (buf size : Word) (u : UserSpace) : Prop :=
  ∀ (k' : Kernel) (u' : UserSpace) (n : Int), k.dumpRecords buf size u = .ok (k', u', n) →
    n = -einval ∨ n = -efault →
      k'.queued = k.queued ∧
        ∀ r : ReadArgs, r.user.Reliable → dumpsLen k.queued ≤ r.size.toNat →
          ∃ (k'' : Kernel) (u'' : UserSpace), k'.readProc r = .ok (k'', u'', dumpsLen k.queued) ∧
            u''.stored = dumps k.queued

/-! ## The subtraction from `size` -/

/-- Besides the errors, `dump_single_record` returns the length of a record that fits. -/
theorem dumpSingleRecord_returns (k : Kernel) (buf size : Word) (u : UserSpace) :
    Meets (fun _ => True)
      (fun x => x.2.2 = -shortWriteError ∨ x.2.2 = -generalDumpError ∨
        ∃ len : Word, len ≤ size ∧ x.2.2 = len.toInt)
      (k.dumpSingleRecord buf size u) := by
  have hanyFree : ∀ (k : Kernel) (p : Ptr), Meets (fun _ => True) (fun _ => True)
      (k.freeSyscallRecord p) := by
    intro k p
    cases k.freeSyscallRecord p <;> trivial
  have hanyRecord : ∀ (k : Kernel) (p : Ptr), Meets (fun _ => True) (fun _ => True)
      (k.readRecord p) := by
    intro k p
    cases k.readRecord p <;> trivial
  unfold dumpSingleRecord
  split
  · trivial
  · refine (hanyRecord _ _).bind fun r _ => ?_
    dsimp only
    split
    · exact Or.inl rfl
    · rename_i hfits
      split
      · exact (hanyFree _ _).bind fun _ _ => Or.inr (Or.inl rfl)
      · split
        · exact (hanyFree _ _).bind fun _ _ => Or.inr (Or.inl rfl)
        · exact (hanyFree _ _).bind fun _ _ =>
            Or.inr (Or.inr ⟨getRecordLen r, BitVec.not_lt.1 hfits, rfl⟩)

theorem sizeNeverWraps (fuel : Nat) :
    ∀ (k : Kernel) (buf size : Word) (u : UserSpace), SizeNeverWraps fuel k buf size u := by
  induction fuel with
  | zero =>
      intro k buf size u
      trivial
  | succ fuel ih =>
      intro k buf size u k' u' dumpRet hsingle hshort hgeneral
      refine ⟨?_, ih _ _ _ _⟩
      rcases (dumpSingleRecord_returns k buf size u).of_ok hsingle with hret | hret | ⟨len, hle, hret⟩
      · exact absurd hret hshort
      · exact absurd hret hgeneral
      · have hlen : BitVec.ofInt 64 dumpRet = len := by
          rw [show dumpRet = len.toInt from hret, BitVec.ofInt_toInt]
        rwa [hlen]

/-! ## One call -/

/-- A number of bytes is not one of the errors. -/
theorem not_error (n : Nat) : ¬((n : Int) = -einval ∨ (n : Int) = -efault) := by
  simp only [einval, efault]
  omega

section Call

variable {k : Kernel} (hinv : k.Inv) (hlen : ∀ R ∈ k.queued, Record.dumpLen R < 2 ^ 63)
include hinv hlen

theorem recordLen_eq : ∀ R ∈ k.queued, Record.len R = Record.dumpLen R := by
  intro R hR
  exact getRecordLen_toNat (hinv.queued_sized hR).copies ((hlen R hR).trans (by decide))

theorem Inv.dumping (size : Nat) : k.Dumping size where
  heap := hinv.heap
  live := fun p hp => hinv.live p (Inv.mem_owned hp)
  nodup := (List.nodup_append.1 hinv.nodup).1
  dumpable := fun R hR => ⟨(hinv.queued_sized hR).copies, (hlen R hR).trans (by decide)⟩
  returned := fun R hR _ => hlen R hR

theorem fitting_eq (size : Nat) :
    k.fitting size = fittingPrefix Record.len size k.queued :=
  (fittingPrefix_congr (recordLen_eq hinv hlen)).symm

theorem dumpsLen_fitting (size : Nat) :
    dumpsLen (k.fitting size) = totalSize Record.len (k.fitting size) :=
  (totalSize_congr fun R hR => recordLen_eq hinv hlen R (mem_of_mem_fittingPrefix hR)).symm

theorem dumpRecords_contract (hne : k.queued ≠ []) (buf size : Word) (u : UserSpace) :
    ∃ (k' : Kernel) (u' : UserSpace) (n : Int), k.dumpRecords buf size u = .ok (k', u', n) ∧
      LoopResult k buf size u 0 false k' u' n :=
  dumpRecordsLoop_contract buf size 0 false (fun hnil => hne (Sys.queued_nil hnil))
    (Nat.le_max_right 1 _) (hinv.dumping hlen size.toNat)

/-- The oldest record fits exactly if the buffer holds a record. -/
theorem first_le_iff {first : Record} {rest : List Record} (hqueue : k.queued = first :: rest)
    (size : Word) : getRecordLen first ≤ size ↔ k.fitting size.toNat ≠ [] := by
  rw [fitting_eq hinv hlen, hqueue, fittingPrefix_ne_nil_iff]
  exact BitVec.le_def

end Call

theorem Inv.recordedSyscalls_of_queued {k : Kernel} (hinv : k.Inv) (hempty : k.queued = []) :
    k.recordedSyscalls = [] := by
  by_contra hne
  obtain ⟨p, rest, hfifo⟩ := List.exists_cons_of_ne_nil hne
  obtain ⟨r, hr⟩ := hinv.live p (Inv.mem_owned (by simp [hfifo]))
  obtain ⟨cs, _, _, hR⟩ := hinv.heap.heapRecord_eq hr
  rw [queued_cons hfifo hR] at hempty
  cases hempty

/-- The module after two syscalls without copies; each of the dumps takes 184 bytes. -/
def twoQueued : Kernel :=
  match run Sys.step (Sys.init 1 fun _ _ => 0) (Sys.twoRecords.take 4) with
  | .ok s => s.kernel
  | .error _ => (Sys.init 1 fun _ _ => 0).kernel

theorem inv_twoQueued : twoQueued.Inv :=
  ((Sys.inv_run 1 (fun _ _ => 0) (Sys.twoRecords.take 4)).of_ok (a := _) rfl).kernel

/-! ## Calls that fail -/

/-- A call of `dump_records` that fails leaves the FIFO as it was exactly if none fails: the oldest
record fits, and the `copy_to_user` calls for the longest prefix that fits all succeed. -/
theorem failedReadConsumesNothing_iff {k : Kernel} (hinv : k.Inv)
    (hlen : ∀ R ∈ k.queued, Record.dumpLen R < 2 ^ 63) (buf size : Word) (u : UserSpace) :
    k.FailedReadConsumesNothing buf size u ↔
      (∀ first ∈ k.queued.head?, getRecordLen first ≤ size) ∧
        u.Serves ((fittingPrefix Record.len size.toNat k.queued).flatMap Record.chunks).length := by
  by_cases hne : k.queued = []
  · -- the function is not called on an empty FIFO
    have hstops : k.dumpRecords buf size u = .error .badFree := by
      have hfifo : k.recordedSyscalls = [] := hinv.recordedSyscalls_of_queued hne
      simp [dumpRecords, dumpRecordsLoop, dumpSingleRecord, hfifo, bind, Except.bind]
    constructor
    · intro _
      simp [hne, u.serves_zero]
    · intro _ k' u' n hcall
      rw [hstops] at hcall
      cases hcall
  · obtain ⟨first, rest, hqueue⟩ := List.exists_cons_of_ne_nil hne
    obtain ⟨k', u', n, hcall, hresult⟩ := dumpRecords_contract hinv hlen hne buf size u
    have hfirst : (∀ R ∈ k.queued.head?, getRecordLen R ≤ size) ↔ k.fitting size.toNat ≠ [] := by
      rw [← first_le_iff hinv hlen hqueue size, hqueue]
      simp
    rw [hfirst, ← fitting_eq hinv hlen]
    constructor
    · -- an error is returned with a record less in the FIFO
      intro hkeeps
      by_contra hnot
      have herror : n = -einval ∨ n = -efault := by
        by_cases hall : u.Serves ((k.fitting size.toNat).flatMap Record.chunks).length
        · have hnone : ¬k.fitting size.toNat ≠ [] := fun hsome => hnot ⟨hsome, hall⟩
          exact Or.inl ((hresult.returns hall).trans (if_neg (by simpa using hnone)))
        · exact Or.inr (hresult.fails hall)
      have hshorter := hresult.shorter
      rw [(hkeeps k' u' n hcall herror).1] at hshorter
      exact Nat.lt_irrefl _ hshorter
    · rintro ⟨hsome, hall⟩ k₁ u₁ m hcall₁ herror
      rw [hcall] at hcall₁
      cases hcall₁
      rw [hresult.returns hall, if_pos (Or.inr hsome), Int.zero_add] at herror
      exact absurd herror (not_error _)

/-- A buffer for the first of the two records. -/
theorem failedReadConsumesNothing_iff_twoQueued : twoQueued.FailedReadConsumesNothing 0 200 {} :=
  (failedReadConsumesNothing_iff inv_twoQueued (by decide) 0 200 {}).2
    ⟨by decide, UserSpace.reliable_empty.serves _⟩

/-- A buffer for neither. -/
theorem not_failedReadConsumesNothing :
    ¬∀ (k : Kernel) (buf size : Word) (u : UserSpace), k.Inv →
      (∀ R ∈ k.queued, Record.dumpLen R < 2 ^ 63) → k.FailedReadConsumesNothing buf size u := by
  intro h
  have hkeeps := (h twoQueued 0 100 {} inv_twoQueued (by decide) _ _ _ rfl (Or.inl rfl)).1
  exact absurd (congrArg List.length hkeeps) (by decide)

/-! ## Calls that succeed -/

/-- The longest prefix that fits is stored from `buf` on; if that is empty, nothing is. -/
theorem dumpRecords_longestFitting {k : Kernel} (hinv : k.Inv) {first : Record} {rest : List Record}
    (hqueue : k.queued = first :: rest) (htotal : dumpsLen k.queued < 2 ^ 63) (buf size : Word)
    {u : UserSpace} (hu : u.Reliable) :
    ∃ (k' : Kernel) (u' : UserSpace) (n : Int) (fitting : List Record),
      k.dumpRecords buf size u = .ok (k', u', n) ∧
      LongestFitting Record.len size.toNat k.queued fitting ∧
      ((n = -einval ∧ u'.writes = u.writes) ↔ size < getRecordLen first) ∧
      (getRecordLen first ≤ size → n = totalSize Record.len fitting) ∧
      u'.writes = u.writes ++ layOut buf (fitting.flatMap Record.chunks) ∧
      (fitting.flatMap Record.chunks).flatten = dumps fitting ∧
      (∀ piece ∈ layOut buf (fitting.flatMap Record.chunks), ∃ off : Nat,
        piece.1 = buf + BitVec.ofNat 64 off ∧ off + piece.2.length ≤ size.toNat) ∧
      ∀ fuel, SizeNeverWraps fuel k buf size u := by
  have hne : k.queued ≠ [] := by
    rw [hqueue]
    exact List.cons_ne_nil _ _
  have hlen : ∀ R ∈ k.queued, Record.dumpLen R < 2 ^ 63 := fun R hR =>
    (dumpLen_le_dumpsLen hR).trans_lt htotal
  obtain ⟨k', u', n, hcall, hresult⟩ := dumpRecords_contract hinv hlen hne buf size u
  have hall := hu.serves ((k.fitting size.toNat).flatMap Record.chunks).length
  have hfirst := first_le_iff hinv hlen hqueue size
  have hlongest : LongestFitting Record.len size.toNat k.queued (k.fitting size.toNat) := by
    rw [fitting_eq hinv hlen]
    exact fittingPrefix_longest _ _ _
  have hn : k.fitting size.toNat ≠ [] → n = totalSize Record.len (k.fitting size.toNat) := by
    intro hsome
    rw [hresult.returns hall, if_pos (Or.inr hsome), Int.zero_add, dumpsLen_fitting hinv hlen]
  refine ⟨k', u', n, k.fitting size.toNat, hcall, hlongest, ?_, fun hle => hn (hfirst.1 hle),
    hresult.writes hall, flatten_chunks _, ?_, fun fuel => sizeNeverWraps fuel k buf size u⟩
  · rw [← BitVec.not_le, hfirst, not_not]
    constructor
    · rintro ⟨herror, _⟩
      by_contra hsome
      rw [hn hsome] at herror
      exact not_error _ (Or.inl herror)
    · intro hnone
      have hreturns := hresult.returns hall
      have hwrites := hresult.writes hall
      rw [hnone] at hreturns hwrites
      exact ⟨by simpa using hreturns, by simpa [layOut] using hwrites⟩
  · intro piece hpiece
    obtain ⟨off, haddr, hle⟩ := mem_layOut_within hpiece
    refine ⟨off, haddr, hle.trans ?_⟩
    rw [flatten_chunks, length_dumps, dumpsLen_fitting hinv hlen]
    exact hlongest.fits

theorem dumpRecords_longestFitting_twoQueued :
    ∃ (k' : Kernel) (u' : UserSpace) (n : Int) (fitting : List Record),
      twoQueued.dumpRecords 4096 200 {} = .ok (k', u', n) ∧
      LongestFitting Record.len 200 twoQueued.queued fitting ∧ n = totalSize Record.len fitting ∧
      u'.writes = layOut 4096 (fitting.flatMap Record.chunks) := by
  obtain ⟨k', u', n, fitting, hcall, hlongest, _, hn, hw, _⟩ :=
    dumpRecords_longestFitting inv_twoQueued rfl (by decide) 4096 200 UserSpace.reliable_empty
  exact ⟨k', u', n, fitting, hcall, hlongest, hn (by decide), hw⟩

end Kernel

end RrPython
