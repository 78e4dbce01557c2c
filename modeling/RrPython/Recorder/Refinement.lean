import RrPython.Foundation.Simulation
import RrPython.Recorder.Pointers

/-!
# Refinement — the module does to its heap what `Values` does to values

Every event of the module is an event of the value state, a read included, with the same return value and
the same bytes in the reader's buffer.  So every run of the module is a run of the value state, and what
is allocated at its end is what the value state still has, and what its reads have lost.
-/

namespace RrPython

open Foundation

namespace Stands

variable {k k' : Kernel} {v : ValueSys} {lost : List Ptr}

/-! ## Reads -/

/-- The value state after the oldest record has left the FIFO. -/
def takeOldest (v : ValueSys) (R : Record) (fate : Fate) (rest : List Record) : ValueSys :=
  { v with recordedSyscalls := rest, taken := v.taken ++ [(R, fate)] }

theorem withFate_takeOldest_of_ne {R : Record} {fate : Fate} {rest : List Record}
    (hfate : fate ≠ .lost) : (takeOldest v R fate rest).withFate .lost = v.withFate .lost := by
  simp [takeOldest, ValueSys.withFate, hfate]

section Oldest

variable {p : Ptr} {tail : List Ptr} {R : Record} {rest : List Record}

/-- The oldest record of the FIFO. -/
theorem oldest (h : Stands k v lost) (hqueue : v.recordedSyscalls = R :: rest) :
    ∃ p tail r, k.recordedSyscalls = p :: tail ∧ k.heap p = some (.syscallRecord r) ∧
      heapRecord k.heap p = some R ∧ tail.map (heapRecord k.heap) = rest.map some := by
  have hmap := h.queue
  rw [hqueue] at hmap
  cases hfifo : k.recordedSyscalls with
  | nil =>
      simp [hfifo] at hmap
  | cons p tail =>
      simp only [hfifo, List.map_cons, List.cons.injEq] at hmap
      obtain ⟨r, hr, _⟩ := heapRecord_some hmap.1
      exact ⟨p, tail, r, rfl, hr, hmap.1, hmap.2⟩

/-- A record that does not fit leaves the FIFO and stays allocated. -/
theorem popLost (h : Stands k v lost) (hfifo : k.recordedSyscalls = p :: tail)
    (hR : heapRecord k.heap p = some R) (htail : tail.map (heapRecord k.heap) = rest.map some) :
    Stands { k with recordedSyscalls := tail } (takeOldest v R .lost rest) (lost ++ [p]) := by
  have hghost : { k with recordedSyscalls := tail }.withLost (lost ++ [p]) = k.withLost lost := by
    simp [Kernel.withLost, hfifo]
  refine ⟨?_, ?_, ?_, htail, h.record, h.copy, h.pid, h.regs⟩
  · rw [hghost]
    exact h.inv
  · rw [hghost]
    exact h.covered
  · simp [takeOldest, ValueSys.withFate, hR]
    simpa [ValueSys.withFate] using h.lostValues

/-- A record that was stored, in whole or in part, is freed. -/
theorem popFree (h : Stands k v lost) (hfifo : k.recordedSyscalls = p :: tail)
    {r : SyscallRecord Ptr} (hr : k.heap p = some (.syscallRecord r))
    (htail : tail.map (heapRecord k.heap) = rest.map some) (R : Record) {fate : Fate}
    (hfate : fate ≠ .lost) :
    Stands { k with recordedSyscalls := tail, heap := freedHeap k.heap p r }
      (takeOldest v R fate rest) lost := by
  have hperm : (k.withLost lost).recordedSyscalls.Perm (p :: (lost ++ tail)) := by
    simp [Kernel.withLost, hfifo, List.perm_middle]
  have hfront := h.inv.perm hperm
  obtain ⟨hinv, hcopy, hrecord⟩ := hfront.popFree rfl hr
  have hne : ∀ q ∈ lost ++ tail, q ≠ p := by
    rintro q hq rfl
    have hnodup := (List.nodup_append.1 hfront.nodup).1
    exact (List.nodup_cons.1 hnodup).1 hq
  have hother : ∀ q ∈ lost ++ tail, heapRecord (freedHeap k.heap p r) q = heapRecord k.heap q := by
    intro q hq
    obtain ⟨s, hs⟩ := hfront.live q (Kernel.Inv.mem_owned (List.mem_cons_of_mem p hq))
    exact h.inv.heap.heapRecord_freedHeap hr hs (hne q hq)
  refine ⟨hinv, ?_, ?_, ?_, ?_, ?_, h.pid, h.regs⟩
  · refine h.covered.freed h.inv hr rfl rfl ?_
    intro x hx hxp
    simp only [Kernel.owned, Kernel.withLost, hfifo, List.mem_append, List.mem_cons] at hx ⊢
    tauto
  · rw [withFate_takeOldest_of_ne hfate, ← h.lostValues]
    exact List.map_congr_left fun q hq => hother q (List.mem_append_left _ hq)
  · rw [takeOldest, ← htail]
    exact List.map_congr_left fun q hq => hother q (List.mem_append_right _ hq)
  · have hkeeps : k.KeepsRecord { k with
        recordedSyscalls := tail, heap := freedHeap k.heap p r } := ⟨hrecord.pointer, hrecord.value⟩
    exact h.record.trans (bind_heapRecord hkeeps).symm
  · have hkeeps : k.KeepsCopy { k with
        recordedSyscalls := tail, heap := freedHeap k.heap p r } := ⟨hcopy.pointer, hcopy.block⟩
    exact h.copy.trans (bind_heapCopy hkeeps).symm

/-- What `dump_single_record` returns for each fate. -/
def returned (R : Record) : Fate → Int
  | .stored => (getRecordLen R).toInt
  | .failed => -Kernel.generalDumpError
  | .lost => -Kernel.shortWriteError

theorem dumpOne_stored_le {buf size : Word} {u u' : UserSpace}
    (hone : dumpOne R buf size u = (.stored, u')) : getRecordLen R ≤ size := by
  unfold dumpOne at hone
  split at hone
  · cases hone
  · rename_i hfits
    exact BitVec.not_lt.1 hfits

theorem dumpSingleRecord (h : Stands k v lost) (hqueue : v.recordedSyscalls = R :: rest)
    (buf size : Word) (u : UserSpace) {fate : Fate} {u' : UserSpace}
    (hone : dumpOne R buf size u = (fate, u')) :
    ∃ k' lost', k.dumpSingleRecord buf size u = .ok (k', u', returned R fate) ∧
      Stands k' (takeOldest v R fate rest) lost' := by
  obtain ⟨p, tail, r, hfifo, hr, hR, htail⟩ := h.oldest hqueue
  by_cases hfits : size < getRecordLen R
  · rw [dumpOne, if_pos hfits] at hone
    cases hone
    exact ⟨_, lost ++ [p], Kernel.dumpSingleRecord_short hfifo hR buf hfits u,
      h.popLost hfifo hR htail⟩
  · have hfree : fate ≠ .lost → Stands _ (takeOldest v R fate rest) lost :=
      fun hfate => h.popFree hfifo hr htail R hfate
    rw [Kernel.dumpSingleRecord_long h.inv.of_withLost.heap hfifo hr hR buf hfits u]
    rw [dumpOne, if_neg hfits] at hone
    dsimp only at hone ⊢
    split at hone
    · -- the header could not be stored
      rename_i hret
      cases hone
      rw [if_pos hret]
      exact ⟨_, lost, rfl, hfree (by simp)⟩
    · rename_i hret
      rw [if_neg hret]
      split at hone
      · -- one of the copies could not be stored
        rename_i hret'
        cases hone
        rw [if_pos hret']
        exact ⟨_, lost, rfl, hfree (by simp)⟩
      · rename_i hret'
        cases hone
        rw [if_neg hret']
        exact ⟨_, lost, rfl, hfree (by simp)⟩

end Oldest

/-- A call of `dump_records` takes records from the front of the FIFO. -/
theorem dumpValues_queue (R : Record) (rest : List Record) :
    ∀ (buf size : Word) (u : UserSpace) (sizeWritten : Int) (didDoFirstWrite : Bool),
      (dumpValues R rest buf size u sizeWritten didDoFirstWrite).taken.map Prod.fst ++
        (dumpValues R rest buf size u sizeWritten didDoFirstWrite).left = R :: rest := by
  induction rest generalizing R with
  | nil =>
      intro buf size u sizeWritten didDoFirstWrite
      rcases hone : dumpOne R buf size u with ⟨fate, u'⟩
      cases fate <;> simp [dumpValues, hone]
  | cons R' rest ih =>
      intro buf size u sizeWritten didDoFirstWrite
      rcases hone : dumpOne R buf size u with ⟨fate, u'⟩
      cases fate with
      | lost =>
          simp [dumpValues, hone]
      | failed =>
          simp [dumpValues, hone]
      | stored =>
          simpa [dumpValues, hone] using ih R' _ _ _ _ _

/-- The value state after a call of `dump_records`. -/
def afterDump (v : ValueSys) (d : Dumped) : ValueSys :=
  { v with recordedSyscalls := d.left, taken := v.taken ++ d.taken }

/-- A stored record is shorter than the buffer, so its length is a `ssize_t` and no error. -/
theorem toInt_of_le {len size : Word} (hle : len ≤ size) (hsize : size.toNat < 2 ^ 63) :
    len.toInt = (len.toNat : Int) ∧ len.toNat ≤ size.toNat := by
  have hnat : len.toNat ≤ size.toNat := hle
  exact ⟨BitVec.toInt_eq_toNat_of_lt (by omega), hnat⟩

/-- A length is not taken for one of the error codes. -/
theorem length_not_error (len : Word) :
    ¬(len.toNat : Int) = -Kernel.shortWriteError ∧ ¬(len.toNat : Int) = -Kernel.generalDumpError := by
  simp only [Kernel.shortWriteError, Kernel.generalDumpError]
  omega

theorem dumpRecordsLoop (rest : List Record) :
    ∀ (fuel : Nat) (buf size : Word) (u : UserSpace) (sizeWritten : Int) (didDoFirstWrite : Bool)
      {k : Kernel} {v : ValueSys} {lost : List Ptr} {R : Record},
      Stands k v lost → v.recordedSyscalls = R :: rest → rest.length < fuel →
      size.toNat < 2 ^ 63 →
      ∃ k' lost',
        Kernel.dumpRecordsLoop fuel k buf size u sizeWritten didDoFirstWrite =
          .ok (k', (dumpValues R rest buf size u sizeWritten didDoFirstWrite).user,
            (dumpValues R rest buf size u sizeWritten didDoFirstWrite).ret) ∧
        Stands k' (afterDump v (dumpValues R rest buf size u sizeWritten didDoFirstWrite)) lost' := by
  induction rest with
  | nil =>
      intro fuel buf size u sizeWritten didDoFirstWrite k v lost R h hqueue hfuel hsize
      obtain ⟨fuel, rfl⟩ : ∃ n, fuel = n + 1 := ⟨fuel - 1, by omega⟩
      rcases hone : dumpOne R buf size u with ⟨fate, u'⟩
      obtain ⟨k', lost', hsingle, h'⟩ := h.dumpSingleRecord hqueue buf size u hone
      refine ⟨k', lost', ?_, ?_⟩
      · have hempty : k'.recordedSyscalls = [] :=
          List.eq_nil_of_length_eq_zero h'.length_queue.symm
        cases fate with
        | lost =>
            simp [Kernel.dumpRecordsLoop, hsingle, returned, dumpValues, hone, bind, Except.bind,
              pure, Except.pure]
        | failed =>
            simp [Kernel.dumpRecordsLoop, hsingle, returned, dumpValues, hone, bind, Except.bind,
              pure, Except.pure, Kernel.shortWriteError, Kernel.generalDumpError]
        | stored =>
            obtain ⟨hint, _⟩ := toInt_of_le (dumpOne_stored_le hone) hsize
            obtain ⟨hshort, hfailed⟩ := length_not_error (getRecordLen R)
            simp [Kernel.dumpRecordsLoop, hsingle, returned, dumpValues, hone, bind, Except.bind,
              pure, Except.pure, hint, hempty, hshort, hfailed]
      · have hafter : afterDump v (dumpValues R [] buf size u sizeWritten didDoFirstWrite) =
            takeOldest v R fate [] := by
          cases fate <;> simp [dumpValues, hone, afterDump, takeOldest]
        exact hafter ▸ h'
  | cons R' rest ih =>
      intro fuel buf size u sizeWritten didDoFirstWrite k v lost R h hqueue hfuel hsize
      obtain ⟨fuel, rfl⟩ : ∃ n, fuel = n + 1 := ⟨fuel - 1, by omega⟩
      rcases hone : dumpOne R buf size u with ⟨fate, u'⟩
      obtain ⟨k', lost', hsingle, h'⟩ := h.dumpSingleRecord hqueue buf size u hone
      cases fate with
      | lost =>
          refine ⟨k', lost', ?_, ?_⟩
          · simp [Kernel.dumpRecordsLoop, hsingle, returned, dumpValues, hone, bind, Except.bind,
              pure, Except.pure]
          · simpa [dumpValues, hone, afterDump, takeOldest] using h'
      | failed =>
          refine ⟨k', lost', ?_, ?_⟩
          · simp [Kernel.dumpRecordsLoop, hsingle, returned, dumpValues, hone, bind, Except.bind,
              pure, Except.pure, Kernel.shortWriteError, Kernel.generalDumpError]
          · simpa [dumpValues, hone, afterDump, takeOldest] using h'
      | stored =>
          -- the loop goes on with the next record and what is left of the buffer
          obtain ⟨hint, hle⟩ := toInt_of_le (dumpOne_stored_le hone) hsize
          obtain ⟨hshort, hfailed⟩ := length_not_error (getRecordLen R)
          have hne : k'.recordedSyscalls.isEmpty = false := by
            have hlen := h'.length_queue
            cases hfifo : k'.recordedSyscalls with
            | nil =>
                simp [hfifo, takeOldest] at hlen
            | cons p tail =>
                rfl
          have hofInt : BitVec.ofInt 64 ((getRecordLen R).toNat : Int) = getRecordLen R := by
            simp
          have hless : (size - getRecordLen R).toNat < 2 ^ 63 := by
            rw [BitVec.toNat_sub_of_le (dumpOne_stored_le hone)]
            omega
          obtain ⟨k'', lost'', hloop, h''⟩ := ih fuel (buf + getRecordLen R)
            (size - getRecordLen R) u' (sizeWritten + (getRecordLen R).toNat) true h' rfl
            (by simpa using hfuel) hless
          refine ⟨k'', lost'', ?_, ?_⟩
          · simp [Kernel.dumpRecordsLoop, hsingle, returned, dumpValues, hone, bind, Except.bind,
              hint, hne, hshort, hfailed, hofInt, hloop]
          · simpa [dumpValues, hone, afterDump, takeOldest] using h''

/-- `read_proc`, whose result the value state computes without the heap. -/
theorem readProc (h : Stands k v lost) (r : ReadArgs) (hsize : r.size.toNat < 2 ^ 63) :
    Meets (fun f => f = .impossible)
      (fun x => ∃ v', v.read r = .ok { v' with reads := v.reads ++ [(x.2.2, x.2.1.stored)] } ∧
        v'.frames = v.frames ∧ v'.appended = v.appended ∧ ∃ lost', Stands x.1 v' lost')
      (k.readProc r) := by
  have hnot : ¬2 ^ 63 ≤ r.size.toNat := by
    omega
  unfold Kernel.readProc
  cases hqueue : v.recordedSyscalls with
  | nil =>
      have hempty : k.recordedSyscalls = [] := by
        have hlen := h.length_queue
        rw [hqueue] at hlen
        exact List.eq_nil_of_length_eq_zero hlen.symm
      rw [hempty, List.isEmpty_nil, if_pos rfl]
      by_cases hnonblock : r.nonblock = true
      · rw [if_pos hnonblock]
        refine ⟨v, ?_, rfl, rfl, lost, h⟩
        rw [ValueSys.read, if_neg hnot]
        simp [hqueue, hnonblock, ReadArgs.user, UserSpace.stored]
      · rw [if_neg hnonblock]
        by_cases hsignal : r.signalPending = true
        · rw [if_pos hsignal]
          refine ⟨v, ?_, rfl, rfl, lost, h⟩
          rw [ValueSys.read, if_neg hnot]
          simp [hqueue, hnonblock, hsignal, ReadArgs.user, UserSpace.stored]
        · rw [if_neg hsignal]
          rfl
  | cons R rest =>
      obtain ⟨p, tail, _, hfifo, _⟩ := h.oldest hqueue
      have hfuel : rest.length < max 1 k.recordedSyscalls.length := by
        have hlen := h.length_queue
        rw [hqueue, List.length_cons] at hlen
        omega
      obtain ⟨k', lost', hloop, h'⟩ := dumpRecordsLoop rest (max 1 k.recordedSyscalls.length) r.buf
        r.size r.user 0 false h hqueue hfuel hsize
      rw [hfifo, List.isEmpty_cons, if_neg (by simp), Kernel.dumpRecords, hloop]
      refine ⟨afterDump v (dumpValues R rest r.buf r.size r.user 0 false), ?_, rfl, ?_, lost', h'⟩
      · rw [ValueSys.read, if_neg hnot]
        simp [hqueue, afterDump]
      · -- what the read takes out of the FIFO is remembered
        have hsplit := dumpValues_queue R rest r.buf r.size r.user 0 false
        simp [ValueSys.appended, afterDump, hqueue, ← hsplit]

end Stands

/-! ## The whole system -/

structure RefinesValues (s : Sys) (v : ValueSys) : Prop where
  inv : s.Inv
  stands : ∃ lost, Stands s.kernel v lost
  frames : v.frames = s.frames
  appended : s.appended = v.appended
  reads : s.reads = v.reads

namespace RefinesValues

variable {s : Sys} {v : ValueSys}

theorem init (pid : Int) (taskPtRegs : Pid → PtRegs) :
    RefinesValues (Sys.init pid taskPtRegs) (ValueSys.init pid taskPtRegs) where
  inv := Sys.inv_init pid taskPtRegs
  stands := ⟨[], Stands.init pid taskPtRegs⟩
  frames := rfl
  appended := rfl
  reads := rfl

/-- What the value state does when the module takes a step, or stops. -/
def Follows (v : ValueSys) (e : Event) : Except Fault Sys → Prop :=
  Meets (fun f => f = .impossible ∨ v.step e = .error f)
    (fun s' => ∃ v', v.step e = .ok v' ∧ RefinesValues s' v')

/-- What is left to show once the outcomes of a step are known. -/
theorem Follows.of_cases {e : Event} {x : Except Fault Sys} {allowed : Fault → Prop}
    {post : Sys → Prop} (hcases : Meets allowed post x) (hinv : Meets s.Stops Sys.Inv x)
    (herror : ∀ f, allowed f → f = .impossible ∨ v.step e = .error f)
    (hok : ∀ s', post s' → s'.Inv → ∃ v', v.step e = .ok v' ∧ RefinesValues s' v') : Follows v e x := by
  cases x with
  | ok s' =>
      exact hok s' hcases hinv
  | error f =>
      exact herror f hcases

/-- A process moves to other frames while the module changes to `k`. -/
theorem move (h : RefinesValues s v) {p : Pid} {fs : List Frame} {k : Kernel} {v₁ : ValueSys}
    {lost : List Ptr} (hinv : (s.move p fs k).Inv) (hstands : Stands k v₁ lost)
    (hframes : v₁.frames = v.frames) (happended : v₁.appended = v.appended)
    (hreads : v₁.reads = v.reads) : RefinesValues (s.move p fs k) (v₁.setFrames p fs) where
  inv := hinv
  stands := ⟨lost, hstands.setFrames p fs⟩
  frames := by
    simp [ValueSys.setFrames, Sys.move, hframes, h.frames]
  appended := h.appended.trans happended.symm
  reads := h.reads.trans hreads.symm

theorem enterSyscall (h : RefinesValues s v) (p : Pid) (regs : PtRegs) (a : Option Ptr) :
    Follows v (.enterSyscall p regs a) (s.enterSyscall p regs a) := by
  obtain ⟨lost, hstands⟩ := h.stands
  have hsaved := hstands.saveRegs p regs
  have hpid : (v.saveRegs p regs).notRecorded p ↔ s.kernel.notRecorded p :=
    hstands.notRecorded_iff p
  refine Follows.of_cases (Sys.enterSyscall_cases s p regs a) (h.inv.enterSyscall p regs a)
    (fun f hf => Or.inl hf) ?_
  rintro s' ⟨hframes, ⟨rfl, hreject⟩ | ⟨q, rfl, rfl, hnr, hrecorded, hopen, hq⟩⟩ hinv
  · -- turned away on the same grounds
    have hcond : Kernel.neverReturns (regs .origRax) ∨ (v.saveRegs p regs).notRecorded p ∨
        (v.saveRegs p regs).currentSyscallRecord.isSome ∨ a.isSome = false := by
      have hsome : (v.saveRegs p regs).currentSyscallRecord.isSome =
          s.kernel.currentSyscallRecord.isSome := hstands.isSome_record
      rw [hpid, hsome]
      simpa using hreject
    refine ⟨(v.saveRegs p regs).setFrames p [.syscall false], ?_, h.move hinv hsaved rfl rfl rfl⟩
    simp only [ValueSys.step, ValueSys.enterSyscall, h.frames, hframes, if_pos hcond]
  · have hcond : ¬(Kernel.neverReturns (regs .origRax) ∨ (v.saveRegs p regs).notRecorded p ∨
        (v.saveRegs p regs).currentSyscallRecord.isSome ∨ (some q).isSome = false) := by
      have hnone : (v.saveRegs p regs).currentSyscallRecord = none := hstands.isNone_record.2 hopen
      rw [hpid, hnone]
      simp [hnr, hrecorded]
    refine ⟨_, ?_, h.move hinv (hsaved.openRecord (q := q) hopen hq p) rfl rfl rfl⟩
    simp only [ValueSys.step, ValueSys.enterSyscall, h.frames, hframes, if_neg hcond]

theorem appended_finishRecord_of_room {R : Record}
    (hroom : sizeofPtr * v.recordedSyscalls.length + sizeofPtr ≤ syscallFifoSize) :
    (v.finishRecord R).appended =
      v.appended ++ [{ R with ret := v.taskPtRegs R.userspaceRegsPtr .rax }] := by
  simp only [ValueSys.appended, ValueSys.finishRecord, if_pos hroom, List.append_assoc]

theorem appended_finishRecord_of_full {R : Record}
    (hroom : ¬sizeofPtr * v.recordedSyscalls.length + sizeofPtr ≤ syscallFifoSize) :
    (v.finishRecord R).appended = v.appended := by
  simp only [ValueSys.appended, ValueSys.finishRecord, if_neg hroom]

theorem exitSyscall (h : RefinesValues s v) (p : Pid) (regs : PtRegs) :
    Follows v (.exitSyscall p regs) (s.exitSyscall p regs) := by
  obtain ⟨lost, hstands⟩ := h.stands
  have hsaved := hstands.saveRegs p regs
  refine Follows.of_cases (Sys.exitSyscall_cases h.inv p regs) (h.inv.exitSyscall p regs)
    (fun f hf => Or.inl hf) ?_
  rintro s' (⟨hframes, rfl⟩ | ⟨hframes, q, r, R, hopen, ⟨hroom, rfl⟩ | ⟨hroom, rfl⟩⟩) hinv
  · refine ⟨(v.saveRegs p regs).setFrames p [], ?_, h.move hinv hsaved rfl rfl rfl⟩
    simp only [ValueSys.step, ValueSys.exitSyscall, h.frames, hframes]
  · -- the record goes to the FIFO
    have hrecord : ((v.saveRegs p regs).setFrames p []).currentSyscallRecord = some R :=
      hstands.record_eq hopen.current hopen.value
    have hstands' := (hsaved.setFrames p []).pushRecord hopen.current hopen.block hopen.value hroom
    refine ⟨((v.saveRegs p regs).setFrames p []).finishRecord R, ?_, hinv, ⟨lost, hstands'⟩, ?_, ?_,
      h.reads⟩
    · simp only [ValueSys.step, ValueSys.exitSyscall, h.frames, hframes, hrecord]
    · simp [ValueSys.finishRecord, ValueSys.setFrames, ValueSys.saveRegs, Sys.log, Sys.move, h.frames]
    · rw [appended_finishRecord_of_room ((hsaved.setFrames p []).hasRoom_iff.2 hroom)]
      have happended : ((v.saveRegs p regs).setFrames p []).appended = s.appended :=
        h.appended.symm
      rw [happended]
      simp [Sys.log, Sys.move, Sys.completedValue, ValueSys.setFrames, hsaved.regs]
  · -- the FIFO is full
    have hrecord : ((v.saveRegs p regs).setFrames p []).currentSyscallRecord = some R :=
      hstands.record_eq hopen.current hopen.value
    have hstands' := (hsaved.setFrames p []).discardRecord R hopen.current hopen.block hroom
    refine ⟨((v.saveRegs p regs).setFrames p []).finishRecord R, ?_, hinv, ⟨lost, hstands'⟩, ?_, ?_,
      h.reads⟩
    · simp only [ValueSys.step, ValueSys.exitSyscall, h.frames, hframes, hrecord]
    · simp [ValueSys.finishRecord, ValueSys.setFrames, ValueSys.saveRegs, Sys.move, h.frames]
    · rw [appended_finishRecord_of_full fun hle =>
        hroom ((hsaved.setFrames p []).hasRoom_iff.1 hle)]
      exact h.appended

theorem enterWrite (h : RefinesValues s v) (p : Pid) (fn : ProbedFn) (regs : PtRegs) (a : Option Ptr) :
    Follows v (.enterWrite p fn regs a) (s.enterWrite p fn regs a) := by
  obtain ⟨lost, hstands⟩ := h.stands
  have hpid := hstands.notRecorded_iff p
  refine Follows.of_cases (Sys.enterWrite_cases s p fn regs a) (h.inv.enterWrite p fn regs a)
    (fun f hf => Or.inl hf) ?_
  rintro s' (⟨rfl, hreject⟩ | ⟨c, rfl, rfl, hrecorded, hopen, hnone, hc, _⟩) hinv
  · have hcond : v.notRecorded p ∨ v.currentSyscallRecord.isNone ∨ v.currentCopy.isSome ∨
        a.isSome = false := by
      rw [hpid, Option.isNone_iff_eq_none, hstands.isNone_record, hstands.isSome_copy]
      simpa using hreject
    refine ⟨v.setFrames p (.write fn false :: s.frames p), ?_, h.move hinv hstands rfl rfl rfl⟩
    simp only [ValueSys.step, ValueSys.enterWrite, h.frames, if_pos hcond]
  · have hcond : ¬(v.notRecorded p ∨ v.currentSyscallRecord.isNone ∨ v.currentCopy.isSome ∨
        (some c).isSome = false) := by
      have hopen' : ¬s.kernel.currentSyscallRecord = none := Option.isSome_iff_ne_none.1 hopen
      rw [hpid, Option.isNone_iff_eq_none, hstands.isNone_record, hstands.isSome_copy]
      simp [hrecorded, hopen', hnone]
    refine ⟨_, ?_, h.move hinv (hstands.openCopy hnone hc (fn.begun regs)) rfl rfl rfl⟩
    simp only [ValueSys.step, ValueSys.enterWrite, h.frames, if_neg hcond]

theorem exitWrite (h : RefinesValues s v) (p : Pid) (returnValue : Word) (mem : KernelMem) :
    Follows v (.exitWrite p returnValue mem) (s.exitWrite p returnValue mem) := by
  obtain ⟨lost, hstands⟩ := h.stands
  have hinv := h.inv.exitWrite p returnValue mem
  cases hframes : s.frames p with
  | nil =>
      simp [Follows, Sys.exitWrite, hframes]
  | cons f rest =>
      cases f with
      | syscall hooked =>
          simp [Follows, Sys.exitWrite, hframes]
      | wrap recorded =>
          simp [Follows, Sys.exitWrite, hframes]
      | write fn hooked =>
          cases hooked with
          | false =>
              have hs : s.exitWrite p returnValue mem = .ok (s.move p rest s.kernel) := by
                simp [Sys.exitWrite, hframes]
              rw [hs] at hinv ⊢
              refine ⟨v.setFrames p rest, ?_, h.move hinv hstands rfl rfl rfl⟩
              simp only [ValueSys.step, ValueSys.exitWrite, h.frames, hframes]
          | true =>
              obtain ⟨c, regs, hcopy, hc, hlen⟩ := h.inv.begun p fn (by simp [hframes])
              have hvalue := hstands.copy_eq hcopy hc
              have hs : s.exitWrite p returnValue mem =
                  (s.kernel.endCopy returnValue (fn.ended mem)).map (s.move p rest) := by
                simp only [Sys.exitWrite, hframes, fn.handler_eq]
                rfl
              by_cases hret : returnValue = 0
              · subst hret
                cases hopen : s.kernel.currentSyscallRecord with
                | none =>
                    -- no record is open any more
                    rw [hs, Kernel.endCopy_null hcopy hc hopen]
                    refine Or.inr ?_
                    have hnone : (v.setFrames p rest).currentSyscallRecord = none :=
                      hstands.isNone_record.2 hopen
                    simp only [ValueSys.step, ValueSys.exitWrite, h.frames, hframes, hnone]
                    simp
                | some q =>
                    obtain ⟨q', r, R, hopen'⟩ := Sys.exists_open h.inv.kernel (by simp [hopen])
                    have hsized := fn.ended_sized mem hlen
                    have hstands' := hstands.takeCopy hopen'.current hopen'.block hopen'.value hcopy
                      hsized
                    rw [hs, Kernel.endCopy_succeeded hcopy hc hopen'.current hopen'.block] at hinv ⊢
                    refine ⟨_, ?_, h.move hinv hstands' rfl rfl rfl⟩
                    have hrecord : (v.setFrames p rest).currentSyscallRecord = some R :=
                      hstands.record_eq hopen'.current hopen'.value
                    have hpending : (v.setFrames p rest).currentCopy = some (fn.begun regs) := hvalue
                    simp only [ValueSys.step, ValueSys.exitWrite, h.frames, hframes, hrecord,
                      hpending]
                    simp [ValueSys.setFrames, h.frames]
              · rw [hs, Kernel.endCopy_failed hret hcopy hc] at hinv ⊢
                refine ⟨_, ?_, h.move hinv (hstands.dropCopy hcopy) rfl rfl rfl⟩
                simp only [ValueSys.step, ValueSys.exitWrite, h.frames, hframes, ne_eq, hret,
                  not_false_iff, if_true]
                simp [ValueSys.setFrames, h.frames]

theorem enterWrap (h : RefinesValues s v) (p : Pid) (w : SyscallWrapper) (regs : PtRegs) (mem : UserMem)
    (allocated : Bool) :
    Follows v (.enterWrap p w regs mem allocated) (.ok (s.enterWrap p w regs mem allocated)) := by
  obtain ⟨lost, hstands⟩ := h.stands
  have hinv := h.inv.enterWrap p w regs mem allocated
  have hpid := hstands.notRecorded_iff p
  have hpre : v.preWrapSyscall p w regs mem allocated =
      s.kernel.preWrapSyscall p w regs mem allocated := by
    have hnone : v.currentSyscallRecord.isNone = s.kernel.currentSyscallRecord.isNone := by
      rw [← Option.not_isSome, ← Option.not_isSome, hstands.isSome_record]
    simp only [ValueSys.preWrapSyscall, Kernel.preWrapSyscall, hpid, hnone, hstands.regs]
  refine ⟨v.enterWrap p w regs mem allocated, rfl, ?_⟩
  rw [ValueSys.enterWrap, hpre, h.frames]
  exact h.move hinv hstands rfl rfl rfl

theorem exitWrap (h : RefinesValues s v) (p : Pid) (mem : UserMem) (allocated : Bool)
    (allocs : List (Option Ptr)) :
    Follows v (.exitWrap p mem allocated allocs) (s.exitWrap p mem allocated allocs) := by
  obtain ⟨lost, hstands⟩ := h.stands
  have hinv := h.inv.exitWrap p mem allocated allocs
  cases hframes : s.frames p with
  | nil =>
      simp [Follows, Sys.exitWrap, hframes]
  | cons f rest =>
      cases f with
      | syscall hooked =>
          simp [Follows, Sys.exitWrap, hframes]
      | write fn hooked =>
          simp [Follows, Sys.exitWrap, hframes]
      | wrap recorded =>
          cases recorded with
          | none =>
              have hs : s.exitWrap p mem allocated allocs = .ok (s.move p rest s.kernel) := by
                simp [Sys.exitWrap, hframes]
              rw [hs] at hinv ⊢
              refine ⟨v.setFrames p rest, ?_, h.move hinv hstands rfl rfl rfl⟩
              simp only [ValueSys.step, ValueSys.exitWrap, h.frames, hframes, wrapCopies]
              cases hrecord : (v.setFrames p rest).currentSyscallRecord with
              | none =>
                  rfl
              | some R =>
                  simp [← hrecord]
          | some m =>
              have hs : s.exitWrap p mem allocated allocs =
                  (s.kernel.postWrapSyscall m mem allocated allocs).map (s.move p rest) := by
                simp only [Sys.exitWrap, hframes]
                rfl
              have hwrap := hstands.postWrapSyscall m mem allocated allocs
              rw [hs] at hinv ⊢
              cases hk : s.kernel.postWrapSyscall m mem allocated allocs with
              | error f =>
                  rw [hk] at hwrap
                  rcases hwrap with hf | ⟨hf, hnone, hne⟩
                  · exact Or.inl hf
                  · refine Or.inr ?_
                    have hnone' : (v.setFrames p rest).currentSyscallRecord = none := hnone
                    simp only [ValueSys.step, ValueSys.exitWrap, h.frames, hframes, hnone',
                      if_neg hne, hf]
              | ok k' =>
                  rw [hk] at hwrap hinv
                  obtain ⟨hstands', hnil⟩ := hwrap
                  refine ⟨_, ?_, h.move hinv hstands' rfl rfl rfl⟩
                  simp only [ValueSys.step, ValueSys.exitWrap, h.frames, hframes]
                  cases hrecord : v.currentSyscallRecord with
                  | none =>
                      have hrecord' : (v.setFrames p rest).currentSyscallRecord = none := hrecord
                      simp only [hrecord', if_pos (hnil hrecord)]
                      simp [Stands.appendAll, ValueSys.setFrames, hrecord]
                  | some R =>
                      have hrecord' : (v.setFrames p rest).currentSyscallRecord = some R := hrecord
                      simp only [hrecord']
                      simp [Stands.appendAll, ValueSys.setFrames, hrecord]

theorem writePid (h : RefinesValues s v) (ppos : Int) (count : Nat) (parsed : Option Int) :
    Follows v (.writeProc ppos count parsed) (.ok (s.writePid ppos count parsed)) := by
  obtain ⟨lost, hstands⟩ := h.stands
  have hinv := h.inv.writePid ppos count parsed
  refine ⟨v.writePid ppos count parsed, rfl, ?_⟩
  by_cases hcond : ppos > 0 ∨ count > bufferSize
  · simp only [Sys.writePid, Kernel.writeProc, ValueSys.writePid, if_pos hcond] at hinv ⊢
    exact ⟨hinv, ⟨lost, hstands⟩, h.frames, h.appended, h.reads⟩
  · simp only [Sys.writePid, Kernel.writeProc, ValueSys.writePid, if_neg hcond] at hinv ⊢
    cases parsed with
    | none =>
        exact ⟨hinv, ⟨lost, hstands⟩, h.frames, h.appended, h.reads⟩
    | some pid =>
        exact ⟨hinv, ⟨lost, hstands.setPid pid⟩, h.frames, h.appended, h.reads⟩

theorem read (h : RefinesValues s v) (r : ReadArgs) : Follows v (.read r) (s.read r) := by
  obtain ⟨lost, hstands⟩ := h.stands
  have hinv := h.inv.read r
  unfold Sys.read at hinv ⊢
  split
  · exact Or.inl rfl
  · rename_i hsize
    rw [if_neg hsize] at hinv
    have hread := hstands.readProc r (by omega)
    cases hk : s.kernel.readProc r with
    | error f =>
        rw [hk] at hread
        exact Or.inl hread
    | ok x =>
        rw [hk] at hread hinv
        obtain ⟨v', hv', hframes, happended, lost', hstands'⟩ := hread
        refine ⟨_, hv', hinv, ⟨lost', hstands'.setReads _⟩, hframes.trans h.frames, ?_, ?_⟩
        · exact h.appended.trans happended.symm
        · simp [h.reads]

/-! ## Every run -/

theorem simulates : Simulates (· = .impossible) RefinesValues Sys.step ValueSys.step := by
  intro s v e h
  cases e with
  | enterSyscall p regs a =>
      exact h.enterSyscall p regs a
  | exitSyscall p regs =>
      exact h.exitSyscall p regs
  | enterWrite p fn regs a =>
      exact h.enterWrite p fn regs a
  | exitWrite p returnValue mem =>
      exact h.exitWrite p returnValue mem
  | enterWrap p w regs mem allocated =>
      exact h.enterWrap p w regs mem allocated
  | exitWrap p mem allocated allocs =>
      exact h.exitWrap p mem allocated allocs
  | writeProc ppos count parsed =>
      exact h.writePid ppos count parsed
  | read r =>
      exact h.read r

theorem of_run {pid : Int} {taskPtRegs : Pid → PtRegs} {es : List Event}
    (hrun : run Sys.step (Sys.init pid taskPtRegs) es = .ok s) :
    ∃ v, run ValueSys.step (ValueSys.init pid taskPtRegs) es = .ok v ∧ RefinesValues s v :=
  simulates.run_ok (init pid taskPtRegs) hrun

end RefinesValues

/-- Every run of the module is a run of the value state, and stops where that stops, unless the kernel
does what it never does. -/
theorem module_refines_values (pid : Int) (taskPtRegs : Pid → PtRegs) (es : List Event) :
    Meets (fun f => f = .impossible ∨
        run ValueSys.step (ValueSys.init pid taskPtRegs) es = .error f)
      (fun s => ∃ v, run ValueSys.step (ValueSys.init pid taskPtRegs) es = .ok v ∧ RefinesValues s v ∧
        s.kernel.queued = v.recordedSyscalls)
      (run Sys.step (Sys.init pid taskPtRegs) es) := by
  have hrun := RefinesValues.simulates.run es (Sys.init pid taskPtRegs) (ValueSys.init pid taskPtRegs) ()
    (RefinesValues.init pid taskPtRegs)
  refine hrun.mono (fun f hf => hf) ?_
  rintro s ⟨v, hv, hrefines⟩
  obtain ⟨lost, hstands⟩ := hrefines.stands
  exact ⟨v, hv, hrefines, hstands.queued_eq⟩

end RrPython
