import Mathlib.Algebra.Order.BigOperators.Group.List
import RrPython.Recorder.Ownership

/-!
# Delivery — from the FIFO to the readers

Between the reads the queue only grows by what `post_syscall` appends.  A read hands out a prefix of
the queue and, when the buffer ends before the queue does, takes one record too many out of it.  So the
stream of bytes is complete exactly if every read has room for all that is queued.
-/

namespace RrPython

open Foundation

/-- The dumps of `rs`, one after the other. -/
def dumps (rs : List Record) : List Byte :=
  rs.flatMap Record.dump

@[simp] theorem dumps_append (rs rs' : List Record) : dumps (rs ++ rs') = dumps rs ++ dumps rs' := by
  simp [dumps]

@[simp] theorem length_dumps (rs : List Record) : (dumps rs).length = dumpsLen rs := by
  induction rs with
  | nil =>
      rfl
  | cons r rs ih =>
      simp [dumps, dumpsLen, Record.length_dump]

theorem dumpsLen_append (rs rs' : List Record) :
    dumpsLen (rs ++ rs') = dumpsLen rs + dumpsLen rs' := by
  simp [dumpsLen]

theorem dumpLen_le_dumpsLen {rs : List Record} {R : Record} (hR : R ∈ rs) :
    Record.dumpLen R ≤ dumpsLen rs :=
  List.le_sum_of_mem (List.mem_map_of_mem hR)

theorem dumpsLen_pos {rs : List Record} (h : rs ≠ []) : 0 < dumpsLen rs := by
  obtain ⟨r, rest, rfl⟩ := List.exists_cons_of_ne_nil h
  simp only [dumpsLen, List.map_cons, List.sum_cons, Record.dumpLen]
  omega

theorem flatten_chunks (rs : List Record) : (rs.flatMap Record.chunks).flatten = dumps rs := by
  induction rs with
  | nil =>
      rfl
  | cons r rs ih =>
      simpa [dumps] using ih

theorem Kernel.Inv.queued_sized {k : Kernel} (h : k.Inv) {R : Record} (hR : R ∈ k.queued) :
    Record.Sized R := by
  obtain ⟨p, _, hp⟩ := List.mem_filterMap.1 hR
  exact Sys.heapRecord_sized h.heap hp

namespace Sys

/-- The bytes that the reads so far have returned: as many as each one's return value says. -/
def delivered (s : Sys) : List Byte :=
  s.reads.flatMap fun x => x.2.take x.1.toNat

/-- A read whose `copy_to_user` calls all succeed, with records that fit into the address space. -/
def CleanRead (s : Sys) : Event → Prop
  | .read r => r.user.Reliable ∧ ∀ R ∈ s.kernel.queued, Record.dumpLen R < 2 ^ 64
  | _ => True

/-- A read whose buffer holds all records in the FIFO. -/
def ReadsAll (s : Sys) : Event → Prop
  | .read r => dumpsLen s.kernel.queued ≤ r.size.toNat
  | _ => True

/-- Nothing is missing between what was appended and what was delivered or still is in the FIFO. -/
def Complete (s : Sys) : Prop :=
  s.delivered ++ dumps s.kernel.queued = dumps s.appended

/-- Bytes are missing. -/
def Short (s : Sys) : Prop :=
  s.delivered.length + dumpsLen s.kernel.queued < dumpsLen s.appended

instance (s : Sys) : Decidable s.Short := by
  unfold Short
  infer_instance

theorem Short.incomplete {s : Sys} (h : s.Short) : ¬s.Complete := by
  intro hc
  have hlen := congrArg List.length hc
  rw [List.length_append, length_dumps, length_dumps] at hlen
  simp only [Short] at h
  omega

/-! ## One event -/

theorem queued_push {k : Kernel} (h : k.Inv) {q : Ptr} {r : SyscallRecord Ptr} {R : Record}
    (hopen : Open k q r R) : (k.pushRecord q r).queued = k.queued ++ [completedValue k R] := by
  -- the record that is pushed was not in the queue, so the others read as before
  have hold : k.recordedSyscalls.filterMap (heapRecord (k.pushRecord q r).heap) = k.queued := by
    refine List.filterMap_congr fun x hx => ?_
    obtain ⟨s, hs⟩ := h.live x (Kernel.Inv.mem_owned hx)
    have hxq : x ≠ q := by
      rintro rfl
      exact h.current_not_queued hopen.current hx
    exact h.pushRecord_other hopen.block hxq hs
  have hnew := h.pushRecord_value hopen.block hopen.value
  have hfifo : (k.pushRecord q r).recordedSyscalls = k.recordedSyscalls ++ [q] := rfl
  rw [Kernel.queued, hfifo, List.filterMap_append, hold]
  simp [hnew, completedValue]

theorem keepsQueue_saveRegs (k : Kernel) (p : Pid) (regs : PtRegs) :
    k.KeepsQueue (k.saveRegs p regs) :=
  ⟨rfl, fun _ _ => rfl⟩

/-- Apart from the reads, whatever enters the history enters the FIFO and nothing leaves it. -/
theorem queued_step {s s' : Sys} (h : s.Inv) {e : Event} (he : ∀ r, e ≠ .read r)
    (hs : s.step e = .ok s') :
    ∃ rs, s'.kernel.queued = s.kernel.queued ++ rs ∧ s'.appended = s.appended ++ rs ∧
      s'.reads = s.reads := by
  -- all events but a push leave the queue and the histories alone
  have hkeeps : ∀ {s' : Sys}, s.kernel.KeepsQueue s'.kernel → s'.appended = s.appended →
      s'.reads = s.reads → ∃ rs, s'.kernel.queued = s.kernel.queued ++ rs ∧
        s'.appended = s.appended ++ rs ∧ s'.reads = s.reads := by
    intro s' hk happended hreads
    exact ⟨[], by simpa using hk.queued_eq, by simpa using happended, hreads⟩
  cases e with
  | enterSyscall p regs a =>
      have hsaved := inv_saveRegs h.kernel p regs
      obtain ⟨_, ⟨rfl, _⟩ | ⟨q, _, rfl, _, _, hopen, hq⟩⟩ := (enterSyscall_cases s p regs a).of_ok hs
      · exact hkeeps (keepsQueue_saveRegs s.kernel p regs) rfl rfl
      · exact hkeeps ((keepsQueue_saveRegs s.kernel p regs).trans
          (hsaved.openRecord hq hopen p).2.2) rfl rfl
  | exitSyscall p regs =>
      have hsaved := inv_saveRegs h.kernel p regs
      rcases (exitSyscall_cases h p regs).of_ok hs with
        ⟨_, rfl⟩ | ⟨_, q, r, R, hopen, ⟨_, rfl⟩ | ⟨_, rfl⟩⟩
      · exact hkeeps (keepsQueue_saveRegs s.kernel p regs) rfl rfl
      · refine ⟨[completedValue (s.kernel.saveRegs p regs) R], ?_, rfl, rfl⟩
        exact queued_push hsaved ⟨hopen.current, hopen.block, hopen.value⟩
      · exact hkeeps ((keepsQueue_saveRegs s.kernel p regs).trans
          (hsaved.discardRecord hopen.current hopen.block).2.2) rfl rfl
  | enterWrite p fn regs a =>
      rcases (enterWrite_cases s p fn regs a).of_ok hs with ⟨rfl, _⟩ | ⟨c, _, rfl, _, _, _, hc, _⟩
      · exact hkeeps (Kernel.KeepsQueue.refl s.kernel) rfl rfl
      · exact hkeeps (h.kernel.openCopy hc (fn.begun regs)).2.2 rfl rfl
  | exitWrite p returnValue mem =>
      obtain ⟨fn, _, _, _, ⟨_, rfl⟩ | ⟨_, c, regs, hcopy, hc, hlen, hret⟩⟩ :=
        (exitWrite_cases h p returnValue mem).of_ok hs
      · exact hkeeps (Kernel.KeepsQueue.refl s.kernel) rfl rfl
      · rcases hret with ⟨_, rfl⟩ | ⟨_, q, r, R, hopen, rfl⟩
        · exact hkeeps (h.kernel.dropCopy hcopy).2.2 rfl rfl
        · have hqueue := (h.kernel.appendCopy hopen.current hopen.block (by simp [hc])
            (h.kernel.copy c hcopy).2 (fn.ended_sized mem hlen)).2.2.2
          exact hkeeps ⟨hqueue.pointers, hqueue.values⟩ rfl rfl
  | enterWrap p w regs mem allocated =>
      cases hs
      exact hkeeps (Kernel.KeepsQueue.refl s.kernel) rfl rfl
  | exitWrap p mem allocated allocs =>
      obtain ⟨_, _, _, _, rfl, hw⟩ := (exitWrap_cases h p mem allocated allocs).of_ok hs
      exact hkeeps hw.queue rfl rfl
  | writeProc ppos count parsed =>
      cases hs
      rcases writeProc_eq s.kernel ppos count parsed with heq | ⟨pid, _, heq⟩
      · refine hkeeps ?_ rfl rfl
        rw [writePid, heq]
        exact Kernel.KeepsQueue.refl s.kernel
      · refine hkeeps ?_ rfl rfl
        rw [writePid, heq]
        exact ⟨rfl, fun _ _ => rfl⟩
  | read r =>
      exact absurd rfl (he r)

theorem queued_nil {k : Kernel} (h : k.recordedSyscalls = []) : k.queued = [] := by
  simp [Kernel.queued, h]

/-- What a clean read does to the queue and to the stream. -/
theorem read_split {s s' : Sys} (h : s.Inv) {r : ReadArgs} (he : s.CleanRead (.read r))
    (hs : s.step (.read r) = .ok s') :
    ∃ out lost, ReadSplit r.size.toNat s.kernel.queued out lost s'.kernel.queued ∧
      s'.delivered = s.delivered ++ dumps out ∧ s'.appended = s.appended := by
  obtain ⟨hreliable, hlen⟩ := he
  obtain ⟨k', u, n, hread, hsize, rfl, _⟩ := (read_cases h r).of_ok hs
  by_cases hempty : s.kernel.recordedSyscalls = []
  · -- an empty FIFO: the read returns at once or is interrupted, and has stored nothing
    have hkernel : k' = s.kernel ∧ n.toNat = 0 := by
      simp only [Kernel.readProc, hempty, List.isEmpty_nil, if_true] at hread
      split at hread
      · cases hread
        exact ⟨rfl, rfl⟩
      · split at hread
        · cases hread
          exact ⟨rfl, rfl⟩
        · cases hread
    obtain ⟨rfl, hn⟩ := hkernel
    have hqueue := queued_nil hempty
    refine ⟨[], [], ⟨?_, ?_, ?_, ?_⟩, ?_, rfl⟩
    · simp [hqueue]
    · simp [dumpsLen]
    · simp [hqueue, dumpsLen]
    · simp [hqueue]
    · simp [delivered, dumps, hn]
  · have hlive : s.kernel.QueueLive := fun p hp => h.kernel.live p (Kernel.Inv.mem_owned hp)
    have hnodup : s.kernel.recordedSyscalls.Nodup := (List.nodup_append.1 h.kernel.nodup).1
    have hdump : ∀ R ∈ s.kernel.queued, Record.Dumpable R := fun R hR =>
      ⟨(h.kernel.queued_sized hR).copies, hlen R hR⟩
    obtain ⟨k₁, u₁, out, lost, left, hread₁, hsplit, hleft, hwrites⟩ :=
      Kernel.readProc_reliable hempty h.kernel.heap hlive hnodup hdump hsize hreliable
    rw [hread] at hread₁
    simp only [Except.ok.injEq, Prod.mk.injEq] at hread₁
    obtain ⟨rfl, rfl, hret⟩ := hread₁
    -- `-EINVAL` goes with no record delivered
    have hcount : n.toNat = dumpsLen out := by
      split at hret
      · rw [hret, Int.toNat_natCast]
      · rename_i hnone
        have hout : ¬lost = [] ∧ out = [] := by
          simpa using hnone
        rw [hret, hout.2]
        rfl
    refine ⟨out, lost, hleft ▸ hsplit, ?_, rfl⟩
    have hstored : u.stored = dumps out := by
      rw [UserSpace.stored, hwrites, flatMap_snd_layOut, flatten_chunks]
    have hwhole : (dumps out).take n.toNat = dumps out := by
      apply List.take_of_length_le
      rw [length_dumps, hcount]
    simp [delivered, hstored, hwhole]

/-- A stream that has lost bytes never gets them back. -/
theorem Short.step {s s' : Sys} (h : s.Inv) (hshort : s.Short) {e : Event} (he : s.CleanRead e)
    (hs : s.step e = .ok s') : s'.Short := by
  simp only [Short] at hshort ⊢
  by_cases hread : ∃ r, e = .read r
  · -- a read moves bytes from the queue to the stream and may lose some more
    obtain ⟨r, rfl⟩ := hread
    obtain ⟨out, lost, hsplit, hdelivered, happended⟩ := read_split h he hs
    have hqueue := congrArg dumpsLen hsplit.queued_eq
    rw [dumpsLen_append, dumpsLen_append] at hqueue
    rw [hdelivered, happended, List.length_append, length_dumps]
    omega
  · -- any other event adds the same to both sides
    obtain ⟨rs, hqueue, happended, hreads⟩ := queued_step h (fun r heq => hread ⟨r, heq⟩) hs
    have hdelivered : s'.delivered = s.delivered := by
      rw [delivered, delivered, hreads]
    rw [hdelivered, hqueue, happended, dumpsLen_append, dumpsLen_append]
    omega

theorem Complete.step {s s' : Sys} (h : s.Inv) (hcomplete : s.Complete) {e : Event}
    (he : s.CleanRead e) (hs : s.step e = .ok s') :
    (s.ReadsAll e → s'.Complete) ∧ (¬s.ReadsAll e → s'.Short) := by
  simp only [Complete] at hcomplete ⊢
  by_cases hread : ∃ r, e = .read r
  · obtain ⟨r, rfl⟩ := hread
    obtain ⟨out, lost, hsplit, hdelivered, happended⟩ := read_split h he hs
    constructor
    · -- room for all: nothing is lost, and the stream goes on without a gap
      intro hall
      have hlost : lost = [] := hsplit.lost_iff.2 hall
      have hqueue := hsplit.queued_eq
      rw [hlost, List.append_nil] at hqueue
      calc s'.delivered ++ dumps s'.kernel.queued
          = s.delivered ++ dumps (out ++ s'.kernel.queued) := by
            rw [hdelivered, List.append_assoc, dumps_append]
        _ = s.delivered ++ dumps s.kernel.queued := by rw [hqueue]
        _ = dumps s'.appended := by rw [hcomplete, happended]
    · -- a record is lost, and its bytes are missing from now on
      intro hall
      have hpos := dumpsLen_pos fun hlost => hall (hsplit.lost_iff.1 hlost)
      have hqueue := congrArg dumpsLen hsplit.queued_eq
      have htotal := congrArg List.length hcomplete
      rw [dumpsLen_append, dumpsLen_append] at hqueue
      rw [List.length_append, length_dumps, length_dumps] at htotal
      simp only [Short]
      rw [hdelivered, happended, List.length_append, length_dumps]
      omega
  · have hall : s.ReadsAll e := by
      cases e with
      | read r =>
          exact absurd ⟨r, rfl⟩ hread
      | _ =>
          trivial
    obtain ⟨rs, hqueue, happended, hreads⟩ := queued_step h (fun r heq => hread ⟨r, heq⟩) hs
    have hdelivered : s'.delivered = s.delivered := by
      rw [delivered, delivered, hreads]
    refine ⟨fun _ => ?_, fun hnot => absurd hall hnot⟩
    calc s'.delivered ++ dumps s'.kernel.queued
        = s.delivered ++ dumps s.kernel.queued ++ dumps rs := by
          rw [hdelivered, hqueue, dumps_append, List.append_assoc]
      _ = dumps s'.appended := by rw [hcomplete, happended, dumps_append]

/-! ## Every run -/

theorem short_run {es : List Event} :
    ∀ {s s' : Sys}, s.Inv → s.Short → AllSteps step CleanRead s es → run step s es = .ok s' →
      s'.Short := by
  intro s s' hinv hshort hclean hrun
  refine (run_preserves (I := fun s _ => s.Inv ∧ s.Short) (fun (c : Unit) _ => c) ?_ (c := ())
    ⟨hinv, hshort⟩ hclean hrun).2
  rintro s _ e s' ⟨hinv, hshort⟩ he hs
  exact ⟨hinv.step_ok hs, hshort.step hinv he hs⟩

theorem complete_run_iff {es : List Event} :
    ∀ {s s' : Sys}, s.Inv → s.Complete → AllSteps step CleanRead s es → run step s es = .ok s' →
      (s'.Complete ↔ AllSteps step ReadsAll s es) := by
  -- on the run: after the first read that loses a record, the stream stays short
  induction es with
  | nil =>
      intro s s' _ hcomplete _ hrun
      cases hrun
      exact ⟨fun _ => trivial, fun _ => hcomplete⟩
  | cons e es ih =>
      intro s s' hinv hcomplete hclean hrun
      obtain ⟨s₁, hs, hrest⟩ := run_cons_ok.1 hrun
      obtain ⟨hkeep, hlose⟩ := hcomplete.step hinv hclean.1 hs
      have hinv₁ := hinv.step_ok hs
      have hclean₁ := hclean.2 s₁ hs
      by_cases hall : s.ReadsAll e
      · rw [ih hinv₁ (hkeep hall) hclean₁ hrest]
        constructor
        · intro hsteps
          refine ⟨hall, fun s₂ hs₂ => ?_⟩
          rw [hs] at hs₂
          cases hs₂
          exact hsteps
        · intro hsteps
          exact hsteps.2 s₁ hs
      · constructor
        · intro hend
          exact absurd hend (short_run hinv₁ (hlose hall) hclean₁ hrest).incomplete
        · intro hsteps
          exact absurd hsteps.1 hall

/-- The stream of all readers together with the FIFO is the stream of all pushed records exactly if
every read had room for all the records that were queued. -/
theorem complete_iff_readsAll {pid : Int} {taskPtRegs : Pid → PtRegs} {es : List Event} {s : Sys}
    (hrun : run step (init pid taskPtRegs) es = .ok s)
    (hclean : AllSteps step CleanRead (init pid taskPtRegs) es) :
    s.Complete ↔ AllSteps step ReadsAll (init pid taskPtRegs) es :=
  complete_run_iff (inv_init pid taskPtRegs) rfl hclean hrun

/-- A read of 200 bytes; the dump of a record without copies takes 184. -/
def shortRead : ReadArgs where
  buf := 0
  size := 200
  nonblock := true
  signalPending := false
  faults := []

/-- Process 1 makes one syscall and the record is read. -/
def oneRecord : List Event :=
  [.enterSyscall 1 (fun _ => 0) (some 16), .exitSyscall 1 (fun _ => 0), .read shortRead]

set_option maxRecDepth 20000 in
theorem complete_iff_oneRecord :
    ∃ s, run step (init 1 fun _ _ => 0) oneRecord = .ok s ∧
      (s.Complete ↔ AllSteps step ReadsAll (init 1 fun _ _ => 0) oneRecord) := by
  obtain ⟨s, hrun⟩ : ∃ s, run step (init 1 fun _ _ => 0) oneRecord = .ok s := ⟨_, rfl⟩
  refine ⟨s, hrun, complete_iff_readsAll hrun ?_⟩
  refine ⟨trivial, fun s₁ h₁ => ⟨trivial, fun s₂ h₂ => ⟨?_, fun _ _ => trivial⟩⟩⟩
  cases h₁
  cases h₂
  refine ⟨by simp [UserSpace.Reliable, ReadArgs.user, shortRead], ?_⟩
  intro R hR
  rw [List.mem_singleton.1 hR]
  decide

/-- Process 1 makes two syscalls before one read, which has room for the first record only. -/
def twoRecords : List Event :=
  [.enterSyscall 1 (fun _ => 0) (some 16), .exitSyscall 1 (fun _ => 0),
    .enterSyscall 1 (fun _ => 0) (some 32), .exitSyscall 1 (fun _ => 0), .read shortRead]

set_option maxRecDepth 20000 in
/-- The read returns 184, and the second record is gone. -/
theorem not_complete :
    ¬∀ (pid : Int) (taskPtRegs : Pid → PtRegs) (es : List Event) (s : Sys),
      run step (init pid taskPtRegs) es = .ok s →
      AllSteps step CleanRead (init pid taskPtRegs) es → (∀ r ∈ s.reads, 0 ≤ r.1) → s.Complete := by
  intro h
  obtain ⟨s, hrun, hreads⟩ : ∃ s, run step (init 1 fun _ _ => 0) twoRecords = .ok s ∧
      s.reads.map Prod.fst = [184] := ⟨_, rfl, rfl⟩
  have hcount : ∀ r ∈ s.reads, 0 ≤ r.1 := by
    intro r hr
    have hmem : r.1 ∈ s.reads.map Prod.fst := List.mem_map_of_mem hr
    rw [hreads, List.mem_singleton] at hmem
    omega
  refine Short.incomplete ?_ (h 1 (fun _ _ => 0) twoRecords s hrun ?_ hcount)
  · cases hrun
    decide
  · refine ⟨trivial, fun s₁ h₁ => ⟨trivial, fun s₂ h₂ => ⟨trivial, fun s₃ h₃ => ⟨trivial,
      fun s₄ h₄ => ⟨?_, fun _ _ => trivial⟩⟩⟩⟩⟩
    cases h₁
    cases h₂
    cases h₃
    cases h₄
    refine ⟨by simp [UserSpace.Reliable, ReadArgs.user, shortRead], ?_⟩
    intro R hR
    rcases List.mem_cons.1 hR with rfl | hR
    · decide
    · rw [List.mem_singleton.1 hR]
      decide

end Sys

end RrPython
