import RrPython.Recorder.Delivery
import RrPython.Recorder.Refinement

/-!
# Accounting — where every record went

Each record that was put into the FIFO is still there, or was stored in a reader's buffer, or was lost to
a read whose buffer ended before it.  The lost ones, with their copies, are all that has leaked: nothing
else is allocated that the module cannot reach.
-/

namespace RrPython

open Foundation

/-! ## One call of `dump_records` -/

/-- What `dump_records` takes out of the FIFO when every `copy_to_user` succeeds: all that fits, and one
record more. -/
def takenBy (size : Nat) (rs : List Record) : List (Record × Fate) :=
  (fittingPrefix Record.dumpLen size rs).map (fun R => (R, .stored)) ++
    ((rs.drop (fittingPrefix Record.dumpLen size rs).length).take 1).map fun R => (R, .lost)

/-- `d` is such a call, with the records `rs` in the FIFO and `size` bytes of buffer. -/
structure DumpedWell (size : Nat) (rs : List Record) (u : UserSpace) (sizeWritten : Int)
    (didDoFirstWrite : Bool) (d : Dumped) : Prop where
  taken : d.taken = takenBy size rs
  stored : d.user.stored = u.stored ++ dumps (fittingPrefix Record.dumpLen size rs)
  ret : d.ret = if didDoFirstWrite = true ∨ fittingPrefix Record.dumpLen size rs ≠ [] then
    sizeWritten + dumpsLen (fittingPrefix Record.dumpLen size rs) else -Kernel.einval

theorem takenBy_of_le {size : Nat} {R : Record} {rest : List Record} (hle : R.dumpLen ≤ size) :
    takenBy size (R :: rest) = (R, .stored) :: takenBy (size - R.dumpLen) rest := by
  simp [takenBy, fittingPrefix_of_le hle]

theorem takenBy_of_lt {size : Nat} {R : Record} {rest : List Record} (hlt : size < R.dumpLen) :
    takenBy size (R :: rest) = [(R, .lost)] := by
  simp [takenBy, fittingPrefix_of_lt hlt]

theorem lt_getRecordLen_iff {R : Record} (hR : R.Dumpable) (size : Word) :
    size < getRecordLen R ↔ size.toNat < R.dumpLen := by
  rw [BitVec.lt_def, getRecordLen_toNat hR.copies hR.dumpLen_lt]

theorem dumpOne_lost {R : Record} {buf size : Word} {u : UserSpace} (hlt : size < getRecordLen R) :
    dumpOne R buf size u = (.lost, u) :=
  if_pos hlt

theorem dumpOne_stored {R : Record} (hR : R.Dumpable) (buf : Word) {size : Word} {u : UserSpace}
    (hu : u.Reliable) (hfits : ¬size < getRecordLen R) :
    ∃ u', dumpOne R buf size u = (.stored, u') ∧ u'.Reliable ∧
      u'.stored = u.stored ++ Record.dump R := by
  obtain ⟨u₁, hheader, hf₁, hw₁⟩ := dumpSyscallRecord_serves R buf (hu.serves 1)
  have hu₁ : u₁.Reliable := by
    intro n hn
    rw [hf₁] at hn
    exact hu n (List.mem_of_mem_drop hn)
  obtain ⟨u₂, hcopies, hf₂, hw₂⟩ := dumpCopyRecords_serves hR.copies (buf + sizeofSyscallDump)
    (hu₁.serves R.copiesToUser.length)
  refine ⟨u₂, ?_, ?_, ?_⟩
  · rw [dumpOne, if_neg hfits]
    simp [hheader, hcopies]
  · intro n hn
    rw [hf₂] at hn
    exact hu₁ n (List.mem_of_mem_drop hn)
  · simp only [UserSpace.stored, hw₂, hw₁, List.flatMap_append, flatMap_snd_layOut]
    simp [Record.dump, List.flatMap]

theorem dumpedWell (rest : List Record) :
    ∀ (R : Record) (buf size : Word) (u : UserSpace) (sizeWritten : Int) (didDoFirstWrite : Bool),
      (∀ R' ∈ R :: rest, Record.Dumpable R') → u.Reliable →
      DumpedWell size.toNat (R :: rest) u sizeWritten didDoFirstWrite
        (dumpValues R rest buf size u sizeWritten didDoFirstWrite) := by
  -- a record that does not fit ends the call
  have hlost : ∀ (rest : List Record) (R : Record) (buf size : Word) (u : UserSpace)
      (sizeWritten : Int) (didDoFirstWrite : Bool), Record.Dumpable R → size < getRecordLen R →
      DumpedWell size.toNat (R :: rest) u sizeWritten didDoFirstWrite
        (dumpValues R rest buf size u sizeWritten didDoFirstWrite) := by
    intro rest R buf size u sizeWritten didDoFirstWrite hR hlt
    have hone : dumpOne R buf size u = (.lost, u) := dumpOne_lost hlt
    have hnat := (lt_getRecordLen_iff hR size).1 hlt
    refine ⟨?_, ?_, ?_⟩
    · rw [takenBy_of_lt hnat]
      cases rest <;> simp [dumpValues, hone]
    · rw [fittingPrefix_of_lt hnat]
      cases rest <;> simp [dumpValues, hone, dumps]
    · rw [fittingPrefix_of_lt hnat]
      cases rest <;> simp [dumpValues, hone, dumpsLen]
  induction rest with
  | nil =>
      intro R buf size u sizeWritten didDoFirstWrite hdumpable hu
      have hR := hdumpable R List.mem_cons_self
      by_cases hlt : size < getRecordLen R
      · exact hlost [] R buf size u sizeWritten didDoFirstWrite hR hlt
      · obtain ⟨u', hone, _, hstored⟩ := dumpOne_stored hR buf hu hlt
        have hle : R.dumpLen ≤ size.toNat := by
          rw [lt_getRecordLen_iff hR] at hlt
          omega
        have hlen := getRecordLen_toNat hR.copies hR.dumpLen_lt
        refine ⟨?_, ?_, ?_⟩
        · rw [takenBy_of_le hle]
          simp [dumpValues, hone, takenBy]
        · simp [dumpValues, hone, fittingPrefix_of_le hle, hstored, dumps]
        · simp [dumpValues, hone, fittingPrefix_of_le hle, dumpsLen, hlen]
  | cons R' rest ih =>
      intro R buf size u sizeWritten didDoFirstWrite hdumpable hu
      have hR := hdumpable R List.mem_cons_self
      by_cases hlt : size < getRecordLen R
      · exact hlost (R' :: rest) R buf size u sizeWritten didDoFirstWrite hR hlt
      · obtain ⟨u', hone, hu', hstored⟩ := dumpOne_stored hR buf hu hlt
        have hle : R.dumpLen ≤ size.toNat := by
          rw [lt_getRecordLen_iff hR] at hlt
          omega
        have hlen := getRecordLen_toNat hR.copies hR.dumpLen_lt
        have hsub : (size - getRecordLen R).toNat = size.toNat - R.dumpLen := by
          rw [BitVec.toNat_sub_of_le (BitVec.not_lt.1 hlt), hlen]
        have hnext := ih R' (buf + getRecordLen R) (size - getRecordLen R) u'
          (sizeWritten + (getRecordLen R).toNat) true
          (fun R'' hR'' => hdumpable R'' (List.mem_cons_of_mem R hR'')) hu'
        rw [hsub] at hnext
        refine ⟨?_, ?_, ?_⟩
        · rw [takenBy_of_le hle, ← hnext.taken]
          simp [dumpValues, hone]
        · rw [fittingPrefix_of_le hle]
          simp [dumpValues, hone, hnext.stored, hstored, dumps]
        · rw [fittingPrefix_of_le hle]
          have hret : (dumpValues R (R' :: rest) buf size u sizeWritten didDoFirstWrite).ret =
              sizeWritten + R.dumpLen +
                dumpsLen (fittingPrefix Record.dumpLen (size.toNat - R.dumpLen) (R' :: rest)) := by
            simpa [dumpValues, hone, hlen] using hnext.ret
          rw [hret]
          simp [dumpsLen, Int.add_assoc]

/-! ## One event -/

namespace ValueSys

variable {v v' : ValueSys}

/-- The bytes that the reads so far have returned. -/
def delivered (v : ValueSys) : List Byte :=
  v.reads.flatMap fun x => x.2.take x.1.toNat

/-- Only a read adds to the histories. -/
theorem histories_step {e : Event} (he : ∀ r, e ≠ .read r) (hs : v.step e = .ok v') :
    v'.taken = v.taken ∧ v'.reads = v.reads := by
  cases e with
  | enterSyscall p regs a =>
      simp only [step, enterSyscall] at hs
      split at hs
      · split at hs <;> (cases hs; exact ⟨rfl, rfl⟩)
      · cases hs
  | exitSyscall p regs =>
      simp only [step, exitSyscall] at hs
      split at hs
      · split at hs <;> (cases hs; exact ⟨rfl, rfl⟩)
      · cases hs
        exact ⟨rfl, rfl⟩
      · cases hs
  | enterWrite p fn regs a =>
      simp only [step, enterWrite] at hs
      split at hs <;> (cases hs; exact ⟨rfl, rfl⟩)
  | exitWrite p returnValue mem =>
      simp only [step, exitWrite] at hs
      split at hs
      · split at hs
        · cases hs
          exact ⟨rfl, rfl⟩
        · split at hs <;> cases hs
          exact ⟨rfl, rfl⟩
      · cases hs
        exact ⟨rfl, rfl⟩
      · cases hs
  | enterWrap p w regs mem allocated =>
      cases hs
      exact ⟨rfl, rfl⟩
  | exitWrap p mem allocated allocs =>
      simp only [step, exitWrap] at hs
      split at hs
      · split at hs
        · cases hs
          exact ⟨rfl, rfl⟩
        · split at hs <;> cases hs
          exact ⟨rfl, rfl⟩
      · cases hs
  | writeProc ppos count parsed =>
      simp only [step, writePid] at hs
      split at hs <;> (cases hs; exact ⟨rfl, rfl⟩)
  | read r =>
      exact absurd rfl (he r)

/-- A read, by what is in the FIFO. -/
theorem read_cases {r : ReadArgs} (hs : v.read r = .ok v') :
    (v.recordedSyscalls = [] ∧ v'.taken = v.taken ∧
      ∃ n : Int, n.toNat = 0 ∧ v'.reads = v.reads ++ [(n, [])]) ∨
    ∃ R rest, v.recordedSyscalls = R :: rest ∧
      v'.taken = v.taken ++ (dumpValues R rest r.buf r.size r.user 0 false).taken ∧
      v'.reads = v.reads ++ [((dumpValues R rest r.buf r.size r.user 0 false).ret,
        (dumpValues R rest r.buf r.size r.user 0 false).user.stored)] := by
  unfold read at hs
  split at hs
  · cases hs
  · split at hs
    · rename_i hqueue
      split at hs
      · cases hs
        exact Or.inl ⟨hqueue, rfl, 0, rfl, rfl⟩
      · split at hs
        · cases hs
          exact Or.inl ⟨hqueue, rfl, -Kernel.erestartsys, by decide, rfl⟩
        · cases hs
    · rename_i R rest hqueue
      cases hs
      exact Or.inr ⟨R, rest, hqueue, rfl, rfl⟩

end ValueSys

theorem map_filter_fates (xs ys : List Record) :
    (((xs.map fun R => (R, Fate.stored)) ++ ys.map fun R => (R, Fate.lost)).filter
        fun x => x.2 = .stored).map Prod.fst = xs ∧
      (((xs.map fun R => (R, Fate.stored)) ++ ys.map fun R => (R, Fate.lost)).filter
        fun x => x.2 = .lost).map Prod.fst = ys := by
  simp [List.filter_map, Function.comp_def]

/-- The fates of the records that a call takes. -/
theorem takenBy_fates (size : Nat) (rs : List Record) :
    (∀ x ∈ takenBy size rs, x.2 ≠ .failed) ∧
      ((takenBy size rs).filter fun x => x.2 = .stored).map Prod.fst =
        fittingPrefix Record.dumpLen size rs ∧
      ((takenBy size rs).filter fun x => x.2 = .lost).length =
        if dumpsLen rs ≤ size then 0 else 1 := by
  have hsplit := readSplit_fittingPrefix size rs
  refine ⟨?_, ?_, ?_⟩
  · intro x hx
    simp only [takenBy, List.mem_append, List.mem_map] at hx
    rcases hx with ⟨R, _, rfl⟩ | ⟨R, _, rfl⟩ <;> simp
  · exact (map_filter_fates _ _).1
  · have hlength : ((takenBy size rs).filter fun x => x.2 = .lost).length =
        ((rs.drop (fittingPrefix Record.dumpLen size rs).length).take 1).length := by
      have hmap := congrArg List.length (map_filter_fates (fittingPrefix Record.dumpLen size rs)
        ((rs.drop (fittingPrefix Record.dumpLen size rs).length).take 1)).2
      rwa [List.length_map] at hmap
    rw [hlength]
    split
    · rename_i hle
      rw [hsplit.lost_iff.2 hle]
      rfl
    · rename_i hgt
      have hne := mt hsplit.lost_iff.1 hgt
      have hpos := List.length_pos_of_ne_nil hne
      have hone := List.length_take_le 1 (rs.drop (fittingPrefix Record.dumpLen size rs).length)
      omega

namespace Sys

instance (s : Sys) (e : Event) : Decidable (s.ReadsAll e) := by
  cases e <;> unfold ReadsAll <;> infer_instance

/-- No read has failed, `n` records were lost, and the readers have the rest of what was taken. -/
structure Accounted (n : Nat) (v : ValueSys) : Prop where
  noFailed : ∀ x ∈ v.taken, x.2 ≠ .failed
  lost : (v.withFate .lost).length = n
  delivered : v.delivered = dumps (v.withFate .stored)

theorem accounted_step {n : Nat} {s : Sys} {v v' : ValueSys} {e : Event} (h : RefinesValues s v)
    (hacc : Accounted n v) (hclean : s.CleanRead e) (hv : v.step e = .ok v') :
    Accounted (n + if ¬s.ReadsAll e then 1 else 0) v' := by
  by_cases hread : ∃ r, e = .read r
  · obtain ⟨r, rfl⟩ := hread
    obtain ⟨lost, hstands⟩ := h.stands
    have hqueue := hstands.queued_eq
    obtain ⟨hreliable, hlen⟩ := hclean
    rcases ValueSys.read_cases hv with ⟨hempty, htaken, m, hm, hreads⟩ | ⟨R, rest, hcons, htaken, hreads⟩
    · -- nothing to read
      have hall : s.ReadsAll (.read r) := by
        simp [ReadsAll, hqueue, hempty, dumpsLen]
      rw [if_neg (not_not.2 hall)]
      refine ⟨htaken ▸ hacc.noFailed, ?_, ?_⟩
      · simpa [ValueSys.withFate, htaken] using hacc.lost
      · simpa [ValueSys.withFate, ValueSys.delivered, htaken, hreads, hm] using hacc.delivered
    · have hdumpable : ∀ R' ∈ R :: rest, Record.Dumpable R' := by
        intro R' hR'
        have hmem : R' ∈ s.kernel.queued := by
          rw [hqueue, hcons]
          exact hR'
        exact ⟨(h.inv.kernel.queued_sized hmem).copies, hlen R' hmem⟩
      have hd := dumpedWell rest R r.buf r.size r.user 0 false hdumpable hreliable
      obtain ⟨hnone, hstored, hlost⟩ := takenBy_fates r.size.toNat (R :: rest)
      rw [← hd.taken] at hnone hstored hlost
      refine ⟨?_, ?_, ?_⟩
      · intro x hx
        rw [htaken, List.mem_append] at hx
        exact hx.elim (hacc.noFailed x) (hnone x)
      · have hreadsAll : s.ReadsAll (.read r) ↔ dumpsLen (R :: rest) ≤ r.size.toNat := by
          rw [ReadsAll, hqueue, hcons]
        simp only [ValueSys.withFate, htaken, List.filter_append, List.map_append,
          List.length_append, List.length_map] at hlost ⊢
        have hold := hacc.lost
        simp only [ValueSys.withFate, List.length_map] at hold
        rw [hold, hlost]
        by_cases hle : dumpsLen (R :: rest) ≤ r.size.toNat
        · rw [if_pos hle, if_neg (not_not.2 (hreadsAll.2 hle))]
        · rw [if_neg hle, if_pos (mt hreadsAll.1 hle)]
      · -- the read has returned the bytes that it stored
        have hbytes : ((dumpValues R rest r.buf r.size r.user 0 false).user.stored).take
            (dumpValues R rest r.buf r.size r.user 0 false).ret.toNat =
            dumps (fittingPrefix Record.dumpLen r.size.toNat (R :: rest)) := by
          rw [hd.stored, hd.ret]
          by_cases hfit : fittingPrefix Record.dumpLen r.size.toNat (R :: rest) = []
          · simp [hfit, dumps, UserSpace.stored, ReadArgs.user]
          · simp only [hfit, ne_eq, not_false_iff, or_true, if_true]
            have hstart : r.user.stored = [] := rfl
            rw [hstart, List.nil_append, Int.zero_add, Int.toNat_natCast, ← length_dumps,
              List.take_length]
        rw [ValueSys.delivered, hreads, List.flatMap_append]
        rw [ValueSys.withFate, htaken, List.filter_append, List.map_append, dumps_append, hstored]
        have hold := hacc.delivered
        rw [ValueSys.delivered, ValueSys.withFate] at hold
        rw [hold]
        simp [hbytes]
  · have hne : ∀ r, e ≠ .read r := fun r heq => hread ⟨r, heq⟩
    obtain ⟨htaken, hreads⟩ := ValueSys.histories_step hne hv
    have hall : s.ReadsAll e := by
      cases e <;> first | trivial | exact absurd rfl (hne _)
    rw [if_neg (not_not.2 hall)]
    refine ⟨htaken ▸ hacc.noFailed, ?_, ?_⟩
    · simpa [ValueSys.withFate, htaken] using hacc.lost
    · simpa [ValueSys.withFate, ValueSys.delivered, htaken, hreads] using hacc.delivered

/-! ## Every run -/

/-- In a run of clean reads each read that has no room for all queued records loses one, and the readers
have all others that were taken. -/
theorem accounted_run {pid : Int} {taskPtRegs : Pid → PtRegs} {es : List Event} {s : Sys}
    (hrun : run step (init pid taskPtRegs) es = .ok s)
    (hclean : AllSteps step CleanRead (init pid taskPtRegs) es) :
    ∃ v, run ValueSys.step (ValueSys.init pid taskPtRegs) es = .ok v ∧ RefinesValues s v ∧
      Accounted (countSteps step (fun s e => ¬s.ReadsAll e) (init pid taskPtRegs) es) v := by
  have hstart : Accounted 0 (ValueSys.init pid taskPtRegs) := by
    refine ⟨?_, rfl, rfl⟩
    intro x hx
    cases hx
  obtain ⟨v, hv, hrefines, hacc⟩ := RefinesValues.simulates.run_preserves
    (J := fun n _ _ v => Accounted n v) (P := fun s e => ¬s.ReadsAll e) (fun (c : Unit) _ => c)
    (fun n c s v e s' v' h hacc hC _ hv _ => accounted_step h hacc hC hv) (c := ())
    (RefinesValues.init pid taskPtRegs) hstart hclean hrun
  exact ⟨v, hv, hrefines, by simpa using hacc⟩

/-- In every reachable state the allocated blocks are those that the module can reach and, for each
record that a read has lost, the record and its copies.  Nothing else has leaked. -/
theorem allocated_iff_reached_or_lost {pid : Int} {taskPtRegs : Pid → PtRegs} {es : List Event}
    {s : Sys} (hrun : run step (init pid taskPtRegs) es = .ok s) :
    ∃ (v : ValueSys) (leaked : List Ptr),
      run ValueSys.step (ValueSys.init pid taskPtRegs) es = .ok v ∧
      leaked.map (heapRecord s.kernel.heap) = (v.withFate .lost).map some ∧
      (leaked ++ s.kernel.owned).Nodup ∧
      ∀ x, (s.kernel.heap x).isSome ↔ s.kernel.Reached x ∨ x ∈ leaked ∨
        ∃ p r, p ∈ leaked ∧ s.kernel.heap p = some (.syscallRecord r) ∧ x ∈ r.copiesToUser := by
  obtain ⟨v, hv, hrefines⟩ := RefinesValues.of_run hrun
  obtain ⟨leaked, hstands⟩ := hrefines.stands
  have howned : (s.kernel.withLost leaked).owned = leaked ++ s.kernel.owned := by
    simp [Kernel.owned, Kernel.withLost]
  have hmem : ∀ x, x ∈ (s.kernel.withLost leaked).owned ↔ x ∈ leaked ∨ x ∈ s.kernel.owned := by
    intro x
    rw [howned, List.mem_append]
  refine ⟨v, leaked, hv, hstands.lostValues, howned ▸ hstands.inv.nodup, fun x => ⟨?_, ?_⟩⟩
  · -- whatever is allocated can be reached once the lost records count as queued
    intro hx
    rcases hstands.covered x hx with hx | hx | ⟨p, r, hp, hr, hx⟩
    · rcases (hmem x).1 hx with hx | hx
      · exact Or.inr (Or.inl hx)
      · exact Or.inl (Or.inl hx)
    · exact Or.inl (Or.inr (Or.inl hx))
    · rcases (hmem p).1 hp with hp | hp
      · exact Or.inr (Or.inr ⟨p, r, hp, hr, hx⟩)
      · exact Or.inl (Or.inr (Or.inr ⟨p, r, hp, hr, hx⟩))
  · -- records, the pending copy and listed copies are all allocated
    have hrecord : ∀ p ∈ (s.kernel.withLost leaked).owned, (s.kernel.heap p).isSome := by
      intro p hp
      obtain ⟨r, hr⟩ := hstands.inv.live p hp
      have hblock : s.kernel.heap p = some (.syscallRecord r) := hr
      simp [hblock]
    have hlisted : ∀ p r, s.kernel.heap p = some (.syscallRecord r) → x ∈ r.copiesToUser →
        (s.kernel.heap x).isSome := by
      intro p r hr hx
      obtain ⟨d, hd⟩ := hrefines.inv.kernel.heap.element hr hx
      simp [hd]
    rintro ((hx | hx | ⟨p, r, _, hr, hx⟩) | hx | ⟨p, r, _, hr, hx⟩)
    · exact hrecord x ((hmem x).2 (Or.inr hx))
    · obtain ⟨⟨d, hd⟩, _⟩ := hrefines.inv.kernel.copy x hx
      simp [hd]
    · exact hlisted p r hr hx
    · exact hrecord x ((hmem x).2 (Or.inl hx))
    · exact hlisted p r hr hx

set_option maxRecDepth 20000 in
theorem allocated_iff_reached_or_lost_twoRecords :
    ∃ s, run step (init 1 fun _ _ => 0) twoRecords = .ok s ∧
      ∃ (v : ValueSys) (leaked : List Ptr),
        run ValueSys.step (ValueSys.init 1 fun _ _ => 0) twoRecords = .ok v ∧
        leaked.map (heapRecord s.kernel.heap) = (v.withFate .lost).map some := by
  obtain ⟨s, hrun⟩ : ∃ s, run step (init 1 fun _ _ => 0) twoRecords = .ok s := ⟨_, rfl⟩
  obtain ⟨v, leaked, hv, hleaked, _⟩ := allocated_iff_reached_or_lost hrun
  exact ⟨s, hrun, v, leaked, hv, hleaked⟩

end Sys

end RrPython
