import RrPython.Foundation.ShortInput
import RrPython.Replayer.Accepted

/-!
# Truncated — what the loader makes of a recording that breaks off

Nothing in a recording says how long it is.  One that breaks off between two syscalls is read like a
shorter recording; one that breaks off within a word, or within a payload that is not the last of its
syscall, is a `struct.error`.  Within the last payload of a syscall nobody notices: the slice is short,
and the syscall is loaded with what is left of the payload.
-/

namespace RrPython

open Foundation Foundation.Parser

/-! ## Cutting a record -/

namespace CopyRecord

/-- Without the last `missing` bytes of the payload, and with the length as it was. -/
def cut (c : CopyRecord) (missing : Nat) : CopyRecord :=
  { c with bytes := c.bytes.take (c.bytes.length - missing) }

def cutLast (missing : Nat) : List CopyRecord → List CopyRecord
  | [] => []
  | [c] => [c.cut missing]
  | c :: c' :: cs => c :: cutLast missing (c' :: cs)

/-- The length of the last payload. -/
def lastPayload : List CopyRecord → Nat
  | [] => 0
  | [c] => c.bytes.length
  | _ :: c' :: cs => lastPayload (c' :: cs)

theorem lastPayload_add_le (c : CopyRecord) (cs : List CopyRecord) :
    24 + lastPayload (c :: cs) ≤ ((c :: cs).flatMap toBytes).length := by
  induction cs generalizing c with
  | nil =>
      simp [lastPayload]
  | cons c' cs ih =>
      have htail := ih c'
      rw [lastPayload, List.flatMap_cons, List.length_append]
      omega

theorem lastPayload_le (cs : List CopyRecord) :
    lastPayload cs ≤ (cs.flatMap toBytes).length := by
  cases cs with
  | nil =>
      exact Nat.le_refl 0
  | cons c cs =>
      have hle := lastPayload_add_le c cs
      omega

theorem length_cutLast (missing : Nat) (cs : List CopyRecord) :
    (cutLast missing cs).length = cs.length := by
  induction cs with
  | nil =>
      rfl
  | cons c cs ih =>
      cases cs with
      | nil =>
          rfl
      | cons c' cs =>
          simpa [cutLast] using ih

/-- What is missing is missing at the end of the bytes. -/
theorem toBytes_cut {c : CopyRecord} {missing : Nat} (hmissing : missing ≤ c.bytes.length) :
    (c.cut missing).toBytes = c.toBytes.take (c.toBytes.length - missing) := by
  have hheader : (wordBytes c.fromAddr ++ (wordBytes c.toAddr ++ wordBytes c.len)).length = 24 := by
    simp
  have hsplit : c.toBytes.length - missing =
      (wordBytes c.fromAddr ++ (wordBytes c.toAddr ++ wordBytes c.len)).length +
        (c.bytes.length - missing) := by
    rw [hheader, length_toBytes]
    omega
  have hbytes : ∀ bytes : List Byte, ({ c with bytes } : CopyRecord).toBytes =
      (wordBytes c.fromAddr ++ (wordBytes c.toAddr ++ wordBytes c.len)) ++ bytes := by
    intro bytes
    simp [toBytes]
  have hwhole := hbytes c.bytes
  change c.toBytes = _ at hwhole
  rw [hsplit, hwhole, List.take_length_add_append, cut, hbytes]

theorem flatMap_cutLast (cs : List CopyRecord) {missing : Nat} (hmissing : missing ≤ lastPayload cs) :
    (cutLast missing cs).flatMap toBytes =
      (cs.flatMap toBytes).take ((cs.flatMap toBytes).length - missing) := by
  induction cs with
  | nil =>
      simp [cutLast]
  | cons c cs ih =>
      cases cs with
      | nil =>
          simpa [cutLast] using toBytes_cut hmissing
      | cons c' cs =>
          have hle := lastPayload_le (c' :: cs)
          have hmissing' : missing ≤ lastPayload (c' :: cs) := hmissing
          have hcons : (c :: c' :: cs).flatMap toBytes = c.toBytes ++ (c' :: cs).flatMap toBytes :=
            List.flatMap_cons
          have hsplit : (c.toBytes ++ (c' :: cs).flatMap toBytes).length - missing =
              c.toBytes.length + (((c' :: cs).flatMap toBytes).length - missing) := by
            rw [List.length_append]
            omega
          rw [hcons, hsplit, List.take_length_add_append, ← ih hmissing']
          rfl

end CopyRecord

namespace Record

/-- Without the last `missing` bytes of the last payload, and with all counters as they were. -/
def cut (r : Record) (missing : Nat) : Record :=
  { r with copiesToUser := CopyRecord.cutLast missing r.copiesToUser }

theorem dump_cut {r : Record} {missing : Nat}
    (hmissing : missing ≤ CopyRecord.lastPayload r.copiesToUser) :
    Record.dump (cut r missing) = (Record.dump r).take ((Record.dump r).length - missing) := by
  have hle := CopyRecord.lastPayload_le r.copiesToUser
  have hsplit : (Record.dump r).length - missing = r.dumpHeader.length +
      ((r.copiesToUser.flatMap CopyRecord.toBytes).length - missing) := by
    rw [Record.dump, List.length_append]
    omega
  rw [hsplit, Record.dump, Record.dump, List.take_length_add_append,
    ← CopyRecord.flatMap_cutLast r.copiesToUser hmissing]
  rfl

end Record

/-! ## Where a cut is noticed -/

namespace Loader

open BinaryUnpacker

theorem failsShort_word {α : Type} {p : Unpack α} {f : Word → α} (hp : UnpacksWord p f) (w : Word) :
    FailsShort .structError p (wordBytes w) (wordBytes w).length := by
  intro n hn
  rw [length_wordBytes] at hn
  rw [hp, if_neg]
  rw [List.length_take, List.length_take]
  omega

theorem failsShort_unpackUnsignedLong (w : Word) :
    FailsShort .structError unpackUnsignedLong (wordBytes w) (wordBytes w).length :=
  failsShort_word unpacksWord_unsigned w

theorem failsShort_loadRegisterValues (regs : PtRegs) :
    FailsShort .structError loadRegisterValues (PtRegs.toBytes regs) (PtRegs.toBytes regs).length := by
  unfold loadRegisterValues
  apply FailsShort.before
  rw [registersFields_eq_ptRegsLayout]
  exact FailsShort.times fun r _ =>
    ⟨parses_unpackUnsignedLong (regs r), failsShort_unpackUnsignedLong (regs r)⟩

/-- The three words of a copy are noticed, its payload is not. -/
theorem failsShort_loadMemoryCopy (c : CopyRecord) :
    FailsShort .structError loadMemoryCopy c.toBytes 24 := by
  have hwords : FailsShort .structError loadMemoryCopy c.toBytes
      ((wordBytes c.fromAddr).length + ((wordBytes c.toAddr).length + (wordBytes c.len).length)) := by
    apply FailsShort.bind (parses_unpackUnsignedLong c.fromAddr)
      (failsShort_unpackUnsignedLong c.fromAddr)
    apply FailsShort.bind (parses_unpackUnsignedLong c.toAddr)
      (failsShort_unpackUnsignedLong c.toAddr)
    exact ((failsShort_unpackUnsignedLong c.len).append (Nat.le_refl _)).before
  exact hwords.mono (by simp)

/-- A copy of which the words are whole. -/
theorem run_loadMemoryCopy_cut {c : CopyRecord} (hlen : c.len.toNat = c.bytes.length) {missing : Nat}
    (hmissing : missing ≤ c.bytes.length) :
    loadMemoryCopy.run (c.toBytes.take (c.toBytes.length - missing)) =
      .ok ((c.cut missing).toMemoryCopy, []) := by
  rw [← CopyRecord.toBytes_cut hmissing]
  refine (reads_loadMemoryCopy _ _ _).2 ⟨c.cut missing, by simp, rfl, ?_⟩
  by_cases hzero : missing = 0
  · exact Or.inl (by simp [CopyRecord.cut, hzero, hlen])
  · refine Or.inr ⟨?_, rfl⟩
    simp only [CopyRecord.cut, List.length_take, hlen]
    omega

theorem failsShort_copies {cs : List CopyRecord} (hcs : ∀ c ∈ cs, c.len.toNat = c.bytes.length) :
    FailsShort .structError (times loadMemoryCopy cs.length) (cs.flatMap CopyRecord.toBytes)
      ((cs.flatMap CopyRecord.toBytes).length - CopyRecord.lastPayload cs) := by
  induction cs with
  | nil =>
      intro n hn
      cases hn
  | cons c cs ih =>
      have hc := hcs c List.mem_cons_self
      have htail := ih fun c' hc' => hcs c' (List.mem_cons_of_mem c hc')
      cases cs with
      | nil =>
          refine ((failsShort_loadMemoryCopy c).append ?_).before.mono ?_
          · simp
          · simp [CopyRecord.lastPayload]
      | cons c' cs =>
          have hle := CopyRecord.lastPayload_add_le c' cs
          intro n hn
          rw [List.flatMap_cons, List.length_append] at hn
          have hn' : n < c.toBytes.length + (((c' :: cs).flatMap CopyRecord.toBytes).length -
              CopyRecord.lastPayload (c' :: cs)) := by
            rw [CopyRecord.lastPayload] at hn
            omega
          by_cases hwhole : c.toBytes.length ≤ n
          · -- cut in one of the other copies
            have hrun := (parses_loadMemoryCopy hc).run_take
              ((c' :: cs).flatMap CopyRecord.toBytes) hwhole
            exact (run_bind_ok hrun).trans (htail.before _ (by omega))
          · have htake : ((c :: c' :: cs).flatMap CopyRecord.toBytes).take n = c.toBytes.take n := by
              rw [List.flatMap_cons]
              exact List.take_append_of_le_length (by omega)
            rw [htake]
            by_cases hwords : n < 24
            · exact run_bind_error (failsShort_loadMemoryCopy c n hwords)
            · -- cut in the payload: the next copy has no words left
              have hmissing : c.toBytes.length - n ≤ c.bytes.length := by
                rw [CopyRecord.length_toBytes]
                omega
              have hrun := run_loadMemoryCopy_cut hc hmissing
              have hback : c.toBytes.length - (c.toBytes.length - n) = n := by
                omega
              rw [hback] at hrun
              exact (run_bind_ok hrun).trans (htail.before 0 (by omega))

theorem failsShort_loadSystemCall {r : Record} (hr : Record.Framed r) :
    FailsShort .structError loadSystemCall (Record.dump r)
      ((Record.dump r).length - CopyRecord.lastPayload r.copiesToUser) := by
  have hle := CopyRecord.lastPayload_le r.copiesToUser
  have hbytes : Record.dump r = PtRegs.toBytes r.userspaceRegs ++ (wordBytes r.ret ++
      (wordBytes r.amountOfCopies ++ r.copiesToUser.flatMap CopyRecord.toBytes)) := by
    simp [Record.dump, SyscallRecord.dumpHeader]
  have hcopies : FailsShort .structError loadMemoryCopies
      (wordBytes r.amountOfCopies ++ r.copiesToUser.flatMap CopyRecord.toBytes)
      ((wordBytes r.amountOfCopies).length + ((r.copiesToUser.flatMap CopyRecord.toBytes).length -
        CopyRecord.lastPayload r.copiesToUser)) := by
    apply FailsShort.bind (parses_unpackUnsignedLong r.amountOfCopies)
      (failsShort_unpackUnsignedLong r.amountOfCopies)
    rw [hr.amount_eq]
    exact failsShort_copies hr.len_eq
  rw [hbytes]
  have hcall : FailsShort .structError loadSystemCall
      (PtRegs.toBytes r.userspaceRegs ++ (wordBytes r.ret ++
        (wordBytes r.amountOfCopies ++ r.copiesToUser.flatMap CopyRecord.toBytes)))
      ((PtRegs.toBytes r.userspaceRegs).length + ((wordBytes r.ret).length +
        ((wordBytes r.amountOfCopies).length + ((r.copiesToUser.flatMap CopyRecord.toBytes).length -
          CopyRecord.lastPayload r.copiesToUser)))) := by
    apply FailsShort.bind (parses_loadRegisterValues r.userspaceRegs)
      (failsShort_loadRegisterValues r.userspaceRegs)
    apply FailsShort.bind (parses_unpackSignedLong r.ret) (failsShort_word unpacksWord_signed r.ret)
    exact hcopies.before
  refine hcall.mono ?_
  simp only [List.length_append]
  omega

/-! ## Where it is not -/

theorem follows_cutLast {cs : List CopyRecord} (hcs : ∀ c ∈ cs, c.len.toNat = c.bytes.length)
    (missing : Nat) :
    Follows CopyRecord.toBytes CopyRecord.MayPrecede (CopyRecord.cutLast missing cs) [] := by
  induction cs with
  | nil =>
      trivial
  | cons c cs ih =>
      have hc := hcs c List.mem_cons_self
      have htail := ih fun c' hc' => hcs c' (List.mem_cons_of_mem c hc')
      cases cs with
      | nil =>
          refine ⟨?_, trivial⟩
          by_cases hless : (c.cut missing).bytes.length < c.bytes.length
          · exact Or.inr ⟨by rwa [← hc] at hless, rfl⟩
          · refine Or.inl ?_
            simp only [CopyRecord.cut, List.length_take] at hless ⊢
            omega
      | cons c' cs =>
          exact ⟨Or.inl hc, htail⟩

theorem run_loadSystemCall_cut {r : Record} (hr : Record.Framed r) {missing : Nat}
    (hmissing : missing ≤ CopyRecord.lastPayload r.copiesToUser) :
    loadSystemCall.run ((Record.dump r).take ((Record.dump r).length - missing)) =
      .ok (Record.toSystemCall (Record.cut r missing), []) := by
  rw [← Record.dump_cut hmissing]
  refine (reads_loadSystemCall _ _ _).2 ⟨Record.cut r missing, by simp, rfl, ?_, ?_⟩
  · exact hr.amount_eq.trans (CopyRecord.length_cutLast missing r.copiesToUser).symm
  · exact follows_cutLast hr.len_eq missing

/-! ## Every cut -/

end Loader

/-- What is loaded of the recording `rs` when it breaks off after `n` bytes. -/
def loadTruncated : List Record → Nat → Except LoadError (List SystemCall)
  | [], _ => .ok []
  | r :: rs, n =>
      let len := (Record.dump r).length
      if len ≤ n then
        match loadTruncated rs (n - len) with
        | .ok calls => .ok (Record.toSystemCall r :: calls)
        | .error e => .error e
      else if n = 0 then .ok []
      else if len ≤ n + CopyRecord.lastPayload r.copiesToUser then
        .ok [Record.toSystemCall (Record.cut r (len - n))]
      else .error .structError

namespace Loader

theorem untilEmpty_take {rs : List Record} (hrs : ∀ r ∈ rs, Record.Framed r) :
    ∀ {n fuel : Nat}, ((rs.flatMap Record.dump).take n).length ≤ fuel →
      (untilEmpty .outOfFuel loadSystemCall fuel).run ((rs.flatMap Record.dump).take n) =
        (loadTruncated rs n).map fun calls => (calls, []) := by
  induction rs with
  | nil =>
      intro n fuel _
      rw [List.flatMap_nil, List.take_nil, untilEmpty_nil]
      rfl
  | cons r rs ih =>
      intro n fuel hfuel
      have hr := hrs r List.mem_cons_self
      have hrs' : ∀ r' ∈ rs, Record.Framed r' := fun r' hr' => hrs r' (List.mem_cons_of_mem r hr')
      have hpos := List.length_pos_iff.2 (Record.dump_ne_nil r)
      by_cases hzero : n = 0
      · subst hzero
        rw [List.take_zero, untilEmpty_nil, loadTruncated, if_neg (by omega), if_pos rfl]
        rfl
      · have hne : ((r :: rs).flatMap Record.dump).take n ≠ [] := by
          rw [List.flatMap_cons, ← List.length_pos_iff, List.length_take, List.length_append]
          omega
        obtain ⟨fuel, rfl⟩ : ∃ m, fuel = m + 1 := by
          have hlen := List.length_pos_iff.2 hne
          exact ⟨fuel - 1, by omega⟩
        rw [untilEmpty_succ _ _ _ hne, List.flatMap_cons, loadTruncated]
        by_cases hwhole : (Record.dump r).length ≤ n
        · -- the first record is whole
          have hrun := (parses_loadSystemCall hr.amount_eq hr.len_eq).run_take
            (rs.flatMap Record.dump) hwhole
          have hfuel' : ((rs.flatMap Record.dump).take (n - (Record.dump r).length)).length ≤ fuel := by
            rw [List.flatMap_cons, List.length_take, List.length_append] at hfuel
            rw [List.length_take]
            omega
          rw [run_bind_ok hrun, if_pos hwhole]
          have hrest := ih hrs' hfuel'
          cases hcut : loadTruncated rs (n - (Record.dump r).length) with
          | ok calls =>
              rw [hcut] at hrest
              exact run_bind_ok hrest
          | error e =>
              rw [hcut] at hrest
              exact run_bind_error hrest
        · rw [if_neg hwhole, if_neg hzero]
          have htake : (Record.dump r ++ rs.flatMap Record.dump).take n = (Record.dump r).take n :=
            List.take_append_of_le_length (by omega)
          rw [htake]
          by_cases hpayload : (Record.dump r).length ≤ n + CopyRecord.lastPayload r.copiesToUser
          · -- it is cut, and nobody notices
            have hmissing : (Record.dump r).length - n ≤ CopyRecord.lastPayload r.copiesToUser := by
              omega
            have hrun := run_loadSystemCall_cut hr hmissing
            have hback : (Record.dump r).length - ((Record.dump r).length - n) = n := by
              omega
            rw [hback] at hrun
            rw [run_bind_ok hrun, if_pos hpayload]
            exact run_bind_ok (untilEmpty_nil _ _ _)
          · rw [if_neg hpayload]
            exact run_bind_error (failsShort_loadSystemCall hr n (by omega))

/-- The outcome of loading a recording that breaks off, for every recording and every place. -/
theorem loadSystemCalls_take {rs : List Record} (hrs : ∀ r ∈ rs, Record.Framed r) (n : Nat) :
    loadSystemCalls ((rs.flatMap Record.dump).take n) =
      (loadTruncated rs n).map fun calls => (calls, []) :=
  untilEmpty_take hrs (Nat.le_refl _)

/-- A syscall that copies nothing, and one that copies two bytes. -/
def silentCall : Record where
  userspaceRegs := fun _ => 0
  ret := 0
  userspaceRegsPtr := 1
  amountOfCopies := 0
  copiesToUser := []

def readCall : Record where
  userspaceRegs := fun _ => 0
  ret := 2
  userspaceRegsPtr := 1
  amountOfCopies := 1
  copiesToUser := [⟨0, 0x1000, 2, [7, 8]⟩]

/-- One byte is missing at the end, and the second call is loaded as one that copied one byte. -/
theorem loadSystemCalls_take_readCall :
    loadSystemCalls (([silentCall, readCall].flatMap Record.dump).take 393) =
      .ok ([Record.toSystemCall silentCall, Record.toSystemCall (Record.cut readCall 1)], []) := by
  have hframed : ∀ r ∈ [silentCall, readCall], Record.Framed r := by
    intro r hr
    simp only [List.mem_cons, List.not_mem_nil, or_false] at hr
    rcases hr with rfl | rfl
    · exact ⟨rfl, by simp [silentCall]⟩
    · exact ⟨rfl, by simp [readCall]⟩
  have hsilent : (Record.dump silentCall).length = 184 := Record.length_dump silentCall
  have hread : (Record.dump readCall).length = 210 := Record.length_dump readCall
  have hcut : loadTruncated [silentCall, readCall] 393 =
      .ok [Record.toSystemCall silentCall, Record.toSystemCall (Record.cut readCall 1)] := by
    simp only [loadTruncated, hsilent, hread]
    rfl
  rw [loadSystemCalls_take hframed, hcut]
  rfl

end Loader

end RrPython
