import RrPython.Replayer.Ptrace

/-!
# TraceeMemory — writing to the tracee and reading back

The memory is accessed in words, the last of which may reach behind the range.  What is there is
written over itself, so a write that succeeds changes the range and nothing else; but the access
itself needs those bytes to be mapped.
-/

namespace RrPython

open Foundation

namespace Creplayer

variable {t t' : Tracee}

theorem writeToTracee_inv {address : Int} {buffer : List Byte} (hlen : buffer.length < 2 ^ 31)
    (h : writeToTracee address buffer t = .ok () t') :
    t' = t.setMem (t.user.mem.store (BitVec.ofInt 64 address) buffer) := by
  rw [writeToTracee, intLength_small hlen, List.take_length] at h
  by_cases hstop : t.Stopped
  · by_cases hmapped : t.user.mem.Mapped (BitVec.ofInt 64 address) (coveredBytes buffer.length)
    · cases h.symm.trans (writeBufferToTracee_ok hstop rfl hmapped)
      rfl
    · obtain ⟨mem, herror⟩ := writeBufferToTracee_error hstop rfl hmapped
      cases h.symm.trans herror
  · by_cases hnil : buffer = []
    · subst hnil
      cases h
      rfl
    · cases h.symm.trans (writeBufferToTracee_notStopped hstop hnil)

theorem readFromTracee_inv {address : Int} {length : Nat} {result : Option (List Byte)}
    (h : readFromTracee address length t = .ok result t') :
    ∃ bytes, result = some bytes ∧ t.user.mem.load (BitVec.ofInt 64 address) length = some bytes := by
  have hneg : ¬(length : Int) < 0 := by omega
  have hrange : ¬((length : Int) < -2 ^ 31 ∨ 2 ^ 31 ≤ (length : Int)) := by
    intro hout
    rw [readFromTracee, if_pos hout] at h
    cases h
  rw [readFromTracee, if_neg hrange, if_neg hneg, Int.toNat_natCast] at h
  by_cases hstop : t.Stopped
  · by_cases hmapped : t.user.mem.Mapped (BitVec.ofInt 64 address) (coveredBytes length)
    · obtain ⟨bytes, hload, hread⟩ := readBufferFromTracee_ok hstop rfl hmapped
      rw [bind_of_ok hread] at h
      cases h
      exact ⟨bytes, rfl, hload⟩
    · rw [bind_of_error (readBufferFromTracee_error hstop rfl hmapped)] at h
      cases h
  · -- nothing can be read any more but no bytes at all
    rcases Nat.eq_zero_or_pos length with rfl | hpos
    · cases h
      exact ⟨[], rfl, rfl⟩
    · rw [bind_of_error (readBufferFromTracee_notStopped hstop hpos)] at h
      cases h

/-- Of a stopped tracee exactly the ranges can be read whose words are mapped. -/
theorem readFromTracee_iff (h : t.Stopped) {address : Int} {length : Nat} (hlen : length < 2 ^ 31) :
    (∃ result t', readFromTracee address length t = .ok result t') ↔
      t.user.mem.Mapped (BitVec.ofInt 64 address) (coveredBytes length) := by
  have hneg : ¬(length : Int) < 0 := by omega
  have hrange : ¬((length : Int) < -2 ^ 31 ∨ 2 ^ 31 ≤ (length : Int)) := by omega
  rw [readFromTracee, if_neg hrange, if_neg hneg, Int.toNat_natCast]
  by_cases hmapped : t.user.mem.Mapped (BitVec.ofInt 64 address) (coveredBytes length)
  · obtain ⟨bytes, _, hread⟩ := readBufferFromTracee_ok h rfl hmapped
    rw [bind_of_ok hread]
    exact iff_of_true ⟨some bytes, t, rfl⟩ hmapped
  · rw [bind_of_error (readBufferFromTracee_error h rfl hmapped)]
    refine iff_of_false ?_ hmapped
    rintro ⟨_, _, hread⟩
    cases hread

theorem writeToTracee_iff (h : t.Stopped) {address : Int} {buffer : List Byte}
    (hlen : buffer.length < 2 ^ 31) :
    (∃ t', writeToTracee address buffer t = .ok () t') ↔
      t.user.mem.Mapped (BitVec.ofInt 64 address) (coveredBytes buffer.length) := by
  have hwritable : Writable t.user.mem address buffer.length ↔
      t.user.mem.Mapped (BitVec.ofInt 64 address) (coveredBytes buffer.length) := by
    rw [Writable, intLength_small hlen]
  rw [← hwritable]
  by_cases hmapped : Writable t.user.mem address buffer.length
  · exact iff_of_true ⟨_, writeToTracee_ok h hmapped⟩ hmapped
  · refine iff_of_false ?_ hmapped
    rintro ⟨t', hwrite⟩
    obtain ⟨mem, herror⟩ := writeToTracee_error h hmapped
    cases hwrite.symm.trans herror

end Creplayer

namespace Ptrace

open Creplayer

/-! ## What a write changes -/

/-- A write that succeeds leaves exactly the buffer in the range and everything else as it was, and a
read of the range that succeeds returns the buffer. -/
theorem writeToTracee_exact (c c' : Tracer) (address : Int) (buffer : List Byte)
    (hlen : buffer.length < 2 ^ 31) (hwrite : writeToTracee address buffer c = .ok () c') :
    (∀ i b, buffer[i]? = some b →
        c'.tracee.user.mem (BitVec.ofInt 64 address + BitVec.ofNat 64 i) = some b) ∧
      (∀ x, (∀ i < buffer.length, x ≠ BitVec.ofInt 64 address + BitVec.ofNat 64 i) →
        c'.tracee.user.mem x = c.tracee.user.mem x) ∧
      ∀ result c'', readFromTracee address buffer.length c' = .ok result c'' →
        result = some buffer := by
  -- a write that succeeds has come to one store of the buffer
  have hinv := writeToTracee_inv hlen
    ((writeToTracee_refines address buffer).ok_iff.2 ⟨c', hwrite, rfl⟩)
  have hmem : c'.tracee.user.mem = c.tracee.user.mem.store (BitVec.ofInt 64 address) buffer := by
    rw [hinv]
    rfl
  have hload : c'.tracee.user.mem.load (BitVec.ofInt 64 address) buffer.length = some buffer := by
    rw [hmem]
    exact ByteMemory.load_store (by omega)
  refine ⟨?_, ?_, ?_⟩
  · intro i b hb
    rw [ByteMemory.load_getElem? hload (List.getElem?_eq_some_iff.1 hb).1, hb]
  · intro x hx
    rw [hmem]
    exact ByteMemory.store_frame buffer hx
  · intro result c'' hread
    obtain ⟨bytes, rfl, hbytes⟩ := readFromTracee_inv
      ((readFromTracee_refines address buffer.length).ok_iff.2 ⟨c'', hread, rfl⟩)
    cases hload.symm.trans hbytes
    rfl

/-- A tracee whose memory is all ones, behind a request that failed. -/
def onesTracer : Tracer where
  tracee :=
    { stop := .syscallExit
      user := { regs := fun _ => 0, mem := fun _ => some 0xff }
      clock := 0
      history := [] }
  errno := .inputOutputError

theorem writeToTracee_onesTracer (address : Int) (buffer : List Byte)
    (hlen : buffer.length < 2 ^ 31) :
    ∃ c', writeToTracee address buffer onesTracer = .ok () c' := by
  have hstop : onesTracer.tracee.Stopped := by decide
  have hmapped : onesTracer.tracee.user.mem.Mapped (BitVec.ofInt 64 address)
      (coveredBytes buffer.length) := fun _ _ => rfl
  obtain ⟨t', hwrite⟩ := (writeToTracee_iff hstop hlen).2 hmapped
  obtain ⟨c', hwrite', _⟩ := (writeToTracee_refines address buffer).ok_iff.1 hwrite
  exact ⟨c', hwrite'⟩

/-- Nine bytes that are all ones, and then whatever the tracee has there. -/
theorem writeToTracee_exact_onesTracer : ∃ c',
    writeToTracee 0x1ffc (List.replicate 9 0xff) onesTracer = .ok () c' ∧
      (∀ i < 9, c'.tracee.user.mem (BitVec.ofInt 64 0x1ffc + BitVec.ofNat 64 i) = some 0xff) ∧
        c'.tracee.user.mem 0x2005 = some 0xff := by
  obtain ⟨c', hwrite⟩ := writeToTracee_onesTracer 0x1ffc (List.replicate 9 0xff) (by simp)
  obtain ⟨hbytes, hframe, _⟩ := writeToTracee_exact onesTracer c' 0x1ffc (List.replicate 9 0xff)
    (by simp) hwrite
  refine ⟨c', hwrite, fun i hi => hbytes i 0xff (by rw [List.getElem?_replicate, if_pos hi]), ?_⟩
  rw [hframe 0x2005 (by decide)]
  rfl

/-! ## What can be accessed -/

theorem accessible_iff_covered {c : Tracer} {address : Int} {buffer : List Byte}
    (hstop : c.tracee.Stopped) (hlen : buffer.length < 2 ^ 31) :
    ((∃ c', writeToTracee address buffer c = .ok () c') ∧
        ∃ result c', readFromTracee address buffer.length c = .ok result c') ↔
      c.tracee.user.mem.Mapped (BitVec.ofInt 64 address) (coveredBytes buffer.length) := by
  have hwrite : (∃ c', writeToTracee address buffer c = .ok () c') ↔
      ∃ t', Creplayer.writeToTracee address buffer c.tracee = .ok () t' := by
    simp [(writeToTracee_refines address buffer).ok_iff]
  have hread : (∃ result c', readFromTracee address buffer.length c = .ok result c') ↔
      ∃ result t', Creplayer.readFromTracee address buffer.length c.tracee = .ok result t' := by
    simp [(readFromTracee_refines address buffer.length).ok_iff]
  rw [hwrite, hread, writeToTracee_iff hstop hlen, readFromTracee_iff hstop hlen, and_self]

/-- A range whose bytes are all mapped can be written and read exactly if so is the rest of its last
word. -/
theorem accessible_iff (c : Tracer) (address : Int) (buffer : List Byte) (hstop : c.tracee.Stopped)
    (hlen : buffer.length < 2 ^ 31)
    (hmapped : c.tracee.user.mem.Mapped (BitVec.ofInt 64 address) buffer.length) :
    ((∃ c', writeToTracee address buffer c = .ok () c') ∧
        ∃ result c', readFromTracee address buffer.length c = .ok result c') ↔
      ∀ i, buffer.length ≤ i → i < coveredBytes buffer.length →
        (c.tracee.user.mem (BitVec.ofInt 64 address + BitVec.ofNat 64 i)).isSome := by
  rw [accessible_iff_covered hstop hlen]
  constructor
  · intro hcovered i _ hi
    exact hcovered i hi
  · intro hrest i hi
    rcases Nat.lt_or_ge i buffer.length with hin | hbehind
    · exact hmapped i hin
    · exact hrest i hbehind hi

theorem accessible_iff_onesTracer :
    ((∃ c', writeToTracee 0x1ffc [1, 2, 3] onesTracer = .ok () c') ∧
        ∃ result c', readFromTracee 0x1ffc 3 onesTracer = .ok result c') ↔
      ∀ i, 3 ≤ i → i < coveredBytes 3 →
        (onesTracer.tracee.user.mem (BitVec.ofInt 64 0x1ffc + BitVec.ofNat 64 i)).isSome :=
  accessible_iff onesTracer 0x1ffc [1, 2, 3] (by decide) (by decide) fun _ _ => rfl

/-- At a syscall exit, with a mapping that ends behind `0x1fff`. -/
def lastByteTracer : Tracer where
  tracee :=
    { stop := .syscallExit
      user := { regs := fun _ => 0, mem := fun a => if 0x1000 ≤ a ∧ a < 0x2000 then some 0 else none }
      clock := 0
      history := [] }
  errno := .zero

/-- The copy of one byte to the last mapped address cannot be replayed. -/
theorem not_accessible_lastByteTracer :
    ¬∀ (c : Tracer) (address : Int) (buffer : List Byte), c.tracee.Stopped →
      buffer.length < 2 ^ 31 →
        c.tracee.user.mem.Mapped (BitVec.ofInt 64 address) buffer.length →
          (∃ c', writeToTracee address buffer c = .ok () c') ∧
            ∃ result c', readFromTracee address buffer.length c = .ok result c' := by
  intro h
  have hstop : lastByteTracer.tracee.Stopped := by decide
  have hboth := h lastByteTracer 0x1fff [7] hstop (by decide) (by decide)
  have hcovered := (accessible_iff_covered hstop (by decide)).1 hboth
  exact absurd (hcovered 1 (by decide)) (by decide)

end Ptrace

end RrPython
