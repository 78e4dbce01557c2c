import Mathlib.Data.List.Basic
import RrPython.Replayer.Loader

/-!
# Accepted — which buffers the loader takes for a recording

The words of a recording are read by `struct.unpack`, which rejects what is too short; the payload of
a copy is read by a slice, which does not.  So the loader accepts whole recordings, and those that
end inside the last payload of their last call.
-/

namespace RrPython

open Foundation Foundation.Parser

/-! ## Encoding what was loaded -/

def Registers.encode (registers : Registers) : List Byte :=
  registersFields.flatMap fun r => wordBytes (BitVec.ofInt 64 (registers r))

def MemoryCopy.encode (c : MemoryCopy) : List Byte :=
  wordBytes (BitVec.ofInt 64 c.fromAddress) ++ (wordBytes (BitVec.ofInt 64 c.toAddress) ++
    (wordBytes (BitVec.ofNat 64 c.buffer.length) ++ c.buffer))

/-- The dump format: 21 registers, the return value, the number of copies, and the copies. -/
def SystemCall.encode (call : SystemCall) : List Byte :=
  Registers.encode call.registers ++ (wordBytes (BitVec.ofInt 64 call.returnValue) ++
    (wordBytes (BitVec.ofNat 64 call.memoryCopies.length) ++
      call.memoryCopies.flatMap MemoryCopy.encode))

/-! ## Whole recordings and cut ones -/

/-- The two counters of a dump say what follows them. -/
structure Record.Framed (r : Record) : Prop where
  amount_eq : r.amountOfCopies.toNat = r.copiesToUser.length
  len_eq : ∀ c ∈ r.copiesToUser, c.len.toNat = c.bytes.length

/-- A recording that lacks bytes at its end, all of them of the payload of the last copy of its last
call. -/
def EndsInPayload (buffer : List Byte) : Prop :=
  ∃ (rs : List Record) (r : Record) (c : CopyRecord) (missing : List Byte),
    (∀ r' ∈ rs, Record.Framed r') ∧ Record.Framed r ∧ r.copiesToUser.getLast? = some c ∧
      missing ≠ [] ∧ missing.length ≤ c.bytes.length ∧
      buffer ++ missing = rs.flatMap Record.dump ++ Record.dump r

/-- The last copy claims more bytes than it holds; all else is as the counters say. -/
def Record.EndsShort (r : Record) : Prop :=
  r.amountOfCopies.toNat = r.copiesToUser.length ∧
    ∃ cs c, r.copiesToUser = cs ++ [c] ∧ (∀ c' ∈ cs, c'.len.toNat = c'.bytes.length) ∧
      c.bytes.length < c.len.toNat

/-! ## What each reader accepts -/

/-- A copy may claim more bytes than it holds if nothing comes behind it. -/
def CopyRecord.MayPrecede (c : CopyRecord) (rest : List Byte) : Prop :=
  c.len.toNat = c.bytes.length ∨ c.bytes.length < c.len.toNat ∧ rest = []

/-- Likewise for a call, of whose copies only the last can be the last thing in the buffer. -/
def Record.MayPrecede (r : Record) (rest : List Byte) : Prop :=
  r.amountOfCopies.toNat = r.copiesToUser.length ∧
    Follows CopyRecord.toBytes CopyRecord.MayPrecede r.copiesToUser rest

namespace BinaryUnpacker

/-- `p` makes `f` of the next word; `struct.unpack` wants all eight bytes of it. -/
def UnpacksWord {α : Type} (p : Unpack α) (f : Word → α) : Prop :=
  ∀ bs, p.run bs =
    if (bs.take unsignedLongSize).length = 8 then
      .ok (f (wordOfBytes (bs.take unsignedLongSize)), bs.drop unsignedLongSize)
    else .error .structError

theorem unpacksWord_unsigned : UnpacksWord unpackUnsignedLong BitVec.toNat := by
  intro bs
  simp only [unpackUnsignedLong, StateT.run_bind, StateT.run_get, pure_bind, structUnpackUnsigned]
  split
  · rfl
  · rfl

theorem unpacksWord_signed : UnpacksWord unpackSignedLong BitVec.toInt := by
  intro bs
  simp only [unpackSignedLong, StateT.run_bind, StateT.run_get, pure_bind, structUnpackSigned]
  split
  · rfl
  · rfl

/-- Eight bytes are a word, whatever they are. -/
theorem UnpacksWord.reads {α : Type} {p : Unpack α} {f : Word → α} (hp : UnpacksWord p f) :
    Reads p wordBytes f fun _ _ => True := by
  intro bs v rest
  rw [hp bs]
  constructor
  · intro h
    split at h
    · rename_i hlen
      cases h
      refine ⟨wordOfBytes (bs.take unsignedLongSize), ?_, rfl, trivial⟩
      rw [wordBytes_wordOfBytes hlen, List.take_append_drop]
    · cases h
  · rintro ⟨w, rfl, rfl, _⟩
    rw [take_wordBytes_append, drop_wordBytes_append, if_pos (length_wordBytes w),
      wordOfBytes_wordBytes]

theorem reads_unpackUnsignedLong :
    Reads unpackUnsignedLong wordBytes BitVec.toNat fun _ _ => True :=
  unpacksWord_unsigned.reads

theorem reads_unpackSignedLong :
    Reads unpackSignedLong wordBytes BitVec.toInt fun _ _ => True :=
  unpacksWord_signed.reads

/-- A slice never fails: at the end of the buffer it is short. -/
theorem reads_unpackStr (n : Nat) :
    Reads (unpackStr n) id id fun bytes rest =>
      n = bytes.length ∨ bytes.length < n ∧ rest = [] := by
  intro bs bytes rest
  have hrun : (unpackStr n).run bs = .ok (bs.take n, bs.drop n) := rfl
  rw [hrun]
  constructor
  · intro h
    cases h
    refine ⟨bs.take n, (List.take_append_drop n bs).symm, rfl, ?_⟩
    rcases Nat.lt_or_ge bs.length n with hlt | hge
    · exact Or.inr ⟨by simpa using hlt, List.drop_eq_nil_of_le hlt.le⟩
    · exact Or.inl (by simpa using hge)
  · rintro ⟨x, rfl, rfl, hlen | ⟨hlt, rfl⟩⟩
    · subst hlen
      simp
    · have hle := hlt.le
      simp [List.take_of_length_le hle, List.drop_eq_nil_of_le hle]

end BinaryUnpacker

theorem map_valueAt {α : Type} [Inhabited α] {order : List Reg} (hnodup : order.Nodup)
    {vals : List α} (hlen : vals.length = order.length) : order.map (valueAt order vals) = vals := by
  apply List.ext_getElem (by simpa using hlen.symm)
  intro n hn hn'
  have hidx : order.idxOf order[n] = n := hnodup.idxOf_getElem n _
  simp [valueAt, hidx, hn']

namespace Loader

open BinaryUnpacker

theorem reads_loadMemoryCopy :
    Reads loadMemoryCopy CopyRecord.toBytes CopyRecord.toMemoryCopy CopyRecord.MayPrecede := by
  intro bs copy rest
  simp only [loadMemoryCopy, run_bind_eq_ok, run_pure_eq_ok]
  constructor
  · rintro ⟨a, _, ha, b, _, hb, n, _, hn, bytes, _, hbytes, rfl, rfl⟩
    obtain ⟨fromAddr, rfl, rfl, _⟩ := (reads_unpackUnsignedLong _ _ _).1 ha
    obtain ⟨toAddr, rfl, rfl, _⟩ := (reads_unpackUnsignedLong _ _ _).1 hb
    obtain ⟨len, rfl, rfl, _⟩ := (reads_unpackUnsignedLong _ _ _).1 hn
    obtain ⟨x, rfl, rfl, hmay⟩ := (reads_unpackStr _ _ _ _).1 hbytes
    exact ⟨⟨fromAddr, toAddr, len, x⟩, by simp [CopyRecord.toBytes], rfl, hmay⟩
  · rintro ⟨c, rfl, rfl, hmay⟩
    have hstr : (unpackStr c.len.toNat).run (c.bytes ++ rest) = .ok (c.bytes, rest) :=
      (reads_unpackStr _ _ _ _).2 ⟨c.bytes, rfl, rfl, hmay⟩
    refine ⟨_, _, ?_, _, _, parses_unpackUnsignedLong c.toAddr _, _, _,
      parses_unpackUnsignedLong c.len _, c.bytes, rest, hstr, rfl, rfl⟩
    simpa [CopyRecord.toBytes] using parses_unpackUnsignedLong c.fromAddr
      (wordBytes c.toAddr ++ (wordBytes c.len ++ (c.bytes ++ rest)))

/-- A counter and as many copies as it says. -/
theorem reads_loadMemoryCopies :
    Reads loadMemoryCopies
      (fun x : Word × List CopyRecord => wordBytes x.1 ++ x.2.flatMap CopyRecord.toBytes)
      (fun x => x.2.map CopyRecord.toMemoryCopy) fun x rest =>
        x.1.toNat = x.2.length ∧ Follows CopyRecord.toBytes CopyRecord.MayPrecede x.2 rest := by
  intro bs copies rest
  simp only [loadMemoryCopies, run_bind_eq_ok]
  constructor
  · rintro ⟨n, mid, hn, htimes⟩
    obtain ⟨amount, rfl, rfl, _⟩ := (reads_unpackUnsignedLong _ _ _).1 hn
    obtain ⟨cs, rfl, rfl, hlen, hcs⟩ := (reads_loadMemoryCopy.times _ _ _ _).1 htimes
    exact ⟨(amount, cs), by simp, rfl, hlen.symm, hcs⟩
  · rintro ⟨⟨amount, cs⟩, rfl, rfl, hlen, hcs⟩
    refine ⟨amount.toNat, cs.flatMap CopyRecord.toBytes ++ rest, ?_,
      (reads_loadMemoryCopy.times _ _ _ _).2 ⟨cs, rfl, rfl, hlen.symm, hcs⟩⟩
    simpa using parses_unpackUnsignedLong amount (cs.flatMap CopyRecord.toBytes ++ rest)

theorem reads_loadRegisterValues :
    Reads loadRegisterValues PtRegs.toBytes PtRegs.toRegisters fun _ _ => True := by
  intro bs registers rest
  constructor
  · intro h
    simp only [loadRegisterValues, run_bind_eq_ok] at h
    obtain ⟨values, mid, hvalues, hret⟩ := h
    obtain ⟨ws, rfl, rfl, hlen, _⟩ := (reads_unpackUnsignedLong.times _ _ _ _).1 hvalues
    -- the 21 words, put where the layout has them
    have hws : ptRegsLayout.map (valueAt ptRegsLayout ws) = ws :=
      map_valueAt (by decide) (by simpa [registersFields_eq_ptRegsLayout] using hlen)
    have hbytes : ws.flatMap wordBytes = PtRegs.toBytes (valueAt ptRegsLayout ws) := by
      conv_lhs => rw [← hws]
      rw [PtRegs.toBytes, List.flatMap_map]
    have hparsed := parses_loadRegisterValues (valueAt ptRegsLayout ws) mid
    rw [← hbytes] at hparsed
    simp only [loadRegisterValues, run_bind_eq_ok] at hparsed
    obtain ⟨values', mid', hvalues', hret'⟩ := hparsed
    cases hvalues.symm.trans hvalues'
    cases hret.symm.trans hret'
    exact ⟨_, congrArg (· ++ rest) hbytes, rfl, trivial⟩
  · rintro ⟨regs, rfl, rfl, _⟩
    exact parses_loadRegisterValues regs rest

theorem reads_loadSystemCall :
    Reads loadSystemCall Record.dump Record.toSystemCall Record.MayPrecede := by
  intro bs call rest
  simp only [loadSystemCall, run_bind_eq_ok, run_pure_eq_ok]
  constructor
  · rintro ⟨_, _, hregs, _, _, hret, _, _, hcopies, rfl, rfl⟩
    obtain ⟨regs, rfl, rfl, _⟩ := (reads_loadRegisterValues _ _ _).1 hregs
    obtain ⟨ret, rfl, rfl, _⟩ := (reads_unpackSignedLong _ _ _).1 hret
    obtain ⟨⟨amount, cs⟩, rfl, rfl, hmay⟩ := (reads_loadMemoryCopies _ _ _).1 hcopies
    exact ⟨⟨regs, ret, 0, amount, cs⟩, by simp [Record.dump, SyscallRecord.dumpHeader], rfl, hmay⟩
  · rintro ⟨r, rfl, rfl, hmay⟩
    have hcopies := (reads_loadMemoryCopies _ _ rest).2
      ⟨(r.amountOfCopies, r.copiesToUser), rfl, rfl, hmay⟩
    refine ⟨_, _, ?_, _, _, parses_unpackSignedLong r.ret _, _, _, hcopies, rfl, rfl⟩
    simpa [Record.dump, SyscallRecord.dumpHeader] using parses_loadRegisterValues r.userspaceRegs _

theorem loadSystemCalls_eq_ok {buffer : List Byte} {calls : List SystemCall} {rest : List Byte} :
    loadSystemCalls buffer = .ok (calls, rest) ↔
      rest = [] ∧ ∃ rs, buffer = rs.flatMap Record.dump ∧ rs.map Record.toSystemCall = calls ∧
        Follows Record.dump Record.MayPrecede rs [] :=
  reads_loadSystemCall.untilEmpty Record.dump_ne_nil le_rfl calls rest

end Loader

/-! ## Encoding back -/

theorem CopyRecord.toBytes_ne_nil (c : CopyRecord) : c.toBytes ≠ [] := by
  intro h
  have hlen := c.length_toBytes
  simp only [h, List.length_nil] at hlen
  omega

theorem Record.mayPrecede_iff (r : Record) (rest : List Byte) :
    Record.MayPrecede r rest ↔ Record.Framed r ∨ Record.EndsShort r ∧ rest = [] := by
  have hcopies : Follows CopyRecord.toBytes CopyRecord.MayPrecede r.copiesToUser rest ↔ _ :=
    follows_or_last CopyRecord.toBytes_ne_nil r.copiesToUser rest
  rw [Record.MayPrecede, hcopies]
  constructor
  · rintro ⟨hamount, hall | ⟨hnil, hlast⟩⟩
    · exact Or.inl ⟨hamount, hall⟩
    · exact Or.inr ⟨⟨hamount, hlast⟩, hnil⟩
  · rintro (⟨hamount, hall⟩ | ⟨⟨hamount, hlast⟩, hnil⟩)
    · exact ⟨hamount, Or.inl hall⟩
    · exact ⟨hamount, Or.inr ⟨hnil, hlast⟩⟩

/-- What is accepted: whole dumps, the last of which may end short. -/
theorem Loader.loadSystemCalls_cases {buffer : List Byte} {calls : List SystemCall}
    {rest : List Byte} :
    Loader.loadSystemCalls buffer = .ok (calls, rest) ↔
      rest = [] ∧ ∃ rs, buffer = rs.flatMap Record.dump ∧ rs.map Record.toSystemCall = calls ∧
        ((∀ r ∈ rs, Record.Framed r) ∨
          ∃ rs' r, rs = rs' ++ [r] ∧ (∀ r' ∈ rs', Record.Framed r') ∧ Record.EndsShort r) := by
  have hmay : Record.MayPrecede = fun r rest => Record.Framed r ∨ Record.EndsShort r ∧ rest = [] := by
    funext r rest
    exact propext (Record.mayPrecede_iff r rest)
  simp only [Loader.loadSystemCalls_eq_ok, hmay, follows_or_last Record.dump_ne_nil, true_and]

theorem Registers.encode_toRegisters (regs : PtRegs) :
    Registers.encode (PtRegs.toRegisters regs) = PtRegs.toBytes regs := by
  simp [Registers.encode, PtRegs.toBytes, PtRegs.toRegisters, Loader.registersFields_eq_ptRegsLayout]

/-- Encoding back recounts the payload, and leaves everything else as it was. -/
theorem MemoryCopy.encode_toMemoryCopy (c : CopyRecord) :
    c.toMemoryCopy.encode = { c with len := BitVec.ofNat 64 c.bytes.length }.toBytes := by
  simp [MemoryCopy.encode, CopyRecord.toMemoryCopy, CopyRecord.toBytes]

theorem ofNat_eq_of_toNat_eq {w : Word} {n : Nat} (h : w.toNat = n) : BitVec.ofNat 64 n = w := by
  rw [← h, BitVec.ofNat_toNat, BitVec.setWidth_eq]

theorem flatMap_encode_toMemoryCopy {cs : List CopyRecord}
    (hlen : ∀ c ∈ cs, c.len.toNat = c.bytes.length) :
    (cs.map CopyRecord.toMemoryCopy).flatMap MemoryCopy.encode = cs.flatMap CopyRecord.toBytes := by
  rw [List.flatMap_map]
  apply List.flatMap_congr
  intro c hc
  rw [MemoryCopy.encode_toMemoryCopy, ofNat_eq_of_toNat_eq (hlen c hc)]

/-- The header comes back as it was where the counter of the copies is right. -/
theorem SystemCall.encode_toSystemCall {r : Record}
    (hamount : r.amountOfCopies.toNat = r.copiesToUser.length) :
    SystemCall.encode (Record.toSystemCall r) =
      r.dumpHeader ++ (r.copiesToUser.map CopyRecord.toMemoryCopy).flatMap MemoryCopy.encode := by
  simp [SystemCall.encode, Record.toSystemCall, Registers.encode_toRegisters,
    SyscallRecord.dumpHeader, ofNat_eq_of_toNat_eq hamount]

theorem Record.Framed.encode_eq {r : Record} (hr : Record.Framed r) :
    SystemCall.encode (Record.toSystemCall r) = Record.dump r := by
  rw [SystemCall.encode_toSystemCall hr.amount_eq, flatMap_encode_toMemoryCopy hr.len_eq]
  rfl

theorem Record.EndsShort.encode_ne {r : Record} (hr : Record.EndsShort r) :
    SystemCall.encode (Record.toSystemCall r) ≠ Record.dump r := by
  obtain ⟨hamount, cs, c, hcopies, hcs, hshort⟩ := hr
  rw [SystemCall.encode_toSystemCall hamount, Record.dump, hcopies, List.map_append,
    List.flatMap_append, List.flatMap_append, flatMap_encode_toMemoryCopy hcs]
  intro heq
  -- all but the length of the last copy is the same on both sides
  have hlast : wordBytes (BitVec.ofNat 64 c.bytes.length) = wordBytes c.len := by
    simpa [MemoryCopy.encode_toMemoryCopy, CopyRecord.toBytes] using heq
  have hlen : BitVec.ofNat 64 c.bytes.length = c.len := by
    rw [← wordOfBytes_wordBytes c.len, ← hlast, wordOfBytes_wordBytes]
  have hlt := c.len.isLt
  have hmod : c.bytes.length % 2 ^ 64 = c.len.toNat := by
    rw [← hlen, BitVec.toNat_ofNat]
  omega

theorem flatMap_encode_toSystemCall {rs : List Record} (hrs : ∀ r ∈ rs, Record.Framed r) :
    (rs.map Record.toSystemCall).flatMap SystemCall.encode = rs.flatMap Record.dump := by
  rw [List.flatMap_map]
  exact List.flatMap_congr fun r hr => (hrs r hr).encode_eq

/-- A dump that ends short is one that lacks the end of its last payload. -/
theorem endsInPayload_iff {buffer : List Byte} :
    EndsInPayload buffer ↔
      ∃ (rs : List Record) (r : Record), (∀ r' ∈ rs, Record.Framed r') ∧ Record.EndsShort r ∧
        buffer = rs.flatMap Record.dump ++ Record.dump r := by
  constructor
  · rintro ⟨rs, r, c, missing, hrs, hr, hlast, hne, hle, heq⟩
    obtain ⟨cs, hcopies⟩ := List.getLast?_eq_some_iff.1 hlast
    have hpos := List.length_pos_iff.2 hne
    -- what is missing is the end of the last payload
    have hbytes : rs.flatMap Record.dump ++ Record.dump r =
        rs.flatMap Record.dump ++ (r.dumpHeader ++ (cs.flatMap CopyRecord.toBytes ++
          (wordBytes c.fromAddr ++ (wordBytes c.toAddr ++ wordBytes c.len)))) ++ c.bytes := by
      simp [Record.dump, hcopies, CopyRecord.toBytes]
    have hmissing : missing <:+ buffer ++ missing := ⟨buffer, rfl⟩
    have hpayload : c.bytes <:+ buffer ++ missing := ⟨_, (heq.trans hbytes).symm⟩
    obtain ⟨kept, hkept⟩ := List.suffix_of_suffix_length_le hmissing hpayload hle
    have hlen := hr.len_eq c (by simp [hcopies])
    refine ⟨rs, { r with copiesToUser := cs ++ [{ c with bytes := kept }] }, hrs,
      ⟨by simpa [hcopies] using hr.amount_eq, cs, _, rfl, ?_, ?_⟩, ?_⟩
    · intro c' hc'
      exact hr.len_eq c' (by simp [hcopies, hc'])
    · rw [← hkept, List.length_append] at hlen
      show kept.length < c.len.toNat
      omega
    · refine List.append_cancel_right (heq.trans ?_)
      rw [hbytes, ← hkept]
      simp [Record.dump, CopyRecord.toBytes, SyscallRecord.dumpHeader]
  · rintro ⟨rs, r, hrs, ⟨hamount, cs, c, hcopies, hcs, hshort⟩, rfl⟩
    -- any bytes will do for those that are missing
    let missing : List Byte := List.replicate (c.len.toNat - c.bytes.length) 0
    have hmissing : missing.length = c.len.toNat - c.bytes.length := List.length_replicate
    let whole : CopyRecord := { c with bytes := c.bytes ++ missing }
    refine ⟨rs, { r with copiesToUser := cs ++ [whole] }, whole, missing, hrs, ⟨?_, ?_⟩, by simp, ?_,
      by simp [whole], ?_⟩
    · simpa [hcopies] using hamount
    · intro c' hc'
      rcases List.mem_append.1 hc' with hmem | hmem
      · exact hcs c' hmem
      · obtain rfl := List.mem_singleton.1 hmem
        simp only [whole, List.length_append, hmissing]
        omega
    · apply List.ne_nil_of_length_pos
      omega
    · simp [Record.dump, hcopies, CopyRecord.toBytes, SyscallRecord.dumpHeader, whole]

/-- What is loaded encodes back to the buffer, unless the buffer ends inside the last payload of its
last call: there the loader takes the bytes that are left for the whole payload. -/
theorem loadSystemCalls_encode_iff (buffer : List Byte) :
    (∀ calls rest, Loader.loadSystemCalls buffer = .ok (calls, rest) →
        calls.flatMap SystemCall.encode = buffer) ↔
      ¬EndsInPayload buffer := by
  constructor
  · intro hencode hends
    obtain ⟨rs, r, hrs, hr, rfl⟩ := endsInPayload_iff.1 hends
    have hbytes : rs.flatMap Record.dump ++ Record.dump r = (rs ++ [r]).flatMap Record.dump := by simp
    have hload := Loader.loadSystemCalls_cases.2
      ⟨rfl, rs ++ [r], hbytes, rfl, Or.inr ⟨rs, r, rfl, hrs, hr⟩⟩
    have heq := hencode _ _ hload
    rw [List.map_append, List.flatMap_append, flatMap_encode_toSystemCall hrs] at heq
    exact hr.encode_ne (by simpa using heq)
  · intro hends calls rest hload
    obtain ⟨_, rs, rfl, rfl, hall | ⟨rs', r, rfl, hrs, hr⟩⟩ := Loader.loadSystemCalls_cases.1 hload
    · exact flatMap_encode_toSystemCall hall
    · exact absurd (endsInPayload_iff.2 ⟨rs', r, hrs, hr, by simp⟩) hends

/-- A read of two bytes, of which the second has been cut off. -/
def cutRead : Record where
  userspaceRegs := fun _ => 0
  ret := 2
  userspaceRegsPtr := 1
  amountOfCopies := 1
  copiesToUser := [⟨0, 0x1000, 2, [7]⟩]

/-- The buffer is loaded all the same, as a call that copied one byte. -/
theorem not_encode_cutRead :
    ¬∀ calls rest, Loader.loadSystemCalls (Record.dump cutRead) = .ok (calls, rest) →
      calls.flatMap SystemCall.encode = Record.dump cutRead := by
  intro hencode
  have hshort : Record.EndsShort cutRead := ⟨rfl, [], _, rfl, by simp, by decide⟩
  have hbytes : Record.dump cutRead = [cutRead].flatMap Record.dump := by simp
  have hload := Loader.loadSystemCalls_cases.2
    ⟨rfl, [cutRead], hbytes, rfl, Or.inr ⟨[], cutRead, rfl, by simp, hshort⟩⟩
  have heq := hencode _ _ hload
  rw [List.map_singleton, List.flatMap_singleton] at heq
  exact hshort.encode_ne heq

end RrPython
