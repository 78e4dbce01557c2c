import RrPython.Foundation.ByteParser
import RrPython.Replayer.SystemCall

/-!
# Loader — parsing a recording

`BinaryUnpacker` and `Loader`.  The unpacker's `self.buffer` is the state of a `Parser`; slices past
the end of the buffer are short, as in Python, and it is `struct.unpack` that rejects them.
-/

namespace RrPython

open Foundation Foundation.Parser

inductive LoadError
  /-- `struct.error`. -/
  | structError
  /-- `TypeError` of `Registers(*values)`. -/
  | typeError
  /-- The bound on the number of iterations was too small. -/
  | outOfFuel
  deriving DecidableEq, Repr

abbrev Unpack (α : Type) := Parser LoadError α

/-! ## BinaryUnpacker -/

namespace BinaryUnpacker

/-- `UNSIGNED_LONG_SIZE`. -/
def unsignedLongSize : Nat := 8

/-- `struct.unpack("<Q", bs)[0]`. -/
def structUnpackUnsigned (bs : List Byte) : Except LoadError Nat :=
  if bs.length = 8 then .ok (wordOfBytes bs).toNat else .error .structError

/-- `struct.unpack("<q", bs)[0]`. -/
def structUnpackSigned (bs : List Byte) : Except LoadError Int :=
  if bs.length = 8 then .ok (wordOfBytes bs).toInt else .error .structError

def unpackUnsignedLong : Unpack Nat := do
  let buffer ← get
  let ret ← structUnpackUnsigned (buffer.take unsignedLongSize)
  set (buffer.drop unsignedLongSize)
  pure ret

def unpackSignedLong : Unpack Int := do
  let buffer ← get
  let ret ← structUnpackSigned (buffer.take unsignedLongSize)
  set (buffer.drop unsignedLongSize)
  pure ret

def unpackStr (strLen : Nat) : Unpack (List Byte) := do
  let buffer ← get
  set (buffer.drop strLen)
  pure (buffer.take strLen)

end BinaryUnpacker

/-! ## Loader -/

namespace Loader

open BinaryUnpacker

def loadMemoryCopy : Unpack MemoryCopy := do
  let fromAddr ← unpackUnsignedLong
  let toAddr ← unpackUnsignedLong
  let copyLen ← unpackUnsignedLong
  let copyStr ← unpackStr copyLen
  pure { fromAddress := fromAddr, toAddress := toAddr, buffer := copyStr }

def loadMemoryCopies : Unpack (List MemoryCopy) := do
  let numberOfCopies ← unpackUnsignedLong
  times loadMemoryCopy numberOfCopies

def loadRegisterValues : Unpack Registers := do
  let values ← times unpackUnsignedLong registersFields.length
  match Registers.ofList (values.map Int.ofNat) with
  | some registers => pure registers
  | none => throw .typeError

def loadSystemCall : Unpack SystemCall := do
  let registers ← loadRegisterValues
  let returnValue ← unpackSignedLong
  let memoryCopies ← loadMemoryCopies
  pure { registers, returnValue, memoryCopies }

/-- `load_system_calls` on `Loader.from_buffer(buffer)`: the syscalls and what is left of the buffer.
Each iteration of the `while` loop takes at least one byte, so the buffer's length bounds it. -/
def loadSystemCalls (buffer : List Byte) : Except LoadError (List SystemCall × List Byte) :=
  (untilEmpty .outOfFuel loadSystemCall buffer.length).run buffer

end Loader

/-! ## Reading back what the kernel wrote -/

namespace BinaryUnpacker

theorem take_wordBytes_append (w : Word) (rest : List Byte) :
    (wordBytes w ++ rest).take unsignedLongSize = wordBytes w :=
  List.take_left' (length_wordBytes w)

theorem drop_wordBytes_append (w : Word) (rest : List Byte) :
    (wordBytes w ++ rest).drop unsignedLongSize = rest :=
  List.drop_left' (length_wordBytes w)

theorem parses_unpackUnsignedLong (w : Word) : Parses unpackUnsignedLong (wordBytes w) w.toNat := by
  intro rest
  simp only [unpackUnsignedLong, StateT.run_bind, StateT.run_get, pure_bind,
    take_wordBytes_append, drop_wordBytes_append]
  simp [structUnpackUnsigned]

theorem parses_unpackSignedLong (w : Word) : Parses unpackSignedLong (wordBytes w) w.toInt := by
  intro rest
  simp only [unpackSignedLong, StateT.run_bind, StateT.run_get, pure_bind,
    take_wordBytes_append, drop_wordBytes_append]
  simp [structUnpackSigned]

theorem parses_unpackStr (bs : List Byte) : Parses (unpackStr bs.length) bs bs := by
  intro rest
  simp only [unpackStr, StateT.run_bind, StateT.run_get, pure_bind, StateT.run_set,
    List.drop_left, List.take_left, StateT.run_pure]
  rfl

end BinaryUnpacker

namespace Loader

open BinaryUnpacker

theorem parses_loadMemoryCopy {c : CopyRecord} (hlen : c.len.toNat = c.bytes.length) :
    Parses loadMemoryCopy c.toBytes c.toMemoryCopy := by
  have hstr : Parses (unpackStr c.len.toNat) c.bytes c.bytes := by
    rw [hlen]
    exact parses_unpackStr c.bytes
  have hcopy := Parses.map (MemoryCopy.mk c.fromAddr.toNat c.toAddr.toNat) hstr
  exact Parses.bind (parses_unpackUnsignedLong c.fromAddr)
    (Parses.bind (parses_unpackUnsignedLong c.toAddr)
      (Parses.bind (parses_unpackUnsignedLong c.len) hcopy))

theorem parses_loadMemoryCopies {copies : List CopyRecord} {amount : Word}
    (hamount : amount.toNat = copies.length)
    (hlen : ∀ c ∈ copies, c.len.toNat = c.bytes.length) :
    Parses loadMemoryCopies (wordBytes amount ++ copies.flatMap CopyRecord.toBytes)
      (copies.map CopyRecord.toMemoryCopy) := by
  apply Parses.bind (parses_unpackUnsignedLong amount)
  rw [hamount]
  exact Parses.times fun c hc => parses_loadMemoryCopy (hlen c hc)

/-- The kernel lists the registers in the order in which the dataclass declares them. -/
theorem registersFields_eq_ptRegsLayout : registersFields = ptRegsLayout :=
  rfl

theorem parses_loadRegisterValues (regs : PtRegs) :
    Parses loadRegisterValues (PtRegs.toBytes regs) (PtRegs.toRegisters regs) := by
  have hvalues : Parses (times unpackUnsignedLong registersFields.length)
      (PtRegs.toBytes regs) (ptRegsLayout.map fun r => (regs r).toNat) := by
    rw [registersFields_eq_ptRegsLayout]
    exact Parses.times fun r _ => parses_unpackUnsignedLong (regs r)
  have hlist : (ptRegsLayout.map fun r => (regs r).toNat).map Int.ofNat =
      Registers.toList (PtRegs.toRegisters regs) := by
    rw [Registers.toList, registersFields_eq_ptRegsLayout, List.map_map]
    rfl
  rw [← List.append_nil (PtRegs.toBytes regs)]
  apply Parses.bind hvalues
  simp only [hlist, Registers.ofList_toList]
  exact Parses.pure (PtRegs.toRegisters regs)

theorem parses_loadSystemCall {r : Record} (hamount : r.amountOfCopies.toNat = r.copiesToUser.length)
    (hlen : ∀ c ∈ r.copiesToUser, c.len.toNat = c.bytes.length) :
    Parses loadSystemCall (Record.dump r) (Record.toSystemCall r) := by
  have hbytes : Record.dump r = PtRegs.toBytes r.userspaceRegs ++ (wordBytes r.ret ++
      (wordBytes r.amountOfCopies ++ r.copiesToUser.flatMap CopyRecord.toBytes)) := by
    simp [Record.dump, SyscallRecord.dumpHeader]
  rw [hbytes]
  apply Parses.bind (parses_loadRegisterValues r.userspaceRegs)
  apply Parses.bind (parses_unpackSignedLong r.ret)
  exact Parses.map (SystemCall.mk (PtRegs.toRegisters r.userspaceRegs) r.ret.toInt)
    (parses_loadMemoryCopies hamount hlen)

/-- Every recording made of whole dumps is read back, record by record, to its end. -/
theorem loadSystemCalls_dumps {rs : List Record}
    (hsized : ∀ r ∈ rs, r.amountOfCopies.toNat = r.copiesToUser.length ∧
      ∀ c ∈ r.copiesToUser, c.len.toNat = c.bytes.length) :
    loadSystemCalls (rs.flatMap Record.dump) = .ok (rs.map Record.toSystemCall, []) := by
  -- no dump is empty, so the buffer is at least as long as the list of records
  have hfuel : ∀ xs : List Record, xs.length ≤ (xs.flatMap Record.dump).length := by
    intro xs
    induction xs with
    | nil =>
        simp
    | cons r xs ih =>
        have hpos := List.length_pos_iff.2 (Record.dump_ne_nil r)
        simp only [List.length_cons, List.flatMap_cons, List.length_append]
        omega
  exact Parses.untilEmpty
    (fun r hr => ⟨parses_loadSystemCall (hsized r hr).1 (hsized r hr).2, Record.dump_ne_nil r⟩)
    (hfuel rs)

end Loader

end RrPython
