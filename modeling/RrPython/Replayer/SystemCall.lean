import RrPython.Recorder.Records

/-!
# SystemCall — a recorded syscall on the Python side

The dataclasses `Registers`, `MemoryCopy` and `SystemCall`.  Their fields are Python integers, so a
register may hold any integer, for instance a negative return value.
-/

namespace RrPython

open Foundation

/-- The `Registers` dataclass. -/
abbrev Registers := Reg → Int

/-- Field order of the `Registers` dataclass. -/
def registersFields : List Reg :=
  [.r15, .r14, .r13, .r12, .rbp, .rbx, .r11, .r10, .r9, .r8, .rax, .rcx, .rdx, .rsi, .rdi,
    .origRax, .rip, .cs, .eflags, .rsp, .ss]

namespace Registers

def toList (registers : Registers) : List Int :=
  registersFields.map registers

/-- The constructor call `Registers(*values)`; `none` is the `TypeError` of a wrong argument count. -/
def ofList (values : List Int) : Option Registers :=
  if values.length = registersFields.length then some (valueAt registersFields values) else none

def sysCall (registers : Registers) : Int :=
  registers .origRax

theorem mem_registersFields (r : Reg) : r ∈ registersFields := by
  cases r <;> simp [registersFields]

@[simp] theorem ofList_toList (registers : Registers) : ofList registers.toList = some registers := by
  have hlen : registers.toList.length = registersFields.length := by
    simp [toList]
  have hval : valueAt registersFields registers.toList = registers := by
    funext r
    exact valueAt_map registers (mem_registersFields r)
  simp [ofList, hlen, hval]

end Registers

structure MemoryCopy where
  fromAddress : Int
  toAddress : Int
  buffer : List Byte
  deriving DecidableEq, Repr

structure SystemCall where
  registers : Registers
  returnValue : Int
  memoryCopies : List MemoryCopy

def SystemCall.num (call : SystemCall) : Int :=
  call.registers.sysCall

/-! ## The Python view of a kernel record -/

/-- Unsigned reading of the saved registers. -/
def PtRegs.toRegisters (regs : PtRegs) : Registers :=
  fun r => (regs r).toNat

def CopyRecord.toMemoryCopy (c : CopyRecord) : MemoryCopy where
  fromAddress := c.fromAddr.toNat
  toAddress := c.toAddr.toNat
  buffer := c.bytes

/-- The recorded syscall as the replayer should see it: unsigned registers and addresses, a signed
return value. -/
def Record.toSystemCall (r : Record) : SystemCall where
  registers := PtRegs.toRegisters r.userspaceRegs
  returnValue := r.ret.toInt
  memoryCopies := r.copiesToUser.map CopyRecord.toMemoryCopy

end RrPython
