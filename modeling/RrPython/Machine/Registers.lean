import Mathlib.Logic.Function.Basic
import RrPython.Foundation.LittleEndian

/-!
# Registers — the 21 saved user registers

The recorder sees them as the kernel's `struct pt_regs`, the replayer as the `Registers` dataclass
and, through ptrace, as part of `struct user_regs_struct`.  All three are maps out of `Reg`; what
differs between them is the order in which the fields are listed, so each order is a list of its own.
-/

namespace RrPython

open Foundation

inductive Reg
  | r15
  | r14
  | r13
  | r12
  | rbp
  | rbx
  | r11
  | r10
  | r9
  | r8
  | rax
  | rcx
  | rdx
  | rsi
  | rdi
  | origRax
  | rip
  | cs
  | eflags
  | rsp
  | ss
  deriving DecidableEq, Repr

/-- `struct pt_regs`: the user registers as the kernel saved them. -/
abbrev PtRegs := Reg → Word

/-- Field order of `struct pt_regs` on x86-64. -/
def ptRegsLayout : List Reg :=
  [.r15, .r14, .r13, .r12, .rbp, .rbx, .r11, .r10, .r9, .r8, .rax, .rcx, .rdx, .rsi, .rdi,
    .origRax, .rip, .cs, .eflags, .rsp, .ss]

/-- The bytes of a `struct pt_regs`. -/
def PtRegs.toBytes (regs : PtRegs) : List Byte :=
  ptRegsLayout.flatMap fun r => wordBytes (regs r)

@[simp] theorem PtRegs.length_toBytes (regs : PtRegs) : (PtRegs.toBytes regs).length = 168 := by
  simp [PtRegs.toBytes, ptRegsLayout]

/-- Storing one register. -/
def PtRegs.set (regs : PtRegs) (r : Reg) (v : Word) : PtRegs :=
  Function.update regs r v

@[simp] theorem PtRegs.set_same (regs : PtRegs) (r : Reg) (v : Word) : PtRegs.set regs r v r = v := by
  simp [PtRegs.set]

theorem PtRegs.set_other (regs : PtRegs) {r r' : Reg} (v : Word) (h : r' ≠ r) :
    PtRegs.set regs r v r' = regs r' := by
  simp [PtRegs.set, h]

/-! ## Values listed in a field order -/

/-- The value listed for `r` when `vals` lists values in the field order `order`. -/
def valueAt {α : Type} [Inhabited α] (order : List Reg) (vals : List α) (r : Reg) : α :=
  vals.getD (order.idxOf r) default

theorem valueAt_map {α : Type} [Inhabited α] {order : List Reg} (f : Reg → α) {r : Reg}
    (hr : r ∈ order) : valueAt order (order.map f) r = f r := by
  have hlt : order.idxOf r < order.length := List.idxOf_lt_length_of_mem hr
  have hget : order[order.idxOf r] = r := List.getElem_idxOf hlt
  simp [valueAt, List.getElem?_eq_getElem hlt, hget]

end RrPython
