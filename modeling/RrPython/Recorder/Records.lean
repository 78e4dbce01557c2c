import RrPython.Machine.Registers

/-!
# Records — what the kernel module keeps of a syscall

`CopyRecord` is `struct copy_record`, one write of the kernel into user memory, and `SyscallRecord`
is `struct syscall_record`.  The list `copies_to_user` holds heap pointers while the record lives in
the module and whole copies once it has been read out, so `SyscallRecord` is generic in its elements.
-/

namespace RrPython

open Foundation

/-- Process ids as C `int`s; `current->pid` of a task. -/
abbrev Pid := Int

structure CopyRecord where
  fromAddr : Word
  toAddr : Word
  len : Word
  bytes : List Byte
  deriving DecidableEq, Repr

structure SyscallRecord (κ : Type) where
  userspaceRegs : PtRegs
  ret : Word
  /-- `struct pt_regs *` into the kernel stack of the task that entered the syscall; a task has
  one such area, so the pointer is that task. -/
  userspaceRegsPtr : Pid
  amountOfCopies : Word
  copiesToUser : List κ

abbrev Record := SyscallRecord CopyRecord

/-! ## Sizes of the C structs -/

/-- `sizeof(struct copy_record)`. -/
def sizeofCopyRecord : Word := 24

/-- `sizeof(struct syscall_dump)`. -/
def sizeofSyscallDump : Word := 184

@[simp] theorem sizeofCopyRecord_toNat : sizeofCopyRecord.toNat = 24 := rfl

/-! ## In-memory images -/

/-- The bytes of a `struct copy_record` with its trailing `bytes[]`. -/
def CopyRecord.toBytes (c : CopyRecord) : List Byte :=
  wordBytes c.fromAddr ++ (wordBytes c.toAddr ++ (wordBytes c.len ++ c.bytes))

@[simp] theorem CopyRecord.length_toBytes (c : CopyRecord) :
    c.toBytes.length = 24 + c.bytes.length := by
  simp only [CopyRecord.toBytes, List.length_append, length_wordBytes]
  omega

/-- The bytes of the `struct syscall_dump` that `dump_syscall_record` fills in. -/
def SyscallRecord.dumpHeader {κ : Type} (r : SyscallRecord κ) : List Byte :=
  PtRegs.toBytes r.userspaceRegs ++ (wordBytes r.ret ++ wordBytes r.amountOfCopies)

@[simp] theorem SyscallRecord.length_dumpHeader {κ : Type} (r : SyscallRecord κ) :
    r.dumpHeader.length = 184 := by
  simp [SyscallRecord.dumpHeader]

/-- The dump of a whole record: its header followed by its copies in list order. -/
def Record.dump (r : Record) : List Byte :=
  r.dumpHeader ++ r.copiesToUser.flatMap CopyRecord.toBytes

/-! ## Well-formed records -/

/-- `len` counts the stored bytes, and they are few enough for the 32-bit `record_size` of
`dump_copy_records`; `kmalloc` never serves more. -/
structure CopyRecord.Sized (c : CopyRecord) : Prop where
  len_eq : c.len.toNat = c.bytes.length
  bytes_lt : c.bytes.length < 2 ^ 32 - 24

/-- The counter agrees with the list and every copy is `Sized`. -/
structure Record.Sized (r : Record) : Prop where
  amount_eq : r.amountOfCopies.toNat = r.copiesToUser.length
  copies : ∀ c ∈ r.copiesToUser, c.Sized

/-- Length of the dump as an integer. -/
def Record.dumpLen (r : Record) : Nat :=
  184 + (r.copiesToUser.map fun c => 24 + c.bytes.length).sum

theorem Record.length_dump (r : Record) : (Record.dump r).length = Record.dumpLen r := by
  have hcopies : (r.copiesToUser.flatMap CopyRecord.toBytes).length =
      (r.copiesToUser.map fun c => 24 + c.bytes.length).sum := by
    rw [List.length_flatMap]
    congr 1
    exact List.map_congr_left fun c _ => c.length_toBytes
  simp [Record.dump, Record.dumpLen, hcopies]

theorem Record.dump_ne_nil (r : Record) : Record.dump r ≠ [] := by
  intro h
  have hlen := Record.length_dump r
  rw [h] at hlen
  simp only [List.length_nil, Record.dumpLen] at hlen
  omega

end RrPython
