import Mathlib.Data.List.Forall2
import RrPython.Recorder.System

/-!
# Trace — what a process did, whatever the module recorded of it

The calls of one process, read off its own events alone: which probed functions it is inside, and
what they wrote to user memory since its last syscall began.  The global pid and the two pointers of
the module play no part here.
-/

namespace RrPython

open Foundation

/-- The write that a call of `fn` with the registers `regs` has made when it returns 0. -/
def ProbedFn.written (fn : ProbedFn) (regs : PtRegs) (mem : KernelMem) : CopyRecord :=
  match fn.dataSize with
  | none => {
      fromAddr := regs .rsi
      toAddr := regs .rdi
      len := regs .rdx
      bytes := mem.read (regs .rsi) (regs .rdx).toNat }
  | some n => {
      fromAddr := 0
      toAddr := regs .rcx
      len := BitVec.ofNat 64 n
      bytes := leBytes n (regs .rax).toNat }

/-- A probed function that the process is inside, with what it was called on. -/
inductive Call
  | syscall
  | write (fn : ProbedFn) (regs : PtRegs)
  | wrap (region : Option SyscallRecordedMem)

def Call.isWrite : Call → Bool
  | .write _ _ => true
  | _ => false

/-- What one call left in user memory. -/
inductive Item
  /-- An outermost write that returned 0. -/
  | write (c : CopyRecord)
  /-- The bytes of a wrapped region that differ after the wrapped function. -/
  | diffs (cs : List CopyRecord)

/-- The bytes of `region` that differ in `mem`; none if one of the two cannot be read. -/
def regionDiffs (region : Option SyscallRecordedMem) (mem : UserMem) : List CopyRecord :=
  match region with
  | none => []
  | some m =>
      match mem.copyFromUser m.ptr m.len.toNat with
      | none => []
      | some newMem => byteDiffs m.ptr 0 m.mem newMem

/-- A syscall that has returned. -/
structure TracedSyscall where
  regs : PtRegs
  ret : Word
  items : List Item

structure Trace where
  /-- Innermost first. -/
  calls : List Call
  /-- The saved user registers. -/
  regs : PtRegs
  /-- The registers at the last syscall entry. -/
  entry : PtRegs
  /-- What the calls since then have written, in the order in which they returned. -/
  items : List Item
  /-- The syscalls that returned, without those whose return is of no interest. -/
  log : List TracedSyscall

namespace Trace

def init (regs : PtRegs) : Trace where
  calls := []
  regs
  entry := regs
  items := []
  log := []

def exitSyscall (t : Trace) (regs : PtRegs) : Trace :=
  let t' := { t with calls := t.calls.tail, regs }
  if Kernel.neverReturns (t.entry .origRax) then t'
  else { t' with log := t.log ++ [{ regs := t.entry, ret := regs .rax, items := t.items }] }

def exitWrite (t : Trace) (returnValue : Word) (mem : KernelMem) : Trace :=
  match t.calls with
  | .write fn regs :: rest =>
      if returnValue = 0 ∧ rest.any Call.isWrite = false then
        { t with calls := rest, items := t.items ++ [.write (fn.written regs mem)] }
      else { t with calls := rest }
  | _ => t

def exitWrap (t : Trace) (mem : UserMem) : Trace :=
  match t.calls with
  | .wrap region :: rest =>
      { t with calls := rest, items := t.items ++ [.diffs (regionDiffs region mem)] }
  | _ => t

/-- One event of the process. -/
def advance (t : Trace) : Event → Trace
  | .enterSyscall _ regs _ => { t with calls := [.syscall], regs, entry := regs, items := [] }
  | .exitSyscall _ regs => t.exitSyscall regs
  | .enterWrite _ fn regs _ => { t with calls := .write fn regs :: t.calls }
  | .exitWrite _ returnValue mem => t.exitWrite returnValue mem
  | .enterWrap _ w regs mem _ => { t with calls := .wrap (w.readRegion regs t.regs mem) :: t.calls }
  | .exitWrap _ mem _ _ => t.exitWrap mem
  | .writeProc _ _ _ => t
  | .read _ => t

/-- One event of any process, as `p` sees it. -/
def observe (p : Pid) (t : Trace) (e : Event) : Trace :=
  if e.process = some p then t.advance e else t

end Trace

/-- What `p` did in the events `es`, having started with the saved registers `regs`. -/
def trace (p : Pid) (regs : PtRegs) (es : List Event) : Trace :=
  es.foldl (Trace.observe p) (Trace.init regs)

/-! ## Lists of copies that belong to a trace -/

/-- `cs` are the writes among `items` in order, and between them for each wrapped call copies that
stand in the relation `D` to its differences. -/
inductive Attributed (D : List CopyRecord → List CopyRecord → Prop) :
    List Item → List CopyRecord → Prop
  | nil : Attributed D [] []
  | write {items : List Item} {cs : List CopyRecord} (c : CopyRecord) (h : Attributed D items cs) :
      Attributed D (items ++ [.write c]) (cs ++ [c])
  | diffs {items : List Item} {cs ds all : List CopyRecord} (hD : D ds all)
      (h : Attributed D items cs) : Attributed D (items ++ [.diffs all]) (cs ++ ds)

/-- All copies of an item. -/
def Item.copies : Item → List CopyRecord
  | .write c => [c]
  | .diffs cs => cs

/-- With equality for `D` there is one list. -/
theorem Attributed.eq_flatMap {items : List Item} {cs : List CopyRecord} (h : Attributed Eq items cs) :
    cs = items.flatMap Item.copies := by
  induction h with
  | nil =>
      rfl
  | write c _ ih =>
      simp [ih, Item.copies]
  | diffs hD _ ih =>
      simp [ih, hD, Item.copies]

end RrPython
