import RrPython.Foundation.Alternation
import RrPython.Recorder.Attribution
import RrPython.Replayer.Tracee

/-!
# Execution — a deterministic program under the recorder

The recorder sees of a process which probed functions it enters and leaves.  An `Execution` adds what
the process itself is: registers and memory, a program that takes them from each syscall exit to the
next entry, and a kernel that changes them only by setting `rax` and by the writes that the module
hooks.  The result here is that the trace explains the execution: the state at each exit is the state
at the entry with the traced return value and the traced writes put in.
-/

namespace RrPython

open Foundation

/-- What user mode makes of the registers and the memory of a syscall exit by the next entry. -/
abbrev Program := UserState → UserState

/-- The memory after a copy has been written. -/
def CopyRecord.apply (mem : ByteMemory) (c : CopyRecord) : ByteMemory :=
  mem.store c.toAddr c.bytes

def applyItems (mem : ByteMemory) (items : List Item) : ByteMemory :=
  (items.flatMap Item.copies).foldl CopyRecord.apply mem

/-- A syscall that has returned. -/
structure Round where
  entry : UserState
  exit : UserState
  /-- What the calls in between have written. -/
  items : List Item

namespace Round

def copies (r : Round) : List CopyRecord :=
  r.items.flatMap Item.copies

/-- What the trace keeps of it. -/
def traced (r : Round) : TracedSyscall where
  regs := r.entry.regs
  ret := r.exit.regs .rax
  items := r.items

/-- The exit is the entry with the return value and the writes put in. -/
def Explained (r : Round) : Prop :=
  r.exit = { regs := PtRegs.set r.entry.regs .rax (r.exit.regs .rax)
             mem := applyItems r.entry.mem r.items }

end Round

structure Execution where
  trace : Trace
  /-- What user mode would see now. -/
  user : UserState
  /-- What it was at the last syscall entry. -/
  entry : UserState
  rounds : List Round

namespace Execution

def init (regs : PtRegs) (user : UserState) : Execution where
  trace := Trace.init regs
  user
  entry := user
  rounds := []

/-- The memory after the innermost write has returned. -/
def memAfterWrite (x : Execution) (returnValue : Word) (mem : KernelMem) : ByteMemory :=
  match x.trace.calls with
  | .write fn regs :: _ =>
      if returnValue = 0 then (fn.written regs mem).apply x.user.mem else x.user.mem
  | _ => x.user.mem

/-- One event of the process. -/
def advance (program : Program) (x : Execution) (e : Event) : Execution :=
  match e with
  | .enterSyscall _ _ _ =>
      { x with trace := x.trace.advance e, user := program x.user, entry := program x.user }
  | .exitSyscall _ regs =>
      let user := { x.user with regs }
      { x with
        trace := x.trace.advance e
        user
        rounds := x.rounds ++ [{ entry := x.entry, exit := user, items := x.trace.items }] }
  | .exitWrite _ returnValue mem =>
      { x with
        trace := x.trace.advance e
        user := { x.user with mem := x.memAfterWrite returnValue mem } }
  | _ => { x with trace := x.trace.advance e }

/-- One event of any process, as the execution of `p` goes. -/
def observe (program : Program) (p : Pid) (x : Execution) (e : Event) : Execution :=
  if e.process = some p then x.advance program e else x

/-- The event is one of the execution of `p`: the program takes it to its entries; of the syscalls
that never return it makes only `exit_group`; the others change `rax` and no other register; writes
are made within syscalls, not within each other, and are complete or have no effect; and a wrapper
reads the memory that is there. -/
def Conforms (program : Program) (p : Pid) (x : Execution) : Event → Prop
  | .enterSyscall q regs _ => q = p → regs = (program x.user).regs ∧
      (Kernel.neverReturns (regs .origRax) → regs .origRax = Kernel.nrExitGroup)
  | .exitSyscall q regs => q = p → ¬Kernel.neverReturns x.entry.nr ∧
      regs = PtRegs.set x.entry.regs .rax (regs .rax)
  | .exitWrite q returnValue mem => q = p → ∀ fn regs rest, x.trace.calls = .write fn regs :: rest →
      .syscall ∈ rest ∧ rest.any Call.isWrite = false ∧
        (returnValue = 0 → x.user.mem.Mapped (fn.written regs mem).toAddr
          (fn.written regs mem).bytes.length)
  | .exitWrap q mem _ _ => q = p → mem = x.user.mem
  | _ => True

/-- The last thing the process has done is to call `exit_group`. -/
def InExitGroup (x : Execution) : Prop :=
  .syscall ∈ x.trace.calls ∧ x.entry.nr = Kernel.nrExitGroup

theorem trace_observe (program : Program) (p : Pid) (x : Execution) (e : Event) :
    (x.observe program p e).trace = x.trace.observe p e := by
  unfold observe Trace.observe
  split
  · cases e <;> rfl
  · rfl

end Execution

/-! ## Differences write nothing new -/

theorem applyItems_concat (mem : ByteMemory) (items : List Item) (item : Item) :
    applyItems mem (items ++ [item]) = item.copies.foldl CopyRecord.apply (applyItems mem items) := by
  simp [applyItems]

theorem foldl_apply_fixed {mem : ByteMemory} {cs : List CopyRecord}
    (h : ∀ c ∈ cs, c.apply mem = mem) : cs.foldl CopyRecord.apply mem = mem := by
  induction cs with
  | nil =>
      rfl
  | cons c cs ih =>
      rw [List.foldl_cons, h c (by simp)]
      exact ih fun c' hc' => h c' (by simp [hc'])

/-- Each difference is one byte of the new memory. -/
theorem mem_byteDiffs {ptr : Word} {olds news : List Byte} {d : CopyRecord} :
    ∀ {i : Nat}, d ∈ byteDiffs ptr i olds news →
      ∃ j b, news[j]? = some b ∧ d.toAddr = ptr + BitVec.ofNat 64 (i + j) ∧ d.bytes = [b] := by
  induction olds generalizing news with
  | nil =>
      intro i hd
      simp [byteDiffs] at hd
  | cons old olds ih =>
      intro i hd
      cases news with
      | nil =>
          simp [byteDiffs] at hd
      | cons new news =>
          have hlater : d ∈ byteDiffs ptr (i + 1) olds news → ∃ j b, (new :: news)[j]? = some b ∧
              d.toAddr = ptr + BitVec.ofNat 64 (i + j) ∧ d.bytes = [b] := by
            intro hd
            obtain ⟨j, b, hb, haddr, hbytes⟩ := ih hd
            exact ⟨j + 1, b, hb, by rw [haddr, Nat.add_right_comm, Nat.add_assoc], hbytes⟩
          simp only [byteDiffs] at hd
          split at hd
          · rcases List.mem_cons.1 hd with rfl | hd
            · exact ⟨0, new, rfl, rfl, rfl⟩
            · exact hlater hd
          · exact hlater hd

/-- An element of a list of results is the result at its place. -/
theorem getElem?_of_mapM {α β : Type} {f : α → Option β} {as : List α} :
    ∀ {bs : List β} {i : Nat} {b : β}, as.mapM f = some bs → bs[i]? = some b →
      ∃ a, as[i]? = some a ∧ f a = some b := by
  induction as with
  | nil =>
      intro bs i b h hb
      obtain rfl : bs = [] := by simpa using h.symm
      simp at hb
  | cons a as ih =>
      intro bs i b h hb
      simp only [List.mapM_cons, Option.bind_eq_bind, Option.bind_eq_some_iff] at h
      obtain ⟨b', hb', bs', hbs', hcons⟩ := h
      obtain rfl : b' :: bs' = bs := by simpa using hcons
      cases i with
      | zero =>
          obtain rfl : b' = b := by simpa using hb
          exact ⟨a, rfl, hb'⟩
      | succ i =>
          exact ih hbs' (by simpa using hb)

theorem length_of_mapM {α β : Type} {f : α → Option β} {as : List α} :
    ∀ {bs : List β}, as.mapM f = some bs → bs.length = as.length := by
  induction as with
  | nil =>
      intro bs h
      obtain rfl : bs = [] := by simpa using h.symm
      rfl
  | cons a as ih =>
      intro bs h
      simp only [List.mapM_cons, Option.bind_eq_bind, Option.bind_eq_some_iff] at h
      obtain ⟨b', _, bs', hbs', hcons⟩ := h
      obtain rfl : b' :: bs' = bs := by simpa using hcons
      rw [List.length_cons, List.length_cons, ih hbs']

theorem mapM_eq_some_of {α β : Type} {f : α → Option β} {as : List α} :
    ∀ {bs : List β}, bs.length = as.length → (∀ (i : Nat) (a : α), as[i]? = some a → f a = bs[i]?) →
      as.mapM f = some bs := by
  induction as with
  | nil =>
      intro bs hlen _
      obtain rfl : bs = [] := List.length_eq_zero_iff.1 hlen
      rfl
  | cons a as ih =>
      intro bs hlen h
      cases bs with
      | nil =>
          simp at hlen
      | cons b bs =>
          have hfirst : f a = some b := h 0 a rfl
          have hrest := ih (by simpa using hlen) fun i x hx => h (i + 1) x hx
          simp [hfirst, hrest]

theorem length_copyFromUser {mem : UserMem} {addr : Word} {n : Nat} {bytes : List Byte}
    (h : mem.copyFromUser addr n = some bytes) : bytes.length = n := by
  rw [length_of_mapM h, List.length_range]

theorem copyFromUser_getElem? {mem : UserMem} {addr : Word} {n : Nat} {bytes : List Byte}
    (h : mem.copyFromUser addr n = some bytes) {i : Nat} {b : Byte} (hb : bytes[i]? = some b) :
    mem (addr + BitVec.ofNat 64 i) = some b := by
  obtain ⟨j, hj, hread⟩ := getElem?_of_mapM h hb
  obtain ⟨hlt, rfl⟩ := List.getElem?_eq_some_iff.1 hj
  rwa [List.getElem_range] at hread

theorem copyFromUser_eq_some {mem : UserMem} {addr : Word} {n : Nat} {bytes : List Byte} :
    mem.copyFromUser addr n = some bytes ↔
      bytes.length = n ∧ ∀ i < n, mem (addr + BitVec.ofNat 64 i) = bytes[i]? := by
  constructor
  · intro h
    have hlen := length_copyFromUser h
    refine ⟨hlen, fun i hi => ?_⟩
    have hb : bytes[i]? = some bytes[i] := List.getElem?_eq_getElem (by omega)
    rw [copyFromUser_getElem? h hb, hb]
  · rintro ⟨hlen, hbytes⟩
    refine mapM_eq_some_of (by simpa using hlen) fun i j hj => ?_
    obtain ⟨hi, rfl⟩ := List.getElem?_eq_some_iff.1 hj
    rw [List.getElem_range]
    exact hbytes i (by simpa using hi)

/-- A wrapper compares with the memory that it finds, so its differences are there already. -/
theorem regionDiffs_apply (region : Option SyscallRecordedMem) (mem : ByteMemory) :
    (regionDiffs region mem).foldl CopyRecord.apply mem = mem := by
  cases region with
  | none =>
      rfl
  | some m =>
      cases hread : UserMem.copyFromUser mem m.ptr m.len.toNat with
      | none =>
          simp [regionDiffs, hread]
      | some newMem =>
          refine foldl_apply_fixed fun d hd => ?_
          simp only [regionDiffs, hread] at hd
          obtain ⟨j, b, hb, haddr, hbytes⟩ := mem_byteDiffs hd
          have hthere : mem d.toAddr = some b := by
            rw [haddr, Nat.zero_add]
            exact copyFromUser_getElem? hread hb
          rw [CopyRecord.apply, hbytes, ByteMemory.store, ByteMemory.store_nil, ← hthere]
          exact Function.update_eq_self d.toAddr mem

/-! ## The trace explains the execution -/

namespace Execution

/-- What the trace and the rounds have to do with the state of the process. -/
structure Explained (program : Program) (user : UserState) (x : Execution) : Prop where
  rounds : Alternates program Round.entry Round.exit user x.rounds
  log : x.trace.log = x.rounds.map Round.traced
  exits : ∀ r ∈ x.rounds, r.Explained
  outside : .syscall ∉ x.trace.calls → x.user = lastExit Round.exit user x.rounds
  inside : .syscall ∈ x.trace.calls → x.entry = program (lastExit Round.exit user x.rounds) ∧
    x.trace.entry = x.entry.regs ∧
      x.user = { x.entry with mem := applyItems x.entry.mem x.trace.items }

variable {program : Program} {user : UserState} {p : Pid} {x : Execution} {s : Sys}

theorem explained_init (regs : PtRegs) : Explained program user (init regs user) :=
  ⟨trivial, rfl, by simp [init], fun _ => rfl, by simp [init, Trace.init]⟩

/-- An event that writes nothing and neither begins nor ends a syscall. -/
theorem Explained.keeps (h : x.Explained program user) {x' : Execution}
    (htrace : x'.trace.log = x.trace.log ∧ x'.trace.entry = x.trace.entry ∧
      applyItems x.entry.mem x'.trace.items = applyItems x.entry.mem x.trace.items)
    (hcalls : .syscall ∈ x'.trace.calls ↔ .syscall ∈ x.trace.calls)
    (hrest : x'.user = x.user ∧ x'.entry = x.entry ∧ x'.rounds = x.rounds) :
    x'.Explained program user := by
  obtain ⟨hlog, hentry, hitems⟩ := htrace
  obtain ⟨huser, hentry', hrounds⟩ := hrest
  refine ⟨hrounds ▸ h.rounds, ?_, hrounds ▸ h.exits, ?_, ?_⟩
  · rw [hlog, hrounds, h.log]
  · intro hout
    rw [huser, hrounds]
    exact h.outside fun hin => hout (hcalls.2 hin)
  · intro hin
    rw [huser, hentry, hentry', hrounds, hitems]
    exact h.inside (hcalls.1 hin)

theorem Explained.enterSyscall (h : x.Explained program user) {regs : PtRegs} {a : Option Ptr}
    (houtside : x.trace.calls = []) (he : x.Conforms program p (.enterSyscall p regs a)) :
    (x.advance program (.enterSyscall p regs a)).Explained program user := by
  refine ⟨h.rounds, h.log, h.exits, ?_, ?_⟩
  · intro hout
    exact absurd (by simp [advance, Trace.advance]) hout
  · intro _
    have huser := h.outside (by simp [houtside])
    exact ⟨congrArg program huser, (he rfl).1, rfl⟩

theorem Explained.exitSyscall (h : x.Explained program user) {regs : PtRegs}
    (hinside : x.trace.calls = [.syscall]) (he : x.Conforms program p (.exitSyscall p regs)) :
    (x.advance program (.exitSyscall p regs)).Explained program user := by
  obtain ⟨hentry, htrace, huser⟩ := h.inside (by simp [hinside])
  obtain ⟨hreturns, hregs⟩ := he rfl
  have hlogged : x.trace.advance (.exitSyscall p regs) =
      { x.trace with
        calls := []
        regs
        log := x.trace.log ++ [{ regs := x.trace.entry, ret := regs .rax, items := x.trace.items }] } := by
    have hnot : ¬Kernel.neverReturns (x.trace.entry .origRax) := htrace ▸ hreturns
    simp [Trace.advance, Trace.exitSyscall, hinside, hnot]
  refine ⟨h.rounds.concat hentry, ?_, ?_, ?_, ?_⟩
  · simp [advance, hlogged, h.log, Round.traced, htrace]
  · intro r hr
    rcases List.mem_append.1 hr with hr | hr
    · exact h.exits r hr
    · -- the new round: the kernel has changed `rax` and written what the trace has
      rw [List.mem_singleton.1 hr, Round.Explained, huser]
      simp only
      rw [← hregs]
  · intro _
    simp [advance]
  · intro hin
    simp [advance, hlogged] at hin

theorem Explained.exitWrite (h : x.Explained program user) {returnValue : Word} {mem : KernelMem}
    {fn : ProbedFn} {regs : PtRegs} {rest : List Call} (hcalls : x.trace.calls = .write fn regs :: rest)
    (he : x.Conforms program p (.exitWrite p returnValue mem)) :
    (x.advance program (.exitWrite p returnValue mem)).Explained program user := by
  obtain ⟨hin, houter, _⟩ := he rfl fn regs rest hcalls
  obtain ⟨hentry, htrace, huser⟩ := h.inside (by simp [hcalls, hin])
  by_cases hret : returnValue = 0
  · -- written: the memory and the items grow by the same copy
    have hitems : x.trace.advance (.exitWrite p returnValue mem) =
        { x.trace with calls := rest, items := x.trace.items ++ [.write (fn.written regs mem)] } := by
      simp [Trace.advance, Trace.exitWrite, hcalls, hret, houter]
    have hmem : x.memAfterWrite returnValue mem = (fn.written regs mem).apply x.user.mem := by
      simp [memAfterWrite, hcalls, hret]
    refine ⟨h.rounds, ?_, h.exits, ?_, ?_⟩
    · simpa [advance, hitems] using h.log
    · intro hout
      exact absurd hin (by simpa [advance, hitems] using hout)
    · intro _
      refine ⟨hentry, by simpa [advance, hitems] using htrace, ?_⟩
      simp [advance, hitems, hmem, huser, applyItems_concat, Item.copies]
  · -- failed: neither changes
    have hitems : x.trace.advance (.exitWrite p returnValue mem) = { x.trace with calls := rest } := by
      simp only [Trace.advance, Trace.exitWrite, hcalls]
      rw [if_neg fun hzero => hret hzero.1]
    have hmem : x.memAfterWrite returnValue mem = x.user.mem := by
      simp only [memAfterWrite, hcalls]
      rw [if_neg hret]
    refine h.keeps ?_ ?_ ?_
    · simp [advance, hitems]
    · simp [advance, hitems, hcalls]
    · simp [advance, hmem]

theorem Explained.exitWrap (h : x.Explained program user) {mem : UserMem} {allocated : Bool}
    {allocs : List (Option Ptr)} {region : Option SyscallRecordedMem} {rest : List Call}
    (hcalls : x.trace.calls = .wrap region :: rest)
    (he : x.Conforms program p (.exitWrap p mem allocated allocs)) :
    (x.advance program (.exitWrap p mem allocated allocs)).Explained program user := by
  have hitems : x.trace.advance (.exitWrap p mem allocated allocs) =
      { x.trace with calls := rest, items := x.trace.items ++ [.diffs (regionDiffs region mem)] } := by
    simp [Trace.advance, Trace.exitWrap, hcalls]
  have hmem : mem = x.user.mem := he rfl
  by_cases hin : .syscall ∈ x.trace.calls
  · refine h.keeps ⟨?_, ?_, ?_⟩ ?_ ⟨rfl, rfl, rfl⟩
    · simp [advance, hitems]
    · simp [advance, hitems]
    · -- the process has the traced writes in memory, and the differences are among them
      have hthere : applyItems x.entry.mem x.trace.items = mem := by
        rw [hmem, (h.inside hin).2.2]
      simp only [advance, hitems, applyItems_concat, hthere]
      exact regionDiffs_apply region mem
    · simp [advance, hitems, hcalls]
  · -- outside of a syscall the items do not matter
    have hout : .syscall ∉ (x.advance program (.exitWrap p mem allocated allocs)).trace.calls := by
      simp only [advance, hitems]
      intro hrest
      exact hin (by simp [hcalls, hrest])
    refine ⟨h.rounds, ?_, h.exits, fun _ => h.outside hin, fun hin' => absurd hin' hout⟩
    simpa [advance, hitems] using h.log

/-- Every event of a conforming process that the module can see. -/
theorem Explained.step {s' : Sys} (hinv : s.Inv) (h : x.Explained program user)
    (hstack : List.Forall₂ Matches (s.frames p) x.trace.calls) {e : Event}
    (he : x.Conforms program p e) (hs : s.step e = .ok s') :
    (x.observe program p e).Explained program user := by
  by_cases hp : e.process = some p
  · rw [observe, if_pos hp]
    cases e with
    | enterSyscall q regs a =>
        obtain rfl : q = p := by simpa [Event.process] using hp
        obtain ⟨hframes, _⟩ := (Sys.enterSyscall_cases s q regs a).of_ok hs
        rw [hframes, List.forall₂_nil_left_iff] at hstack
        exact h.enterSyscall hstack he
    | exitSyscall q regs =>
        obtain rfl : q = p := by simpa [Event.process] using hp
        have hframes : ∃ hooked, s.frames q = [.syscall hooked] := by
          rcases (Sys.exitSyscall_cases hinv q regs).of_ok hs with ⟨hframes, _⟩ | ⟨hframes, _⟩
          · exact ⟨false, hframes⟩
          · exact ⟨true, hframes⟩
        obtain ⟨hooked, hframes⟩ := hframes
        rw [hframes] at hstack
        obtain ⟨call, calls, hfirst, hrest, hcalls⟩ := List.forall₂_cons_left_iff.1 hstack
        rw [List.forall₂_nil_left_iff] at hrest
        cases hfirst with
        | syscall =>
            exact h.exitSyscall (hrest ▸ hcalls) he
    | enterWrite q fn regs a =>
        exact h.keeps ⟨rfl, rfl, rfl⟩ (by simp [advance, Trace.advance]) ⟨rfl, rfl, rfl⟩
    | exitWrite q returnValue mem =>
        obtain rfl : q = p := by simpa [Event.process] using hp
        obtain ⟨fn, hooked, rest, hframes, _⟩ := (Sys.exitWrite_cases hinv q returnValue mem).of_ok hs
        rw [hframes] at hstack
        obtain ⟨call, calls, hfirst, _, hcalls⟩ := List.forall₂_cons_left_iff.1 hstack
        cases hfirst with
        | write fn hooked regs =>
            exact h.exitWrite hcalls he
    | enterWrap q w regs mem allocated =>
        exact h.keeps ⟨rfl, rfl, rfl⟩ (by simp [advance, Trace.advance]) ⟨rfl, rfl, rfl⟩
    | exitWrap q mem allocated allocs =>
        obtain rfl : q = p := by simpa [Event.process] using hp
        obtain ⟨recorded, rest, _, hframes, _⟩ :=
          (Sys.exitWrap_cases hinv q mem allocated allocs).of_ok hs
        rw [hframes] at hstack
        obtain ⟨call, calls, hfirst, _, hcalls⟩ := List.forall₂_cons_left_iff.1 hstack
        cases hfirst with
        | wrapRejected region =>
            exact h.exitWrap hcalls he
        | wrap m =>
            exact h.exitWrap hcalls he
    | writeProc ppos count parsed =>
        simp [Event.process] at hp
    | read r =>
        simp [Event.process] at hp
  · rw [observe, if_neg hp]
    exact h

end Execution

end RrPython
