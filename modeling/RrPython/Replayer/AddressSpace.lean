import RrPython.Replayer.Visits

/-!
# AddressSpace — what is mapped in the recorded and in the replayed process

A call that is run for real changes the address space of the tracee as the recorded call changed that
of its process; a simulated one leaves it alone.  The two stay the same as long as mmap, mprotect, brk
and munmap were the only calls that changed the recorded address space, which mremap does, too.
-/

namespace RrPython

open Foundation Creplayer Replayer ShouldSimulate

/-! ## Address spaces -/

@[ext] structure AddressSpace where
  mapped : Set Word
  heapEnd : Word

/-- `mremap`, for which the source has a name but no constant. -/
def mremapSysCall : Int := 25

/-- `MREMAP_DONTUNMAP`. -/
def mremapDontunmap : Word := 4

/-- `n`, rounded up to whole pages. -/
def pageUp (n : Nat) : Nat :=
  (n + 4095) / 4096 * 4096

/-- The pages of the `len` bytes at `addr`. -/
def pages (addr len : Word) : Set Word :=
  {a | (a - addr).toNat < pageUp len.toNat}

/-- The pages that a heap that ends at `hi` has more than one that ends at `lo`. -/
def heapPages (lo hi : Word) : Set Word :=
  {a | pageUp lo.toNat ≤ a.toNat ∧ a.toNat < pageUp hi.toNat}

/-- What a successful call with the arguments in `regs` makes of an address space by returning `ret`. -/
def AddressSpace.after (s : AddressSpace) (num : Int) (regs : PtRegs) (ret : Word) : AddressSpace :=
  if num = mmapSysCall then { s with mapped := s.mapped ∪ pages ret (regs .rsi) }
  else if num = munmapSysCall then { s with mapped := s.mapped \ pages (regs .rdi) (regs .rsi) }
  else if num = mremapSysCall then
    if regs .r10 &&& mremapDontunmap = 0 then
      { s with mapped := (s.mapped \ pages (regs .rdi) (regs .rsi)) ∪ pages ret (regs .rdx) }
    else { s with mapped := s.mapped ∪ pages ret (regs .rdx) }
  else if num = brkSysCall then {
    mapped := (s.mapped \ heapPages ret s.heapEnd) ∪ heapPages s.heapEnd ret
    heapEnd := ret }
  else s

/-- The calls of which `AddressSpace.after` says what they do. -/
def spaceSysCalls : List Int :=
  [mmapSysCall, munmapSysCall, mremapSysCall, brkSysCall, mprotectSysCall, openSysCall, openatSysCall,
    closeSysCall]

def mappedIn (mem : ByteMemory) : Set Word :=
  {a | (mem a).isSome}

/-! ## The two processes -/

/-- The recorded process: `space i` is its address space before the call at `i`.  Of the calls that
`AddressSpace.after` leaves out only the heap end is known, which no other call than brk moves. -/
structure RecordedSpaces (records : List Record) (space : Nat → AddressSpace) : Prop where
  known : ∀ (i : Nat) (r : Record), records[i]? = some r → r.toSystemCall.num ∈ spaceSysCalls →
    space (i + 1) = (space i).after r.toSystemCall.num r.userspaceRegs r.ret
  other : ∀ (i : Nat) (r : Record), records[i]? = some r → r.toSystemCall.num ∉ spaceSysCalls →
    (space (i + 1)).heapEnd = (space i).heapEnd
  succeeds : ∀ (i : Nat) (r : Record), records[i]? = some r →
    r.toSystemCall.num ∈ [mmapSysCall, munmapSysCall, mremapSysCall, mprotectSysCall] → 0 ≤ r.ret.toInt

/-- The kernel of the tracee: a call that is run for real does what it is to do, and an mmap, which has
`MAP_FIXED`, maps the range that it is asked for. -/
structure TraceeSpaces (calls : List SystemCall) (xs : List Visit) (heapEnd : Nat → Word) : Prop where
  real : ∀ (i : Nat) (call : SystemCall) (x : Visit), calls[i]? = some call → xs[i]? = some x →
    RunsForReal calls i call → AddressSpace.mk (mappedIn x.exit.mem) (heapEnd (i + 1)) =
      (AddressSpace.mk (mappedIn x.entry.mem) (heapEnd i)).after call.num (x.entry.wrapped call).regs
        (x.exit.regs .rax)
  fixed : ∀ (i : Nat) (call : SystemCall) (x : Visit), calls[i]? = some call → xs[i]? = some x →
    call.num = mmapSysCall → x.exit.regs .rax = (x.entry.wrapped call).regs .rdi
  simulated : ∀ (i : Nat) (call : SystemCall) (x : Visit), calls[i]? = some call → xs[i]? = some x →
    ¬RunsForReal calls i call → heapEnd (i + 1) = heapEnd i

/-- The tracee makes the recorded calls with the recorded arguments. -/
def SameArguments (records : List Record) (xs : List Visit) : Prop :=
  ∀ (i : Nat) (r : Record) (x : Visit), records[i]? = some r → xs[i]? = some x →
    ∀ a ∈ [Reg.rdi, .rsi, .rdx, .r10, .r8, .r9], x.entry.regs a = r.userspaceRegs a

/-- User mode maps and unmaps nothing. -/
def UserMapsNothing (w : World) : Prop :=
  ∀ n u u', w.user n u = .syscall u' → mappedIn u'.mem = mappedIn u.mem

/-- After each visit the tracee has mapped what the recorded process had mapped after the call. -/
def SameMapped (xs : List Visit) (space : Nat → AddressSpace) : Prop :=
  ∀ (i : Nat) (x : Visit), xs[i]? = some x → mappedIn x.exit.mem = (space (i + 1)).mapped

/-- The first `n` recorded calls, mmap, mprotect, brk and munmap apart, left the set of mapped addresses
alone. -/
def OthersMapNothing (calls : List SystemCall) (n : Nat) (space : Nat → AddressSpace) : Prop :=
  ∀ (i : Nat) (call : SystemCall), i < n → calls[i]? = some call → call.num ∉ sysCallsNotToSimulate →
    (space (i + 1)).mapped = (space i).mapped

/-! ## One call -/

theorem mappedIn_appliedCopies {copies : List MemoryCopy} :
    ∀ {mem : ByteMemory}, CopiesWritable mem copies →
      mappedIn (appliedCopies mem copies) = mappedIn mem := by
  induction copies with
  | nil =>
      intro mem _
      rfl
  | cons c copies ih =>
      intro mem h
      obtain ⟨hhead, htail⟩ := copiesWritable_cons.1 h
      rw [appliedCopies, List.foldl_cons]
      -- a copy that can be written goes to addresses that are mapped
      refine (ih htail).trans ?_
      ext a
      exact Eq.to_iff (congrArg (· = true) (isSome_written hhead a))

/-- Two calls that agree in what `AddressSpace.after` looks at. -/
theorem after_congr {s : AddressSpace} {num : Int} {regs regs' : PtRegs} {ret ret' : Word}
    (hrdi : num ≠ mmapSysCall → regs .rdi = regs' .rdi) (hrsi : regs .rsi = regs' .rsi)
    (hmremap : num ≠ mremapSysCall) (hret : num = mmapSysCall ∨ num = brkSysCall → ret = ret') :
    s.after num regs ret = s.after num regs' ret' := by
  unfold AddressSpace.after
  by_cases hmmap : num = mmapSysCall
  · rw [if_pos hmmap, if_pos hmmap, hrsi, hret (Or.inl hmmap)]
  · rw [if_neg hmmap, if_neg hmmap, if_neg hmremap, if_neg hmremap, hrdi hmmap, hrsi]
    by_cases hbrk : num = brkSysCall
    · rw [hret (Or.inr hbrk)]
    · rw [if_neg hbrk, if_neg hbrk]

/-- What a call that is run for real does is known, and it is no mremap. -/
theorem RunsForReal.mem_spaceSysCalls {calls : List SystemCall} {i : Nat} {call : SystemCall}
    (h : RunsForReal calls i call) : call.num ∈ spaceSysCalls ∧ call.num ≠ mremapSysCall := by
  rcases h with h | ⟨h | h, _⟩ | ⟨h, _⟩
  · simp only [sysCallsNotToSimulate, List.mem_cons, List.not_mem_nil, or_false] at h
    rcases h with h | h | h | h <;> rw [h] <;> decide
  · rw [h]
    decide
  · rw [h]
    decide
  · rw [h]
    decide

theorem after_heapEnd (s : AddressSpace) {num : Int} (hnum : num ≠ brkSysCall) (regs : PtRegs) (ret : Word) :
    (s.after num regs ret).heapEnd = s.heapEnd := by
  unfold AddressSpace.after
  split_ifs <;> rfl

/-- Of the calls that are known, only four and mremap change the set of mapped addresses. -/
theorem after_mapped (s : AddressSpace) {num : Int} (hnum : num ∉ sysCallsNotToSimulate)
    (hmremap : num ≠ mremapSysCall) (regs : PtRegs) (ret : Word) : s.after num regs ret = s := by
  simp only [sysCallsNotToSimulate, List.mem_cons, List.not_mem_nil, or_false, not_or] at hnum
  obtain ⟨hmmap, _, hmunmap, hbrk⟩ := hnum
  simp [AddressSpace.after, hmmap, hmunmap, hmremap, hbrk]

theorem wrappedRegs_of_ne {call : SystemCall} (h : call.num ≠ mmapSysCall) (regs : PtRegs) :
    wrappedRegs call regs = regs :=
  if_neg h

/-- The length of an mmap stays as it is. -/
theorem wrappedRegs_rsi (call : SystemCall) (regs : PtRegs) : wrappedRegs call regs .rsi = regs .rsi := by
  unfold wrappedRegs
  split_ifs with h
  · rw [PtRegs.set_other _ _ (by decide), PtRegs.set_other _ _ (by decide)]
  · rfl

/-- An mmap is asked to return what it returned in the recording. -/
theorem wrappedRegs_rdi {r : Record} (h : r.toSystemCall.num = mmapSysCall) (regs : PtRegs) :
    wrappedRegs r.toSystemCall regs .rdi = r.ret := by
  rw [wrappedRegs, if_pos h, PtRegs.set_other _ _ (by decide), PtRegs.set_same]
  exact BitVec.ofInt_toInt

/-- The tracee of a replay, and the recorded process that it is to be like. -/
structure SpaceReplay (records : List Record) (w : World) (start : UserState) (xs : List Visit)
    (space : Nat → AddressSpace) (heapEnd : Nat → Word) : Prop where
  taken : Taken (records.map Record.toSystemCall) w start xs
  user : UserMapsNothing w
  recorded : RecordedSpaces records space
  tracee : TraceeSpaces (records.map Record.toSystemCall) xs heapEnd
  arguments : SameArguments records xs
  start : AddressSpace.mk (mappedIn start.mem) (heapEnd 0) = space 0

section SpaceReplay

variable {records : List Record} {w : World} {start : UserState} {xs : List Visit}
  {space : Nat → AddressSpace} {heapEnd : Nat → Word} {i : Nat} {x : Visit}

/-- Before the visit at `i` the two address spaces are the same. -/
def SameSpace (start : UserState) (xs : List Visit) (space : Nat → AddressSpace) (heapEnd : Nat → Word)
    (i : Nat) : Prop :=
  AddressSpace.mk (mappedIn (lastExit Visit.exit start (xs.take i)).mem) (heapEnd i) = space i

/-- What a visit finds mapped. -/
theorem SpaceReplay.visit (h : SpaceReplay records w start xs space heapEnd) (hx : xs[i]? = some x) :
    ∃ r, records[i]? = some r ∧ (records.map Record.toSystemCall)[i]? = some r.toSystemCall ∧
      mappedIn x.entry.mem = mappedIn (lastExit Visit.exit start (xs.take i)).mem ∧
        Effect (records.map Record.toSystemCall) w i r.toSystemCall x.entry x.exit := by
  obtain ⟨call, henter, heffect⟩ := h.taken.visit hx
  have hlt := (List.getElem?_eq_some_iff.1 hx).1
  have hcall := henter.recorded
  rw [List.length_take_of_le hlt.le] at hcall
  obtain ⟨r, hr, rfl⟩ : ∃ r, records[i]? = some r ∧ r.toSystemCall = call := by
    simpa using hcall
  exact ⟨r, hr, hcall, h.user _ _ _ henter.user, heffect⟩

/-- Behind a call that is run for real the two address spaces are the same again. -/
theorem SpaceReplay.real (h : SpaceReplay records w start xs space heapEnd) (hx : xs[i]? = some x)
    (hsame : SameSpace start xs space heapEnd i) (hreal : RealAt (records.map Record.toSystemCall) i) :
    AddressSpace.mk (mappedIn x.exit.mem) (heapEnd (i + 1)) = space (i + 1) := by
  obtain ⟨r, hr, hcall, hentry, heffect⟩ := h.visit hx
  have hruns := (realAt_iff hcall).1 hreal
  obtain ⟨hknown, hmremap⟩ := hruns.mem_spaceSysCalls
  have hargs := h.arguments i r x hr hx
  rw [h.tracee.real i _ x hcall hx hruns, h.recorded.known i r hr hknown, hentry, hsame]
  -- the recorded arguments, an mmap at the recorded address, and what is returned as recorded
  refine after_congr (fun hmmap => ?_) ?_ hmremap ?_
  · rw [UserState.wrapped, wrappedRegs_of_ne hmmap]
    exact hargs .rdi (by decide)
  · exact (wrappedRegs_rsi _ _).trans (hargs .rsi (by decide))
  · rintro (hmmap | hbrk)
    · rw [h.tracee.fixed i _ x hcall hx hmmap]
      exact wrappedRegs_rdi hmmap x.entry.regs
    · -- what brk returns is compared with what was recorded
      generalize x.exit = v at heffect
      cases heffect with
      | simulated hsimulated _ =>
          exact absurd hruns hsimulated
      | real _ _ hvalid =>
          have hvalue := hvalid.resolve_right (by rw [hbrk]; decide)
          rw [← ofInt_toNat (v.regs .rax), ← hvalue]
          exact BitVec.ofInt_toInt

/-- A simulated call leaves the address space of the tracee alone. -/
theorem SpaceReplay.simulated (h : SpaceReplay records w start xs space heapEnd) (hx : xs[i]? = some x)
    (hsame : SameSpace start xs space heapEnd i) (hsimulated : ¬RealAt (records.map Record.toSystemCall) i) :
    AddressSpace.mk (mappedIn x.exit.mem) (heapEnd (i + 1)) = space i := by
  obtain ⟨r, hr, hcall, hentry, heffect⟩ := h.visit hx
  rw [realAt_iff hcall] at hsimulated
  have hmem : mappedIn x.exit.mem = mappedIn x.entry.mem := by
    generalize x.exit = v at heffect
    cases heffect with
    | simulated _ hwritable =>
        exact mappedIn_appliedCopies hwritable
    | real hreal _ _ =>
        exact absurd hreal hsimulated
  rw [hmem, hentry, h.tracee.simulated i _ x hcall hx hsimulated]
  exact hsame

/-- The recorded call has left the heap end alone, too. -/
theorem RecordedSpaces.heapEnd_eq (h : RecordedSpaces records space) {r : Record}
    (hr : records[i]? = some r) (hbrk : r.toSystemCall.num ≠ brkSysCall) :
    (space (i + 1)).heapEnd = (space i).heapEnd := by
  by_cases hknown : r.toSystemCall.num ∈ spaceSysCalls
  · rw [h.known i r hr hknown]
    exact after_heapEnd _ hbrk _ _
  · exact h.other i r hr hknown

/-- If the sets of mapped addresses are the same behind a call, so are the heap ends. -/
theorem SpaceReplay.sameEnd (h : SpaceReplay records w start xs space heapEnd) (hx : xs[i]? = some x)
    (hsame : SameSpace start xs space heapEnd i)
    (hmapped : mappedIn x.exit.mem = (space (i + 1)).mapped) :
    AddressSpace.mk (mappedIn x.exit.mem) (heapEnd (i + 1)) = space (i + 1) := by
  by_cases hreal : RealAt (records.map Record.toSystemCall) i
  · exact h.real hx hsame hreal
  · obtain ⟨r, hr, hcall, _, _⟩ := h.visit hx
    -- only brk moves the heap end, and that is run for real
    have hbrk : r.toSystemCall.num ≠ brkSysCall := by
      intro hbrk
      exact hreal ((realAt_iff hcall).2 (Or.inl (by rw [hbrk]; decide)))
    have hend := congrArg AddressSpace.heapEnd (h.simulated hx hsame hreal)
    rw [← h.recorded.heapEnd_eq hr hbrk] at hend
    exact AddressSpace.ext hmapped hend

theorem sameSpace_succ (hx : xs[i]? = some x) :
    SameSpace start xs space heapEnd (i + 1) ↔
      AddressSpace.mk (mappedIn x.exit.mem) (heapEnd (i + 1)) = space (i + 1) := by
  rw [SameSpace, List.take_add_one, hx, Option.toList_some, lastExit_concat]

/-- What holds behind one call holds before the next one. -/
theorem SpaceReplay.sameSpace (h : SpaceReplay records w start xs space heapEnd)
    (hstep : ∀ (i : Nat) (x : Visit), xs[i]? = some x → SameSpace start xs space heapEnd i →
      mappedIn x.exit.mem = (space (i + 1)).mapped) :
    ∀ i ≤ xs.length, SameSpace start xs space heapEnd i := by
  intro i
  induction i with
  | zero =>
      intro _
      exact h.start
  | succ i ih =>
      intro hi
      have hx : xs[i]? = some xs[i] := List.getElem?_eq_getElem hi
      have hsame := ih (by omega)
      exact (sameSpace_succ hx).2 (h.sameEnd hx hsame (hstep i _ hx hsame))

/-- A call keeps the sets of mapped addresses the same exactly if it is one of the four, or has left
that of the recorded process alone. -/
theorem SpaceReplay.mapped_iff (h : SpaceReplay records w start xs space heapEnd) {r : Record}
    (hx : xs[i]? = some x) (hr : records[i]? = some r) (hsame : SameSpace start xs space heapEnd i) :
    mappedIn x.exit.mem = (space (i + 1)).mapped ↔
      (r.toSystemCall.num ∉ sysCallsNotToSimulate → (space (i + 1)).mapped = (space i).mapped) := by
  have hcall : (records.map Record.toSystemCall)[i]? = some r.toSystemCall := by
    rw [List.getElem?_map, hr]
    rfl
  by_cases hreal : RealAt (records.map Record.toSystemCall) i
  · refine iff_of_true (congrArg AddressSpace.mapped (h.real hx hsame hreal)) fun hnum => ?_
    -- an open or a close that is run for real
    obtain ⟨hknown, hmremap⟩ := ((realAt_iff hcall).1 hreal).mem_spaceSysCalls
    rw [h.recorded.known i r hr hknown, after_mapped _ hnum hmremap]
  · -- simulated: the tracee still has mapped what both had before the call
    have hnum : r.toSystemCall.num ∉ sysCallsNotToSimulate :=
      fun hnum => hreal ((realAt_iff hcall).2 (Or.inl hnum))
    have hmapped : mappedIn x.exit.mem = (space i).mapped :=
      congrArg AddressSpace.mapped (h.simulated hx hsame hreal)
    rw [hmapped]
    exact ⟨fun heq _ => heq.symm, fun heq => (heq hnum).symm⟩

theorem SpaceReplay.sameMapped_iff (h : SpaceReplay records w start xs space heapEnd) :
    SameMapped xs space ↔ OthersMapNothing (records.map Record.toSystemCall) xs.length space := by
  constructor
  · intro hmapped i call hi hcall
    have hsame := h.sameSpace (fun i x hx _ => hmapped i x hx) i hi.le
    obtain ⟨r, hr, rfl⟩ : ∃ r, records[i]? = some r ∧ r.toSystemCall = call := by
      simpa using hcall
    have hx : xs[i]? = some xs[i] := List.getElem?_eq_getElem hi
    exact (h.mapped_iff hx hr hsame).1 (hmapped i _ hx)
  · intro hothers
    have hstep : ∀ (i : Nat) (x : Visit), xs[i]? = some x → SameSpace start xs space heapEnd i →
        mappedIn x.exit.mem = (space (i + 1)).mapped := by
      intro i x hx hsame
      obtain ⟨r, hr, hcall, _, _⟩ := h.visit hx
      exact (h.mapped_iff hx hr hsame).2 (hothers i _ (List.getElem?_eq_some_iff.1 hx).1 hcall)
    intro i x hx
    exact hstep i x hx (h.sameSpace hstep i (List.getElem?_eq_some_iff.1 hx).1.le)

end SpaceReplay

/-- However a replay without a delivered `SIGTRAP` ends, the tracee has had mapped after each call what
the recorded process had mapped after it, exactly if none of the calls but mmap, mprotect, brk and munmap
changed what that had mapped. -/
theorem sameMapped_iff_othersMapNothing {records : List Record} (self : Replayer)
    (hself : self.systemCalls = records.map Record.toSystemCall) {w : World} {start : UserState}
    (hattach : w.attach = .stopped start) (huser : UserMapsNothing w) {before : UserState}
    (hfree : SigtrapFree self w before)
    {xs : List Visit} (hxs : xs = visits (endState (self.startReplaying w (Tracee.init before))).history)
    {space : Nat → AddressSpace} {heapEnd : Nat → Word} (hrecorded : RecordedSpaces records space)
    (htracee : TraceeSpaces self.systemCalls xs heapEnd) (harguments : SameArguments records xs)
    (hstart : AddressSpace.mk (mappedIn start.mem) (heapEnd 0) = space 0) :
    SameMapped xs space ↔ OthersMapNothing self.systemCalls xs.length space := by
  have htaken := taken_endState hfree
  rw [← hxs, World.attached, hattach, hself] at htaken
  rw [hself] at htracee ⊢
  exact SpaceReplay.sameMapped_iff ⟨htaken, huser, hrecorded, htracee, harguments, hstart⟩

/-! ### One page more -/

/-- A call on the page at 4096 that returned 8192: an anonymous mmap, with the flags 0x22, or an mremap to
the address in `r8`, with 3 for `MREMAP_MAYMOVE | MREMAP_FIXED`. -/
def pageRecord (num : Word) : Record where
  userspaceRegs
    | .rdi | .rsi | .rdx => 4096
    | .r10 => if num = 9 then 0x22 else 3
    | .r8 => 8192
    | .origRax => num
    | _ => 0
  ret := 8192
  userspaceRegsPtr := 1
  amountOfCopies := 0
  copiesToUser := []

def pageReplayer (num : Word) : Replayer where
  systemCalls := [pageRecord num].map Record.toSystemCall
  stdoutCallback := none

def withPage (base : Word) (mem : ByteMemory) : ByteMemory :=
  fun a => if (a - base).toNat < 4096 then some 0 else mem a

/-- The page at 4096 is mapped. -/
def pageUser : UserState where
  regs := bareUser.regs
  mem := withPage 4096 bareUser.mem

/-- The tracee makes the call, for which its kernel maps the page at 8192. -/
def pageWorld (num : Word) : World where
  attach := .stopped pageUser
  user := fun n u => .syscall { u with
    regs := if n = 0 then (pageRecord num).userspaceRegs else PtRegs.set u.regs .origRax 231 }
  kernel := fun _ u => .returns { regs := PtRegs.set u.regs .rax 8192, mem := withPage 8192 u.mem }

theorem sigtrapFree_pageWorld (num : Word) :
    SigtrapFree (pageReplayer num) (pageWorld num) bareUser := by
  have hw : (pageWorld num).NoSigtrap := fun _ _ _ heq => UserOutcome.noConfusion heq
  exact hw.sigtrapFree _ bareUser

/-- The recorded process, whose heap is at 0. -/
def pageSpace (num : Word) : Nat → AddressSpace
  | 0 => ⟨pages 4096 4096, 0⟩
  | _ + 1 => AddressSpace.after ⟨pages 4096 4096, 0⟩ num.toNat (pageRecord num).userspaceRegs 8192

theorem mappedIn_withPage (base : Word) (mem : ByteMemory) :
    mappedIn (withPage base mem) = mappedIn mem ∪ pages base 4096 := by
  ext a
  show (withPage base mem a).isSome ↔ (mem a).isSome ∨ (a - base).toNat < 4096
  unfold withPage
  by_cases h : (a - base).toNat < 4096
  · rw [if_pos h]
    exact iff_of_true rfl (Or.inr h)
  · rw [if_neg h, or_iff_left h]

section OnePage

variable {num : Word}

/-- There is no other recorded call. -/
theorem recorded_pageReplayer {i : Nat} {call : SystemCall}
    (hcall : (pageReplayer num).systemCalls[i]? = some call) :
    i = 0 ∧ call = (pageRecord num).toSystemCall := by
  cases i with
  | zero =>
      cases hcall
      exact ⟨rfl, rfl⟩
  | succ i =>
      cases hcall

/-- Nothing keeps the replay from returning. -/
theorem returns_pageWorld (num : Word) : ∃ status t,
    (pageReplayer num).startReplaying (pageWorld num) (Tracee.init bareUser) = .ok status t := by
  refine returns_of_agreeing (sigtrapFree_pageWorld num) rfl rfl (fun n u => ⟨_, rfl, ?_⟩)
    (fun call hcall => ?_) ?_
  · match n with
    | 0 =>
        rfl
    | n + 1 =>
        rfl
  · obtain ⟨i, hi⟩ := List.mem_iff_getElem?.1 hcall
    rw [(recorded_pageReplayer hi).2]
    rfl
  · intro n call u hcall _
    obtain ⟨rfl, rfl⟩ := recorded_pageReplayer hcall
    exact ⟨_, rfl, Or.inl rfl⟩

variable {status : Int} {t : Tracee}

/-- The tracee enters the call with the recorded registers, and the page at 8192 is mapped if the call
is run for real. -/
theorem visit_pageWorld
    (hreturns : (pageReplayer num).startReplaying (pageWorld num) (Tracee.init bareUser) = .ok status t) :
    ∃ x, (visits t.history)[0]? = some x ∧ x.entry = ⟨(pageRecord num).userspaceRegs, pageUser.mem⟩ ∧
      (RunsForReal (pageReplayer num).systemCalls 0 (pageRecord num).toSystemCall →
        x.exit.regs .rax = 8192 ∧ mappedIn x.exit.mem = mappedIn x.entry.mem ∪ pages 8192 4096) := by
  have hthrough := (startReplaying_visits (sigtrapFree_pageWorld num)).of_ok hreturns
  obtain ⟨x, hx, henter, heffect⟩ := Through.visit (i := 0) hthrough rfl
  refine ⟨x, hx, ?_, fun hreal => ?_⟩
  · have huser := henter.user
    rw [List.take_zero] at huser
    simpa [pageWorld, World.attached, lastExit, eq_comm] using huser
  · generalize x.exit = v at heffect
    cases heffect with
    | simulated hsimulated _ =>
        exact absurd hreal hsimulated
    | real _ hkernel _ =>
        cases hkernel
        refine ⟨?_, mappedIn_withPage _ _⟩
        exact PtRegs.set_same (x.entry.wrapped (pageRecord num).toSystemCall).regs .rax 8192

theorem recordedSpaces_pageSpace (hbrk : (num.toNat : Int) ≠ brkSysCall) :
    RecordedSpaces [pageRecord num] (pageSpace num) := by
  have hget : ∀ {i : Nat} {r : Record}, [pageRecord num][i]? = some r → i = 0 ∧ r = pageRecord num := by
    intro i r hr
    cases i with
    | zero =>
        cases hr
        exact ⟨rfl, rfl⟩
    | succ i =>
        cases hr
  constructor
  · intro i r hr _
    obtain ⟨rfl, rfl⟩ := hget hr
    rfl
  · intro i r hr _
    obtain ⟨rfl, rfl⟩ := hget hr
    exact after_heapEnd _ hbrk _ _
  · intro i r hr _
    obtain ⟨rfl, rfl⟩ := hget hr
    show 0 ≤ (8192 : Word).toInt
    decide

theorem userMapsNothing_pageWorld (num : Word) : UserMapsNothing (pageWorld num) := by
  intro n u u' huser
  cases huser
  rfl

theorem sameArguments_pageWorld
    (hreturns : (pageReplayer num).startReplaying (pageWorld num) (Tracee.init bareUser) = .ok status t) :
    SameArguments [pageRecord num] (visits t.history) := by
  obtain ⟨x, hx, hentry, _⟩ := visit_pageWorld hreturns
  intro i r y hr hy a _
  cases i with
  | zero =>
      cases hr
      rw [hx] at hy
      cases hy
      rw [hentry]
  | succ i =>
      cases hr

theorem mappedIn_pageUser : mappedIn pageUser.mem = pages 4096 4096 := by
  refine (mappedIn_withPage 4096 bareUser.mem).trans ?_
  rw [Set.union_eq_right]
  rintro a ha
  cases ha

end OnePage

/-- The page at 4096 is mapped at 8192, too, in both processes. -/
theorem sameMapped_iff_othersMapNothing_mmap : ∃ status t,
    (pageReplayer 9).startReplaying (pageWorld 9) (Tracee.init bareUser) = .ok status t ∧
      SameMapped (visits t.history) (pageSpace 9) := by
  obtain ⟨status, t, hreturns⟩ := returns_pageWorld 9
  obtain ⟨x, hx, hentry, hreal⟩ := visit_pageWorld hreturns
  have hruns : RunsForReal (pageReplayer 9).systemCalls 0 (pageRecord 9).toSystemCall :=
    Or.inl (by decide)
  obtain ⟨hrax, hmapped⟩ := hreal hruns
  have htracee : TraceeSpaces (pageReplayer 9).systemCalls (visits t.history) fun _ => 0 := by
    constructor
    · intro i call y hcall hy _
      obtain ⟨rfl, rfl⟩ := recorded_pageReplayer hcall
      rw [hx] at hy
      cases hy
      rw [hmapped, hrax, hentry]
      rfl
    · intro i call y hcall hy _
      obtain ⟨rfl, rfl⟩ := recorded_pageReplayer hcall
      rw [hx] at hy
      cases hy
      rw [hrax]
      rfl
    · intro _ _ _ _ _ _
      rfl
  refine ⟨status, t, hreturns, (sameMapped_iff_othersMapNothing (pageReplayer 9) rfl rfl
    (userMapsNothing_pageWorld 9) (sigtrapFree_pageWorld 9) ?_ (recordedSpaces_pageSpace (by decide)) htracee
      (sameArguments_pageWorld hreturns) ?_).2 ?_⟩
  · rw [hreturns]
    rfl
  · exact AddressSpace.ext mappedIn_pageUser rfl
  · intro i call _ hcall hnum
    obtain ⟨rfl, rfl⟩ := recorded_pageReplayer hcall
    exact absurd (by decide) hnum

/-- An mremap that moved the page at 4096 to 8192 is simulated, and the page stays where it was. -/
theorem not_sameMapped_mremap : ∃ status t,
    (pageReplayer 25).startReplaying (pageWorld 25) (Tracee.init bareUser) = .ok status t ∧
      UserMapsNothing (pageWorld 25) ∧ RecordedSpaces [pageRecord 25] (pageSpace 25) ∧
        TraceeSpaces (pageReplayer 25).systemCalls (visits t.history) (fun _ => 0) ∧
          SameArguments [pageRecord 25] (visits t.history) ∧
            AddressSpace.mk (mappedIn pageUser.mem) 0 = pageSpace 25 0 ∧
              ¬SameMapped (visits t.history) (pageSpace 25) := by
  obtain ⟨status, t, hreturns⟩ := returns_pageWorld 25
  obtain ⟨x, hx, _, _⟩ := visit_pageWorld hreturns
  have hsimulated : ¬RunsForReal (pageReplayer 25).systemCalls 0 (pageRecord 25).toSystemCall := by
    intro hruns
    exact hruns.mem_spaceSysCalls.2 rfl
  have htracee : TraceeSpaces (pageReplayer 25).systemCalls (visits t.history) fun _ => 0 := by
    constructor
    · intro i call y hcall _ hruns
      obtain ⟨rfl, rfl⟩ := recorded_pageReplayer hcall
      exact absurd hruns hsimulated
    · intro i call y hcall _ hmmap
      obtain ⟨rfl, rfl⟩ := recorded_pageReplayer hcall
      exact absurd hmmap (by decide)
    · intro _ _ _ _ _ _
      rfl
  have hstart : AddressSpace.mk (mappedIn pageUser.mem) 0 = pageSpace 25 0 :=
    AddressSpace.ext mappedIn_pageUser rfl
  refine ⟨status, t, hreturns, userMapsNothing_pageWorld 25, recordedSpaces_pageSpace (by decide), htracee,
    sameArguments_pageWorld hreturns, hstart, fun hsame => ?_⟩
  have hreplay : SpaceReplay [pageRecord 25] (pageWorld 25) pageUser (visits t.history) (pageSpace 25)
      fun _ => 0 :=
    ⟨((startReplaying_visits (sigtrapFree_pageWorld 25)).of_ok hreturns).taken,
      userMapsNothing_pageWorld 25, recordedSpaces_pageSpace (by decide), htracee,
      sameArguments_pageWorld hreturns, hstart⟩
  have hstays := hreplay.simulated hx hstart fun hreal => hsimulated ((realAt_iff rfl).1 hreal)
  -- if the sets were the same, the recorded mremap would have left them so
  have hmapped : (pageSpace 25 0).mapped = (pageSpace 25 1).mapped := by
    rw [← hstays]
    exact hsame 0 x hx
  have hpage : (4096 : Word) ∈ (pageSpace 25 1).mapped := by
    rw [← hmapped]
    show ((4096 : Word) - 4096).toNat < pageUp (4096 : Word).toNat
    decide
  rcases hpage with ⟨_, hunmapped⟩ | hmoved
  · exact hunmapped (by show ((4096 : Word) - 4096).toNat < pageUp (4096 : Word).toNat; decide)
  · revert hmoved
    show ¬((4096 : Word) - 8192).toNat < pageUp (4096 : Word).toNat
    decide

end RrPython
