import RrPython.Foundation.LowestFree
import RrPython.Replayer.Visits

/-!
# Descriptors — the file descriptors of the recorded and of the replayed process

An open that is simulated hands out the recorded number without occupying it in the kernel, so the
kernel takes it to be free when an open is run for real.  A simulated close of a descriptor that the
process was started with leaves it open, so the kernel takes its number to be in use.  The two processes
see the same numbers as long as every real open was recorded with a lower number than all simulated ones
that are still open, and with none that has been left open.  A real open above a simulated one is
answered with a number that the tracee already has.
-/

namespace RrPython

open Foundation Creplayer Replayer ShouldSimulate

/-! ## Opening and closing -/

def OpensFile (call : SystemCall) : Prop :=
  call.num = openSysCall ∨ call.num = openatSysCall

/-- The recorded call at `i` opened the descriptor `d`. -/
def Opened (calls : List SystemCall) (i d : Nat) : Prop :=
  ∃ call, calls[i]? = some call ∧ OpensFile call ∧ call.returnValue = d

/-- The recorded call at `i` closed the descriptor `d`. -/
def Closed (calls : List SystemCall) (i d : Nat) : Prop :=
  ∃ call, calls[i]? = some call ∧ call.num = closeSysCall ∧ call.registers .rdi = d

/-- `d` was opened at `j` and has not been closed before `i`. -/
structure HeldFrom (calls : List SystemCall) (j i d : Nat) : Prop where
  lt : j < i
  opened : Opened calls j d
  kept : ∀ k, j < k → k < i → ¬Closed calls k d

/-- The descriptors that the recorded process holds before the call at `i` from opens that the replay
simulates. -/
def simulatedHeld (calls : List SystemCall) (i : Nat) : Set Nat :=
  {d | ∃ j call, calls[j]? = some call ∧ ¬RunsForReal calls j call ∧ HeldFrom calls j i d}

/-- The descriptors in `start` that are still open in the tracee before the call at `i`, although the
recorded process has closed them: the replay has simulated each close. -/
def leftOpen (calls : List SystemCall) (start : Set Nat) (i : Nat) : Set Nat :=
  {d | d ∈ start ∧ (∃ k < i, Closed calls k d) ∧ ∀ k < i, Closed calls k d → ¬RealAt calls k}

/-- The tracee received `d` from the open at `i`. -/
def Received (calls : List SystemCall) (xs : List Visit) (i d : Nat) : Prop :=
  ∃ call x, calls[i]? = some call ∧ xs[i]? = some x ∧ OpensFile call ∧ (x.exit.regs .rax).toInt = d

/-- The tracee gave `d` to the close at `i`. -/
def Released (calls : List SystemCall) (xs : List Visit) (i d : Nat) : Prop :=
  ∃ call x, calls[i]? = some call ∧ xs[i]? = some x ∧ call.num = closeSysCall ∧
    (x.entry.regs .rdi).toNat = d

/-- The tracee receives no descriptor that it has received before and not closed since. -/
def DistinctDescriptors (calls : List SystemCall) (xs : List Visit) : Prop :=
  ∀ i j d, i < j → Received calls xs i d → Received calls xs j d →
    ∃ k, i < k ∧ k < j ∧ Released calls xs k d

/-- An open that is run for real was recorded with a lower number than every simulated one that was
held at the time and is not left open itself. -/
def LowRealOpens (calls : List SystemCall) (start : Set Nat) : Prop :=
  ∀ i call, calls[i]? = some call → OpensFile call → RunsForReal calls i call →
    ∀ d ∈ simulatedHeld calls i, d ∉ leftOpen calls start i → call.returnValue < d

/-- No open that is run for real was recorded with a number that the replay has left open. -/
def ReusesNone (calls : List SystemCall) (start : Set Nat) : Prop :=
  ∀ i call, calls[i]? = some call → OpensFile call → RunsForReal calls i call →
    ∀ d ∈ leftOpen calls start i, call.returnValue ≠ d

/-! ## The two kernels and the tracee -/

/-- The recorded process: `table i` are the descriptors that it has open before the call at `i`.  It
creates none but by open and openat. -/
structure RecordedDescriptors (calls : List SystemCall) (table : Nat → Set Nat) : Prop where
  opens : ∀ i d, Opened calls i d → LowestFree (table i) d
  step : ∀ i < calls.length,
    table (i + 1) = {d | (d ∈ table i ∧ ¬Closed calls i d) ∨ Opened calls i d}
  sockets : ∀ (i : Nat) (call : SystemCall), calls[i]? = some call → call.num = socketSysCall →
    call.returnValue < 0

/-- The tracee: `table i` are the descriptors that are really open before the visit at `i`. -/
structure RealDescriptors (calls : List SystemCall) (xs : List Visit) (table : Nat → Set Nat) :
    Prop where
  opens : ∀ i < xs.length, ∀ call, calls[i]? = some call → OpensFile call → RunsForReal calls i call →
    ∃ d, Received calls xs i d ∧ LowestFree (table i) d
  step : ∀ i < xs.length, table (i + 1) =
    {d | (d ∈ table i ∧ ¬(RealAt calls i ∧ Released calls xs i d)) ∨
      (RealAt calls i ∧ Received calls xs i d)}

/-- The open at `i` gave the tracee the recorded number. -/
def AgreesAt (calls : List SystemCall) (xs : List Visit) (i : Nat) : Prop :=
  ∀ call x, calls[i]? = some call → xs[i]? = some x → OpensFile call →
    (x.exit.regs .rax).toInt = call.returnValue

/-- As long as all opens have given it the recorded numbers, the tracee closes what was closed in the
recording. -/
def ClosesAsRecorded (calls : List SystemCall) (xs : List Visit) : Prop :=
  ∀ i call x, calls[i]? = some call → xs[i]? = some x → call.num = closeSysCall →
    (∀ j < i, AgreesAt calls xs j) → ((x.entry.regs .rdi).toNat : Int) = call.registers .rdi

/-! ## The recorded process -/

section Recorded

variable {calls : List SystemCall} {table : Nat → Set Nat} {i j d : Nat} {call : SystemCall}

theorem HeldFrom.step_iff : HeldFrom calls j (i + 1) d ↔
    (HeldFrom calls j i d ∧ ¬Closed calls i d) ∨ (j = i ∧ Opened calls i d) := by
  constructor
  · intro h
    rcases Nat.lt_or_eq_of_le (Nat.le_of_lt_succ h.lt) with hlt | rfl
    · exact Or.inl ⟨⟨hlt, h.opened, fun k hk hki => h.kept k hk (by omega)⟩, h.kept i hlt (by omega)⟩
    · exact Or.inr ⟨rfl, h.opened⟩
  · rintro (⟨h, hopen⟩ | ⟨rfl, hopened⟩)
    · refine ⟨Nat.lt_succ_of_lt h.lt, h.opened, fun k hk hki => ?_⟩
      rcases Nat.lt_or_eq_of_le (Nat.le_of_lt_succ hki) with hlt | rfl
      · exact h.kept k hk hlt
      · exact hopen
    · exact ⟨by omega, hopened, fun k hk hki => by omega⟩

/-- The recorded process has open what it was started with or opened and has not closed since. -/
theorem RecordedDescriptors.mem_iff (h : RecordedDescriptors calls table) (hi : i ≤ calls.length) :
    d ∈ table i ↔ (d ∈ table 0 ∧ ∀ k < i, ¬Closed calls k d) ∨ ∃ j, HeldFrom calls j i d := by
  induction i with
  | zero =>
      refine ⟨fun hd => Or.inl ⟨hd, fun k hk => absurd hk (by omega)⟩, fun hd => hd.elim And.left ?_⟩
      rintro ⟨j, hj⟩
      exact absurd hj.lt (by omega)
  | succ i ih =>
      have hstep : d ∈ table (i + 1) ↔ (d ∈ table i ∧ ¬Closed calls i d) ∨ Opened calls i d := by
        rw [h.step i (by omega)]
        rfl
      simp only [hstep, ih (by omega), HeldFrom.step_iff, Nat.forall_lt_succ_right]
      constructor
      · rintro (⟨⟨hstart, hkept⟩ | ⟨j, hheld⟩, hopen⟩ | hopened)
        · exact Or.inl ⟨hstart, hkept, hopen⟩
        · exact Or.inr ⟨j, Or.inl ⟨hheld, hopen⟩⟩
        · exact Or.inr ⟨i, Or.inr ⟨rfl, hopened⟩⟩
      · rintro (⟨hstart, hkept, hopen⟩ | ⟨j, ⟨hheld, hopen⟩ | ⟨rfl, hopened⟩⟩)
        · exact Or.inl ⟨Or.inl ⟨hstart, hkept⟩, hopen⟩
        · exact Or.inl ⟨Or.inr ⟨j, hheld⟩, hopen⟩
        · exact Or.inr hopened

theorem mem_simulatedHeld_succ : d ∈ simulatedHeld calls (i + 1) ↔
    (d ∈ simulatedHeld calls i ∧ ¬Closed calls i d) ∨ (¬RealAt calls i ∧ Opened calls i d) := by
  constructor
  · rintro ⟨j, call, hcall, hsimulated, hheld⟩
    rcases HeldFrom.step_iff.1 hheld with ⟨hheld, hopen⟩ | ⟨rfl, hopened⟩
    · exact Or.inl ⟨⟨j, call, hcall, hsimulated, hheld⟩, hopen⟩
    · exact Or.inr ⟨fun hreal => hsimulated ((realAt_iff hcall).1 hreal), hopened⟩
  · rintro (⟨⟨j, call, hcall, hsimulated, hheld⟩, hopen⟩ | ⟨hsimulated, hopened⟩)
    · exact ⟨j, call, hcall, hsimulated, HeldFrom.step_iff.2 (Or.inl ⟨hheld, hopen⟩)⟩
    · obtain ⟨call, hcall, _⟩ := id hopened
      exact ⟨i, call, hcall, fun hreal => hsimulated ⟨call, hcall, hreal⟩,
        HeldFrom.step_iff.2 (Or.inr ⟨rfl, hopened⟩)⟩

/-- A real call takes away what it closes, and what it opens is from no simulated open. -/
theorem simulatedHeld_succ_of_real (hreal : RealAt calls i) :
    simulatedHeld calls (i + 1) = simulatedHeld calls i \ {d | Closed calls i d} := by
  ext d
  rw [mem_simulatedHeld_succ, Set.mem_sdiff]
  exact or_iff_left fun hopened => hopened.1 hreal

theorem simulatedHeld_succ_of_simulated (hsimulated : ¬RealAt calls i) :
    simulatedHeld calls (i + 1) =
      simulatedHeld calls i \ {d | Closed calls i d} ∪ {d | Opened calls i d} := by
  ext d
  rw [mem_simulatedHeld_succ, Set.mem_union, Set.mem_sdiff]
  exact or_congr_right (and_iff_right hsimulated)

theorem mem_leftOpen_succ {start : Set Nat} : d ∈ leftOpen calls start (i + 1) ↔ d ∈ start ∧
    ((∃ k < i, Closed calls k d) ∨ Closed calls i d) ∧
      (∀ k < i, Closed calls k d → ¬RealAt calls k) ∧ (Closed calls i d → ¬RealAt calls i) := by
  simp only [leftOpen, Set.mem_ofPred_eq, Nat.exists_lt_succ_right, Nat.forall_lt_succ_right]

theorem leftOpen_succ_of_real (hreal : RealAt calls i) {start : Set Nat} :
    leftOpen calls start (i + 1) = leftOpen calls start i \ {d | Closed calls i d} := by
  ext d
  rw [mem_leftOpen_succ, Set.mem_sdiff]
  constructor
  · rintro ⟨hstart, hclosed, hnone, hlast⟩
    have hopen : ¬Closed calls i d := fun h => hlast h hreal
    exact ⟨⟨hstart, hclosed.resolve_right hopen, hnone⟩, hopen⟩
  · rintro ⟨⟨hstart, hclosed, hnone⟩, hopen⟩
    exact ⟨hstart, Or.inl hclosed, hnone, fun h => absurd h hopen⟩

theorem RecordedDescriptors.simulatedHeld_subset (h : RecordedDescriptors calls table)
    (hi : i ≤ calls.length) : simulatedHeld calls i ⊆ table i := by
  rintro d ⟨j, _, _, _, hheld⟩
  exact (h.mem_iff hi).2 (Or.inr ⟨j, hheld⟩)

/-- What the process was started with and has not closed is open, and from no open. -/
theorem RecordedDescriptors.mem_of_start (h : RecordedDescriptors calls table) (hi : i ≤ calls.length)
    (hstart : d ∈ table 0) (hkept : ∀ k < i, ¬Closed calls k d) :
    d ∈ table i ∧ d ∉ simulatedHeld calls i := by
  refine ⟨(h.mem_iff hi).2 (Or.inl ⟨hstart, hkept⟩), ?_⟩
  rintro ⟨j, _, _, _, hheld⟩
  have hlt := hheld.lt
  refine (h.opens j d hheld.opened).not_mem ((h.mem_iff (by omega)).2 (Or.inl ⟨hstart, ?_⟩))
  exact fun k hk => hkept k (by omega)

/-- An open is run for real only if its descriptor is mapped before it is closed. -/
theorem RunsForReal.mappedBeforeClose (h : RunsForReal calls i call) (hopens : OpensFile call) :
    MappedBeforeClose calls i call.returnValue := by
  rcases h with hnever | ⟨_, hmapped⟩ | ⟨hclose, _⟩
  · rcases hopens with hnum | hnum <;> rw [hnum] at hnever <;> exact absurd hnever (by decide)
  · exact hmapped
  · rcases hopens with hnum | hnum <;> rw [hnum] at hclose <;> exact absurd hclose (by decide)

/-- A close that is simulated is that of a descriptor from a simulated open, or of one that the process
was started with. -/
theorem RecordedDescriptors.mem_of_simulatedClose (h : RecordedDescriptors calls table)
    (hclosed : Closed calls i d) (hsimulated : ¬RealAt calls i) (hd : d ∈ table i) :
    d ∈ simulatedHeld calls i ∨ (d ∈ table 0 ∧ ∀ k < i, ¬Closed calls k d) := by
  obtain ⟨close, hclose, hnum, hrdi⟩ := id hclosed
  have hi : i ≤ calls.length := (List.getElem?_eq_some_iff.1 hclose).1.le
  rcases (h.mem_iff hi).1 hd with hstart | ⟨j, hheld⟩
  · exact Or.inr hstart
  obtain ⟨call, hcall, hopens, hvalue⟩ := hheld.opened
  refine Or.inl ⟨j, call, hcall, fun hreal => hsimulated ⟨close, hclose, ?_⟩, hheld⟩
  -- had the open been run for real, the mmap that it was made for would come before this close
  obtain ⟨k, mmap, hjk, hmmap, hmatch, hbetween⟩ := hreal.mappedBeforeClose hopens
  rw [hvalue] at hmatch hbetween
  have hki : k < i := by
    by_contra hge
    rcases Nat.lt_or_eq_of_le (not_lt.1 hge) with hlt | rfl
    · have hother := hbetween i close hheld.lt hlt hclose
      simp [isCloseSystemCallForFd, hnum, hrdi] at hother
    · rw [hclose] at hmmap
      cases hmmap
      simp [isMmapSystemCallForFd, hnum, closeSysCall, mmapSysCall] at hmatch
  refine Or.inr (Or.inr ⟨hnum, k, mmap, hki, hmmap, by rwa [hrdi], fun k' other hk' hk'i hother => ?_⟩)
  -- and in between `d` is held, so that nothing else opens it
  by_contra hopen
  simp only [hrdi, isOpenSystemCallForFd, fsOpenSystemCallNumbers, Bool.not_eq_false, Bool.and_eq_true,
    List.contains_eq_mem, List.mem_cons, List.not_mem_nil, or_false, decide_eq_true_eq, beq_iff_eq] at hopen
  obtain ⟨hkind, hsame⟩ := hopen
  rw [← or_assoc] at hkind
  rcases hkind with hfile | hsocket
  · have hheld' : HeldFrom calls j k' d :=
      ⟨by omega, hheld.opened, fun m hm hmk => hheld.kept m hm (by omega)⟩
    refine (h.opens k' d ⟨other, hother, hfile, hsame⟩).not_mem ?_
    exact (h.mem_iff (by omega)).2 (Or.inr ⟨j, hheld'⟩)
  · have hneg := h.sockets k' other hother hsocket
    omega

/-- A simulated close leaves open what was open and from no simulated open. -/
theorem RecordedDescriptors.leftOpen_succ_of_simulated (h : RecordedDescriptors calls table)
    (hi : i ≤ calls.length) (hsimulated : ¬RealAt calls i) :
    leftOpen calls (table 0) (i + 1) =
      leftOpen calls (table 0) i ∪ {d | Closed calls i d} ∩ (table i \ simulatedHeld calls i) := by
  ext d
  rw [mem_leftOpen_succ, Set.mem_union, Set.mem_inter_iff, Set.mem_sdiff]
  constructor
  · rintro ⟨hstart, hclosed, hnone, _⟩
    by_cases hbefore : ∃ k < i, Closed calls k d
    · exact Or.inl ⟨hstart, hbefore, hnone⟩
    · -- the first close of `d`
      refine Or.inr ⟨hclosed.resolve_left hbefore, ?_⟩
      exact h.mem_of_start hi hstart fun k hk hclosed => hbefore ⟨k, hk, hclosed⟩
  · rintro (⟨hstart, hclosed, hnone⟩ | ⟨hclosed, hopen, hnot⟩)
    · exact ⟨hstart, Or.inl hclosed, hnone, fun _ => hsimulated⟩
    · obtain ⟨hstart, hkept⟩ := (h.mem_of_simulatedClose hclosed hsimulated hopen).resolve_left hnot
      exact ⟨hstart, Or.inr hclosed, fun k hk hearlier => absurd hearlier (hkept k hk), fun _ => hsimulated⟩

end Recorded

/-! ## The two processes side by side -/

/-- A replay of a recording, with the descriptor tables of the recorded process and of the tracee. -/
structure DescriptorReplay (calls : List SystemCall) (xs : List Visit) (recorded actual : Nat → Set Nat) :
    Prop where
  recordedTables : RecordedDescriptors calls recorded
  actualTables : RealDescriptors calls xs actual
  start : actual 0 = recorded 0
  closes : ClosesAsRecorded calls xs
  visits : xs.length ≤ calls.length
  simulated : ∀ (i : Nat) (call : SystemCall) (x : Visit), calls[i]? = some call → xs[i]? = some x →
    ¬RunsForReal calls i call → (x.exit.regs .rax).toInt = call.returnValue
  real : ∀ (i : Nat) (call : SystemCall), calls[i]? = some call → OpensFile call →
    RunsForReal calls i call → 0 ≤ call.returnValue

/-- Up to the visit at `i` the two processes have received the same numbers, and the tracee has really
open what the recorded process has, without what was opened by simulation, and what was left open. -/
structure InStep (calls : List SystemCall) (xs : List Visit) (recorded actual : Nat → Set Nat) (i : Nat) :
    Prop where
  agrees : ∀ j < i, AgreesAt calls xs j
  table : actual i = recorded i \ simulatedHeld calls i ∪ leftOpen calls (recorded 0) i

section SideBySide

variable {calls : List SystemCall} {xs : List Visit} {recorded actual : Nat → Set Nat} {i d : Nat}

theorem InStep.released_iff (h : InStep calls xs recorded actual i)
    (hreplay : DescriptorReplay calls xs recorded actual) (hi : i < xs.length) :
    Released calls xs i d ↔ Closed calls i d := by
  have hx : xs[i]? = some xs[i] := List.getElem?_eq_getElem hi
  constructor
  · rintro ⟨call, x, hcall, hx', hnum, hrdi⟩
    have hsame := hreplay.closes i call x hcall hx' hnum h.agrees
    exact ⟨call, hcall, hnum, by rw [← hsame, hrdi]⟩
  · rintro ⟨call, hcall, hnum, hrdi⟩
    have hsame := hreplay.closes i call xs[i] hcall hx hnum h.agrees
    exact ⟨call, xs[i], hcall, hx, hnum, by omega⟩

theorem AgreesAt.received_iff (h : AgreesAt calls xs i) (hi : i < xs.length) :
    Received calls xs i d ↔ Opened calls i d := by
  have hx : xs[i]? = some xs[i] := List.getElem?_eq_getElem hi
  constructor
  · rintro ⟨call, x, hcall, hx', hopens, hrax⟩
    exact ⟨call, hcall, hopens, (h call x hcall hx' hopens).symm.trans hrax⟩
  · rintro ⟨call, hcall, hopens, hvalue⟩
    exact ⟨call, xs[i], hcall, hx, hopens, (h call xs[i] hcall hx hopens).trans hvalue⟩

/-- A visit that agrees has given out the number of its call. -/
theorem AgreesAt.returnValue_eq (h : AgreesAt calls xs i) {call : SystemCall}
    (hcall : calls[i]? = some call) (hreceived : Received calls xs i d) : call.returnValue = d := by
  obtain ⟨call', x, hcall', hx, hopens, hrax⟩ := hreceived
  rw [hcall] at hcall'
  cases hcall'
  exact (h call x hcall hx hopens).symm.trans hrax

/-- One more visit in which the tracee receives the recorded number, if any. -/
theorem InStep.step (h : InStep calls xs recorded actual i)
    (hreplay : DescriptorReplay calls xs recorded actual) (hi : i < xs.length)
    (hagrees : AgreesAt calls xs i) : InStep calls xs recorded actual (i + 1) := by
  have hlen : i < calls.length := hi.trans_le hreplay.visits
  constructor
  · intro j hj
    rcases Nat.lt_or_eq_of_le (Nat.le_of_lt_succ hj) with hlt | rfl
    · exact h.agrees j hlt
    · exact hagrees
  · have hold := hreplay.recordedTables.simulatedHeld_subset hlen.le
    have hnew : ∀ d, Opened calls i d → d ∉ recorded i := fun d hd =>
      (hreplay.recordedTables.opens i d hd).not_mem
    have hrecorded : recorded (i + 1) =
        recorded i \ {d | Closed calls i d} ∪ {d | Opened calls i d} := hreplay.recordedTables.step i hlen
    by_cases hreal : RealAt calls i
    · -- both tables change in the same way, and what is closed is neither hidden nor left open any more
      have hactual : actual (i + 1) = actual i \ {d | Closed calls i d} ∪ {d | Opened calls i d} := by
        rw [hreplay.actualTables.step i hi]
        ext d
        simp [hreal, h.released_iff hreplay hi, hagrees.received_iff hi]
      rw [hactual, hrecorded, simulatedHeld_succ_of_real hreal, leftOpen_succ_of_real hreal, h.table]
      exact drift_step_both hold hnew
    · -- the tracee's table stays, and what is opened or closed is hidden or left open
      have hactual : actual (i + 1) = actual i := by
        rw [hreplay.actualTables.step i hi]
        simp [hreal]
      rw [hactual, hrecorded, simulatedHeld_succ_of_simulated hreal,
        hreplay.recordedTables.leftOpen_succ_of_simulated hlen.le hreal, h.table]
      exact drift_step_one hnew

/-- The kernel of the tracee answers a real open as in the recording, or with a number that a simulated
open has already given to the tracee, or it has to pass over a number that has been left open. -/
theorem InStep.realOpen_cases (h : InStep calls xs recorded actual i)
    (hreplay : DescriptorReplay calls xs recorded actual) (hi : i < xs.length) {call : SystemCall}
    (hcall : calls[i]? = some call) (hopens : OpensFile call) (hreal : RunsForReal calls i call) :
    (AgreesAt calls xs i ∧ (∀ d ∈ leftOpen calls (recorded 0) i, call.returnValue ≠ d) ∧
        ∀ d ∈ simulatedHeld calls i, d ∉ leftOpen calls (recorded 0) i → call.returnValue < d) ∨
      (∃ m ∈ simulatedHeld calls i, m ∉ leftOpen calls (recorded 0) i ∧ Received calls xs i m ∧
        (m : Int) < call.returnValue) ∨
      (¬AgreesAt calls xs i ∧ ∃ d ∈ leftOpen calls (recorded 0) i, call.returnValue = d) := by
  obtain ⟨d, hd⟩ := Int.eq_ofNat_of_zero_le (hreplay.real i call hcall hopens hreal)
  have hlow := hreplay.recordedTables.opens i d ⟨call, hcall, hopens, hd⟩
  obtain ⟨m, hreceived, hanswer⟩ := hreplay.actualTables.opens i hi call hcall hopens hreal
  rw [h.table] at hanswer
  have hsub := hreplay.recordedTables.simulatedHeld_subset (hi.le.trans hreplay.visits)
  -- the kernel takes what simulated opens have given out to be free, and what is left open to be taken
  rcases hlow.drift_cases hanswer hsub with ⟨rfl, hunused, hhigh⟩ | ⟨hhidden, hunused, hlt⟩ | ⟨hne, hused⟩
  · refine Or.inl ⟨?_, ?_, ?_⟩
    · intro other x hother hx _
      obtain ⟨call', x', hcall', hx', _, hrax⟩ := hreceived
      rw [hcall] at hother hcall'
      rw [hx] at hx'
      cases hother
      cases hx'
      exact hrax.trans hd.symm
    · intro d' hd' heq
      have hsame : m = d' := by omega
      exact hunused (hsame ▸ hd')
    · intro d' hd' hnot
      have hgt := hhigh d' hd' hnot
      omega
  · exact Or.inr (Or.inl ⟨m, hhidden, hunused, hreceived, by omega⟩)
  · refine Or.inr (Or.inr ⟨fun hagrees => ?_, d, hused, hd⟩)
    have hvalue := hagrees.returnValue_eq hcall hreceived
    omega

/-- Whatever is no open that is run for real agrees. -/
theorem DescriptorReplay.agreesAt (hreplay : DescriptorReplay calls xs recorded actual)
    (hnot : ∀ call, calls[i]? = some call → OpensFile call → ¬RunsForReal calls i call) :
    AgreesAt calls xs i := by
  intro call x hcall hx hopens
  exact hreplay.simulated i call x hcall hx (hnot call hcall hopens)

/-- If all real opens agree as long as all is in step, it stays so. -/
theorem DescriptorReplay.inStep (hreplay : DescriptorReplay calls xs recorded actual)
    (hstep : ∀ i < xs.length, InStep calls xs recorded actual i → ∀ call, calls[i]? = some call →
      OpensFile call → RunsForReal calls i call → AgreesAt calls xs i) :
    ∀ i ≤ xs.length, InStep calls xs recorded actual i := by
  intro i
  induction i with
  | zero =>
      intro _
      refine ⟨fun j hj => absurd hj (by omega), ?_⟩
      -- before the first call the two tables are the same, and nothing is simulated yet
      have hnone : simulatedHeld calls 0 = ∅ := by
        refine Set.eq_empty_of_forall_notMem fun d hd => ?_
        obtain ⟨j, _, _, _, hheld⟩ := hd
        exact absurd hheld.lt (by omega)
      have hclosed : leftOpen calls (recorded 0) 0 = ∅ := by
        refine Set.eq_empty_of_forall_notMem fun d hd => ?_
        obtain ⟨_, ⟨k, hk, _⟩, _⟩ := hd
        exact absurd hk (by omega)
      rw [hreplay.start, hnone, hclosed, Set.sdiff_empty, Set.union_empty]
  | succ i ih =>
      intro hi
      have h := ih (by omega)
      refine h.step hreplay (by omega) ?_
      by_cases hreal : ∃ call, calls[i]? = some call ∧ OpensFile call ∧ RunsForReal calls i call
      · obtain ⟨call, hcall, hopens, hreal⟩ := hreal
        exact hstep i (by omega) h call hcall hopens hreal
      · exact hreplay.agreesAt fun call hcall hopens hreal' => hreal ⟨call, hcall, hopens, hreal'⟩

/-- Behind the last visit there is nothing to agree on. -/
theorem InStep.agreesThroughout (h : InStep calls xs recorded actual xs.length) (i : Nat) :
    AgreesAt calls xs i := by
  by_cases hi : i < xs.length
  · exact h.agrees i hi
  · intro call x _ hx
    exact absurd (List.getElem?_eq_some_iff.1 hx).1 hi

/-- While all is in step, a descriptor that was given out and not closed since is not given out again. -/
theorem DescriptorReplay.distinct_of_inStep (hreplay : DescriptorReplay calls xs recorded actual)
    (hall : ∀ i ≤ xs.length, InStep calls xs recorded actual i) : DistinctDescriptors calls xs := by
  intro i j d hij hi hj
  have hlt : j < xs.length := by
    obtain ⟨_, _, _, hx, _⟩ := hj
    exact (List.getElem?_eq_some_iff.1 hx).1
  have hagrees := (hall xs.length le_rfl).agrees
  have hopenedAt := ((hagrees i (by omega)).received_iff (by omega)).1 hi
  have hopenedAgain := ((hagrees j hlt).received_iff hlt).1 hj
  by_contra hnone
  -- otherwise the recorded process would still hold `d`
  have hheld : HeldFrom calls i j d := by
    refine ⟨hij, hopenedAt, fun k hik hkj hclosed => hnone ⟨k, hik, hkj, ?_⟩⟩
    exact ((hall k (by omega)).released_iff hreplay (by omega)).2 hclosed
  refine (hreplay.recordedTables.opens j d hopenedAgain).not_mem ?_
  exact (hreplay.recordedTables.mem_iff (hlt.le.trans hreplay.visits)).2 (Or.inr ⟨i, hheld⟩)

/-- A number that a simulated open has given out is given out twice by a real one. -/
theorem InStep.not_distinct (h : InStep calls xs recorded actual i)
    (hreplay : DescriptorReplay calls xs recorded actual) {m : Nat} (hm : m ∈ simulatedHeld calls i)
    (hreceived : Received calls xs i m) : ¬DistinctDescriptors calls xs := by
  intro hdistinct
  have hi : i < xs.length := by
    obtain ⟨_, _, _, hx, _⟩ := hreceived
    exact (List.getElem?_eq_some_iff.1 hx).1
  obtain ⟨j, _, _, _, hheld⟩ := hm
  have hlt := hheld.lt
  -- the tracee has `m` from the simulated open, and what it has closed since is what the recorded
  -- process has closed
  have hfirst := ((h.agrees j hlt).received_iff (by omega)).2 hheld.opened
  obtain ⟨k, hjk, hki, hreleased⟩ := hdistinct j i m hlt hfirst hreceived
  refine hheld.kept k hjk hki ?_
  have hbefore : ∀ j < k, AgreesAt calls xs j := fun j hj => h.agrees j (by omega)
  obtain ⟨call, x, hcall, hx, hnum, hrdi⟩ := hreleased
  exact ⟨call, hcall, hnum, by rw [← hreplay.closes k call x hcall hx hnum hbefore, hrdi]⟩

/-- The tracee receives the recorded number from every open exactly if each real open was recorded low
and with a number that is not left open. -/
theorem DescriptorReplay.agrees_iff (hreplay : DescriptorReplay calls xs recorded actual)
    (hlen : xs.length = calls.length) :
    (∀ i, AgreesAt calls xs i) ↔ LowRealOpens calls (recorded 0) ∧ ReusesNone calls (recorded 0) := by
  constructor
  · intro hagrees
    have hall := hreplay.inStep fun i _ _ _ _ _ _ => hagrees i
    have hreal : ∀ i call, calls[i]? = some call → OpensFile call → RunsForReal calls i call →
        (∀ d ∈ leftOpen calls (recorded 0) i, call.returnValue ≠ d) ∧
          ∀ d ∈ simulatedHeld calls i, d ∉ leftOpen calls (recorded 0) i → call.returnValue < d := by
      intro i call hcall hopens hreal
      have hi : i < xs.length := hlen ▸ (List.getElem?_eq_some_iff.1 hcall).1
      rcases (hall i hi.le).realOpen_cases hreplay hi hcall hopens hreal with
        ⟨_, hcases⟩ | ⟨m, _, _, hreceived, hlt⟩ | ⟨hnot, _⟩
      · exact hcases
      · -- another number than the recorded one
        have hvalue := (hagrees i).returnValue_eq hcall hreceived
        omega
      · exact absurd (hagrees i) hnot
    exact ⟨fun i call hcall hopens hrun => (hreal i call hcall hopens hrun).2,
      fun i call hcall hopens hrun => (hreal i call hcall hopens hrun).1⟩
  · rintro ⟨hlow, hunused⟩
    have hall := hreplay.inStep fun i hi h call hcall hopens hreal => by
      rcases h.realOpen_cases hreplay hi hcall hopens hreal with
        ⟨hagrees, _⟩ | ⟨m, hm, hnot, _, hlt⟩ | ⟨_, d, hd, hvalue⟩
      · exact hagrees
      · have hhigh := hlow i call hcall hopens hreal m hm hnot
        omega
      · exact absurd hvalue (hunused i call hcall hopens hreal d hd)
    exact (hall xs.length le_rfl).agreesThroughout

/-- Where no number that is left open is due, a real open above a simulated one is the only way to
receive a number twice. -/
theorem DescriptorReplay.distinct_iff (hreplay : DescriptorReplay calls xs recorded actual)
    (hlen : xs.length = calls.length) (hunused : ReusesNone calls (recorded 0)) :
    DistinctDescriptors calls xs ↔ LowRealOpens calls (recorded 0) := by
  constructor
  · intro hdistinct
    -- a real open that is answered otherwise is not distinct, so all visits are in step
    have hall := hreplay.inStep fun i hi h call hcall hopens hreal => by
      rcases h.realOpen_cases hreplay hi hcall hopens hreal with
        ⟨hagrees, _⟩ | ⟨m, hm, _, hreceived, _⟩ | ⟨_, d, hd, hvalue⟩
      · exact hagrees
      · exact absurd hdistinct (h.not_distinct hreplay hm hreceived)
      · exact absurd hvalue (hunused i call hcall hopens hreal d hd)
    exact ((hreplay.agrees_iff hlen).1 (hall xs.length le_rfl).agreesThroughout).1
  · intro hlow
    have hagrees := (hreplay.agrees_iff hlen).2 ⟨hlow, hunused⟩
    exact hreplay.distinct_of_inStep (hreplay.inStep fun i _ _ _ _ _ _ => hagrees i)

end SideBySide

/-! ## Every replay that returns -/

/-- Let the recorded process and the tracee start with the same descriptors, with kernels that hand out
the lowest free number, and let no `SIGTRAP` be delivered.  In a replay that returns, every open gives the
tracee the recorded number exactly if each real open was recorded with a lower number than the simulated
ones that were held at the time, and with none that the replay has left open.  It receives no descriptor
twice without closing it in between then, and, where no number left open is due, only then. -/
theorem distinctDescriptors_iff_lowRealOpens {records : List Record} {self : Replayer}
    (hself : self.systemCalls = records.map Record.toSystemCall) {w : World} {before : UserState}
    (hfree : SigtrapFree self w before) {status : Int} {t : Tracee}
    (hreturns : self.startReplaying w (Tracee.init before) = .ok status t)
    {recorded actual : Nat → Set Nat} (hrecorded : RecordedDescriptors self.systemCalls recorded)
    (hactual : RealDescriptors self.systemCalls (visits t.history) actual)
    (hstart : actual 0 = recorded 0) (hcloses : ClosesAsRecorded self.systemCalls (visits t.history)) :
    ((∀ i, AgreesAt self.systemCalls (visits t.history) i) ↔
        LowRealOpens self.systemCalls (recorded 0) ∧ ReusesNone self.systemCalls (recorded 0)) ∧
      (ReusesNone self.systemCalls (recorded 0) →
        (DistinctDescriptors self.systemCalls (visits t.history) ↔
          LowRealOpens self.systemCalls (recorded 0))) := by
  have hthrough := (startReplaying_visits hfree).of_ok hreturns
  have hrecord : ∀ {i : Nat} {call : SystemCall}, self.systemCalls[i]? = some call →
      ∃ r : Record, r.toSystemCall = call := by
    intro i call hcall
    have hmem := List.mem_of_getElem? hcall
    rw [hself] at hmem
    obtain ⟨r, _, hr⟩ := List.mem_map.1 hmem
    exact ⟨r, hr⟩
  suffices hreplay : DescriptorReplay self.systemCalls (visits t.history) recorded actual from
    ⟨hreplay.agrees_iff hthrough.length, hreplay.distinct_iff hthrough.length⟩
  refine ⟨hrecorded, hactual, hstart, hcloses, hthrough.length.le, ?_, ?_⟩
  · -- a simulated call leaves what was recorded, which is the value of a word
    intro i call x hcall hx hsimulated
    obtain ⟨y, hy, _, heffect⟩ := hthrough.visit hcall
    rw [hx] at hy
    cases hy
    obtain ⟨r, rfl⟩ := hrecord hcall
    generalize x.exit = v at heffect
    cases heffect with
    | simulated _ _ =>
        rw [simulatedUser_rax]
        show (BitVec.ofInt 64 r.ret.toInt).toInt = r.ret.toInt
        rw [BitVec.ofInt_toInt]
    | real hreal _ _ =>
        exact absurd hreal hsimulated
  · -- the descriptor of a real open is that of an mmap, so it is a register's
    intro i call hcall hopens hreal
    obtain ⟨k, mmap, _, hmmap, hmatch, _⟩ := hreal.mappedBeforeClose hopens
    obtain ⟨r, rfl⟩ := hrecord hmmap
    simp only [isMmapSystemCallForFd, Bool.and_eq_true, beq_iff_eq] at hmatch
    rw [← hmatch.2]
    exact Int.natCast_nonneg _

/-! ### Two opens and an mmap -/

def openatRecord (ret : Word) : Record where
  userspaceRegs := PtRegs.set (fun _ => 0) .origRax 257
  ret
  userspaceRegsPtr := 1
  amountOfCopies := 0
  copiesToUser := []

def mmapRecord (fd : Word) : Record where
  userspaceRegs := PtRegs.set (PtRegs.set (fun _ => 0) .origRax 9) .r8 fd
  ret := 4096
  userspaceRegsPtr := 1
  amountOfCopies := 0
  copiesToUser := []

/-- Two opens, which returned 3 and 4, and an mmap of `fd`. -/
def twoOpens (fd : Word) : Replayer where
  systemCalls := [openatRecord 3, openatRecord 4, mmapRecord fd].map Record.toSystemCall
  stdoutCallback := none

/-- The tracee makes the same calls, and its kernel takes 3 to be free. -/
def twoOpensWorld : World where
  attach := .stopped bareUser
  user := fun n u => .syscall { u with
    regs := PtRegs.set u.regs .origRax (if n < 4 then 257 else if n = 4 then 9 else 231) }
  kernel := fun n u => .returns { u with regs := PtRegs.set u.regs .rax (if n = 5 then 4096 else 3) }

theorem sigtrapFree_twoOpens (fd : Word) : SigtrapFree (twoOpens fd) twoOpensWorld bareUser := by
  have hw : twoOpensWorld.NoSigtrap := fun _ _ _ heq => UserOutcome.noConfusion heq
  exact hw.sigtrapFree _ bareUser

theorem opened_twoOpens {fd : Word} {i d : Nat} :
    Opened (twoOpens fd).systemCalls i d ↔ (i = 0 ∧ d = 3) ∨ (i = 1 ∧ d = 4) := by
  constructor
  · rintro ⟨call, hcall, hopens, hvalue⟩
    match i, hcall with
    | 0, hcall =>
        cases hcall
        have hthree : (3 : Int) = d := hvalue
        exact Or.inl ⟨rfl, by omega⟩
    | 1, hcall =>
        cases hcall
        have hfour : (4 : Int) = d := hvalue
        exact Or.inr ⟨rfl, by omega⟩
    | 2, hcall =>
        cases hcall
        have hnum : (Record.toSystemCall (mmapRecord fd)).num = 9 := rfl
        rw [OpensFile, hnum] at hopens
        exact absurd hopens (by decide)
  · rintro (⟨rfl, rfl⟩ | ⟨rfl, rfl⟩)
    · exact ⟨_, rfl, Or.inr rfl, rfl⟩
    · exact ⟨_, rfl, Or.inr rfl, rfl⟩

theorem num_twoOpens {fd : Word} {i : Nat} {call : SystemCall}
    (hcall : (twoOpens fd).systemCalls[i]? = some call) :
    (call.num = 257 ∨ call.num = 9) ∧ call.memoryCopies = [] := by
  have hmem := List.mem_of_getElem? hcall
  simp only [twoOpens, List.map_cons, List.map_nil, List.mem_cons, List.not_mem_nil, or_false] at hmem
  rcases hmem with rfl | rfl | rfl
  · exact ⟨Or.inl rfl, rfl⟩
  · exact ⟨Or.inl rfl, rfl⟩
  · exact ⟨Or.inr rfl, rfl⟩

theorem not_close_twoOpens {fd : Word} {i : Nat} {call : SystemCall}
    (hcall : (twoOpens fd).systemCalls[i]? = some call) : call.num ≠ closeSysCall := by
  rcases (num_twoOpens hcall).1 with h | h <;> rw [h] <;> decide

theorem not_closed_twoOpens {fd : Word} {i d : Nat} : ¬Closed (twoOpens fd).systemCalls i d := by
  rintro ⟨call, hcall, hclose, _⟩
  exact not_close_twoOpens hcall hclose

theorem lowestFree_below (n : Nat) : LowestFree {d | d < n} n :=
  ⟨fun h => lt_irrefl n h, fun _ hd => not_lt.1 hd⟩

theorem recordedDescriptors_twoOpens (fd : Word) :
    RecordedDescriptors (twoOpens fd).systemCalls fun i => {d | d < 3 + min i 2} := by
  constructor
  · intro i d hopened
    rcases opened_twoOpens.1 hopened with ⟨rfl, rfl⟩ | ⟨rfl, rfl⟩
    · exact lowestFree_below 3
    · exact lowestFree_below 4
  · intro i hi
    have hi' : i < 3 := hi
    ext d
    simp only [Set.mem_ofPred_eq, opened_twoOpens, not_closed_twoOpens, not_false_eq_true, and_true]
    omega
  · intro i call hcall hsocket
    rcases (num_twoOpens hcall).1 with h | h <;> rw [h] at hsocket <;>
      exact absurd hsocket (by decide)

/-- Nothing keeps the replay from returning. -/
theorem returns_twoOpens (fd : Word) : ∃ status t,
    (twoOpens fd).startReplaying twoOpensWorld (Tracee.init bareUser) = .ok status t := by
  refine returns_of_agreeing (sigtrapFree_twoOpens fd) rfl rfl (fun n u => ⟨_, rfl, ?_⟩)
    (fun call hcall => ?_) ?_
  · match n with
    | 0 =>
        rfl
    | 1 =>
        rfl
    | 2 =>
        rfl
    | n + 3 =>
        -- behind the recorded calls the tracee comes to `exit_group` only
        have hlater : ¬2 * (n + 3) < 4 ∧ ¬2 * (n + 3) = 4 := by omega
        rw [if_neg hlater.1, if_neg hlater.2]
        rfl
  · obtain ⟨i, hi⟩ := List.mem_iff_getElem?.1 hcall
    exact (num_twoOpens hi).2
  · intro n call u hcall _
    refine ⟨_, rfl, Or.inr ?_⟩
    rcases (num_twoOpens hcall).1 with h | h <;> rw [h] <;> decide

theorem opensFile_twoOpens {fd : Word} {i : Nat} {call : SystemCall}
    (hcall : (twoOpens fd).systemCalls[i]? = some call) (hopens : OpensFile call) :
    i < 2 ∧ call.returnValue = 3 + i := by
  match i, hcall with
  | 0, hcall =>
      cases hcall
      exact ⟨by omega, rfl⟩
  | 1, hcall =>
      cases hcall
      exact ⟨by omega, rfl⟩
  | 2, hcall =>
      cases hcall
      have hnum : (Record.toSystemCall (mmapRecord fd)).num = 9 := rfl
      rw [OpensFile, hnum] at hopens
      exact absurd hopens (by decide)

section TwoOpens

variable {fd : Word} {status : Int} {t : Tracee} {i d : Nat}

/-- An open that is run for real leaves 3, and a simulated one the recorded number. -/
theorem rax_twoOpens
    (hreturns : (twoOpens fd).startReplaying twoOpensWorld (Tracee.init bareUser) = .ok status t)
    {call : SystemCall} {x : Visit} (hcall : (twoOpens fd).systemCalls[i]? = some call)
    (hx : (visits t.history)[i]? = some x) (hopens : OpensFile call) :
    (RealAt (twoOpens fd).systemCalls i ∧ (x.exit.regs .rax).toInt = 3) ∨
      (¬RealAt (twoOpens fd).systemCalls i ∧ (x.exit.regs .rax).toInt = 3 + i) := by
  have hthrough := (startReplaying_visits (sigtrapFree_twoOpens fd)).of_ok hreturns
  obtain ⟨hi, hvalue⟩ := opensFile_twoOpens hcall hopens
  obtain ⟨y, hy, _, heffect⟩ := hthrough.visit hcall
  rw [hx] at hy
  cases hy
  generalize x.exit = v at heffect
  cases heffect with
  | simulated hsimulated _ =>
      refine Or.inr ⟨fun hreal => hsimulated ((realAt_iff hcall).1 hreal), ?_⟩
      rw [simulatedUser_rax, hvalue]
      match i, hi with
      | 0, _ =>
          rfl
      | 1, _ =>
          rfl
  | @real v hreal hkernel _ =>
      refine Or.inl ⟨⟨call, hcall, hreal⟩, ?_⟩
      simp only [twoOpensWorld, KernelOutcome.returns.injEq] at hkernel
      subst hkernel
      -- 5 is the clock in the mmap
      have hthree : ¬2 * i + 1 = 5 := by omega
      show (PtRegs.set (x.entry.wrapped call).regs .rax (if 2 * i + 1 = 5 then 4096 else 3) .rax).toInt = 3
      rw [PtRegs.set_same, if_neg hthree]
      rfl

/-- The tracee receives 3 from an open that is run for real, and else the recorded number. -/
theorem received_twoOpens
    (hreturns : (twoOpens fd).startReplaying twoOpensWorld (Tracee.init bareUser) = .ok status t) :
    Received (twoOpens fd).systemCalls (visits t.history) i d ↔
      i < 2 ∧ ((RealAt (twoOpens fd).systemCalls i ∧ d = 3) ∨
        (¬RealAt (twoOpens fd).systemCalls i ∧ d = 3 + i)) := by
  constructor
  · rintro ⟨call, x, hcall, hx, hopens, hd⟩
    have hcases := rax_twoOpens hreturns hcall hx hopens
    rw [hd] at hcases
    refine ⟨(opensFile_twoOpens hcall hopens).1, hcases.imp ?_ ?_⟩
    · exact fun h => ⟨h.1, by have := h.2; omega⟩
    · exact fun h => ⟨h.1, by have := h.2; omega⟩
  · rintro ⟨hi, hcases⟩
    obtain ⟨call, hcall, hopens, _⟩ : Opened (twoOpens fd).systemCalls i (3 + i) :=
      opened_twoOpens.2 (by omega)
    obtain ⟨x, hx, _⟩ := ((startReplaying_visits (sigtrapFree_twoOpens fd)).of_ok hreturns).visit hcall
    refine ⟨call, x, hcall, hx, hopens, ?_⟩
    rcases rax_twoOpens hreturns hcall hx hopens with ⟨hreal, hvalue⟩ | ⟨hsimulated, hvalue⟩
    · rcases hcases with ⟨_, rfl⟩ | ⟨hnot, _⟩
      · exact hvalue
      · exact absurd hreal hnot
    · rcases hcases with ⟨hreal, _⟩ | ⟨_, rfl⟩
      · exact absurd hreal hsimulated
      · rw [hvalue, Nat.cast_add]
        rfl

/-- The descriptors that are really open, below the number that comes next. -/
theorem realDescriptors_twoOpens
    (hreturns : (twoOpens fd).startReplaying twoOpensWorld (Tracee.init bareUser) = .ok status t)
    (next : Nat → Nat)
    (hreal : ∀ i < 2, RealAt (twoOpens fd).systemCalls i → next i = 3 ∧ next (i + 1) = 4)
    (hother : ∀ i, i = 2 ∨ ¬RealAt (twoOpens fd).systemCalls i → next (i + 1) = next i) :
    RealDescriptors (twoOpens fd).systemCalls (visits t.history) fun i => {d | d < next i} := by
  have hthrough := (startReplaying_visits (sigtrapFree_twoOpens fd)).of_ok hreturns
  constructor
  · intro i hi call hcall hopens hrun
    obtain ⟨hlt, _⟩ := opensFile_twoOpens hcall hopens
    have hthree := (hreal i hlt ⟨call, hcall, hrun⟩).1
    refine ⟨3, (received_twoOpens hreturns).2 ⟨hlt, Or.inl ⟨⟨call, hcall, hrun⟩, rfl⟩⟩, ?_⟩
    rw [hthree]
    exact lowestFree_below 3
  · intro i hi
    have hlen : i < 3 := hi.trans_le hthrough.length.le
    have hreleased : ∀ d, ¬Released (twoOpens fd).systemCalls (visits t.history) i d := by
      rintro d ⟨call, _, hcall, _, hclose, _⟩
      exact not_close_twoOpens hcall hclose
    ext d
    simp only [Set.mem_ofPred_eq, hreleased, and_false, not_false_eq_true, and_true,
      received_twoOpens hreturns]
    by_cases hrun : i < 2 ∧ RealAt (twoOpens fd).systemCalls i
    · have hnext := hreal i hrun.1 hrun.2
      simp only [hrun.1, hrun.2, hnext.1, hnext.2, true_and, not_true_eq_false, false_and, or_false]
      omega
    · have hsame : i = 2 ∨ ¬RealAt (twoOpens fd).systemCalls i := by
        by_cases hlt : i < 2
        · exact Or.inr fun h => hrun ⟨hlt, h⟩
        · exact Or.inl (by omega)
      rw [hother i hsame]
      constructor
      · exact Or.inl
      · rintro (hd | ⟨hat, hlt, _⟩)
        · exact hd
        · exact absurd ⟨hlt, hat⟩ hrun

theorem closesAsRecorded_twoOpens (xs : List Visit) :
    ClosesAsRecorded (twoOpens fd).systemCalls xs := by
  intro i call x hcall _ hclose
  exact absurd hclose (not_close_twoOpens hcall)

theorem not_realAt_twoOpens
    (h : shouldSimulateSystemCall (twoOpens fd).systemCalls i = .ok true) :
    ¬RealAt (twoOpens fd).systemCalls i := by
  rintro ⟨call, hcall, hreal⟩
  rw [(runsForReal_iff hcall).1 hreal] at h
  cases h

end TwoOpens

/-- The first of the two files is mapped, so the first open is run for real. -/
theorem distinctDescriptors_iff_lowRealOpens_firstMapped : ∃ status t,
    (twoOpens 3).startReplaying twoOpensWorld (Tracee.init bareUser) = .ok status t ∧
      (∀ i, AgreesAt (twoOpens 3).systemCalls (visits t.history) i) ∧
        DistinctDescriptors (twoOpens 3).systemCalls (visits t.history) := by
  obtain ⟨status, t, hreturns⟩ := returns_twoOpens 3
  have hfirst : RealAt (twoOpens 3).systemCalls 0 := ⟨_, rfl, (runsForReal_iff rfl).2 rfl⟩
  have hsecond : ¬RealAt (twoOpens 3).systemCalls 1 := not_realAt_twoOpens rfl
  have hactual : RealDescriptors (twoOpens 3).systemCalls (visits t.history)
      fun i => {d | d < if i = 0 then 3 else 4} := by
    refine realDescriptors_twoOpens hreturns (fun i => if i = 0 then 3 else 4) ?_ ?_
    · intro i hi hat
      match i, hi with
      | 0, _ =>
          exact ⟨rfl, rfl⟩
      | 1, _ =>
          exact absurd hat hsecond
    · intro i hi
      cases i with
      | zero =>
          exact absurd hfirst (hi.resolve_left (by omega))
      | succ i =>
          rfl
  have hlow : LowRealOpens (twoOpens 3).systemCalls {d | d < 3 + min 0 2} := by
    -- when the first open is made nothing is held, and the second one is simulated
    intro i call hcall hopens hreal d hd
    obtain ⟨j, _, _, _, hheld⟩ := hd
    have hlt := hheld.lt
    have hi := (opensFile_twoOpens hcall hopens).1
    obtain rfl : i = 1 := by omega
    exact absurd ⟨call, hcall, hreal⟩ hsecond
  have hunused : ReusesNone (twoOpens 3).systemCalls {d | d < 3 + min 0 2} := by
    -- nothing is closed, so nothing is left open
    intro i call _ _ _ d hd
    obtain ⟨_, ⟨k, _, hclosed⟩, _⟩ := hd
    exact absurd hclosed not_closed_twoOpens
  obtain ⟨hagrees, hdistinct⟩ := distinctDescriptors_iff_lowRealOpens rfl (sigtrapFree_twoOpens 3) hreturns
    (recordedDescriptors_twoOpens 3) hactual rfl (closesAsRecorded_twoOpens _)
  exact ⟨status, t, hreturns, hagrees.2 ⟨hlow, hunused⟩, (hdistinct hunused).2 hlow⟩

/-- The second of the two files is mapped: the tracee receives 3 from both opens. -/
theorem not_distinctDescriptors_secondMapped : ∃ status t recorded actual,
    (twoOpens 4).startReplaying twoOpensWorld (Tracee.init bareUser) = .ok status t ∧
      RecordedDescriptors (twoOpens 4).systemCalls recorded ∧
        RealDescriptors (twoOpens 4).systemCalls (visits t.history) actual ∧ actual 0 = recorded 0 ∧
          ClosesAsRecorded (twoOpens 4).systemCalls (visits t.history) ∧
            ¬DistinctDescriptors (twoOpens 4).systemCalls (visits t.history) := by
  obtain ⟨status, t, hreturns⟩ := returns_twoOpens 4
  have hfirst : ¬RealAt (twoOpens 4).systemCalls 0 := not_realAt_twoOpens rfl
  have hsecond : RealAt (twoOpens 4).systemCalls 1 := ⟨_, rfl, (runsForReal_iff rfl).2 rfl⟩
  refine ⟨status, t, fun i => {d | d < 3 + min i 2}, fun i => {d | d < if i ≤ 1 then 3 else 4}, hreturns,
    recordedDescriptors_twoOpens 4, ?_, rfl, closesAsRecorded_twoOpens _, fun hdistinct => ?_⟩
  · refine realDescriptors_twoOpens hreturns (fun i => if i ≤ 1 then 3 else 4) ?_ ?_
    · intro i hi hat
      match i, hi with
      | 0, _ =>
          exact absurd hat hfirst
      | 1, _ =>
          exact ⟨rfl, rfl⟩
    · intro i hi
      match i, hi with
      | 0, _ =>
          rfl
      | 1, hi =>
          exact absurd hsecond (hi.resolve_left (by omega))
      | i + 2, _ =>
          rfl
  · have hthree : Received (twoOpens 4).systemCalls (visits t.history) 0 3 :=
      (received_twoOpens hreturns).2 ⟨by omega, Or.inr ⟨hfirst, rfl⟩⟩
    have hagain : Received (twoOpens 4).systemCalls (visits t.history) 1 3 :=
      (received_twoOpens hreturns).2 ⟨by omega, Or.inl ⟨hsecond, rfl⟩⟩
    obtain ⟨k, hk, hk', _⟩ := hdistinct 0 1 3 (by omega) hthree hagain
    omega

end RrPython
