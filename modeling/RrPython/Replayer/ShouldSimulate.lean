import RrPython.Replayer.SystemCall
import RrPython.Replayer.SystemConsts

/-!
# ShouldSimulate — which recorded calls the replayer simulates

`should_simulate.py`.  A descriptor that is mapped must really exist in the tracee, so the decision on
an open looks forward for an mmap before the close, and the decision on a close looks back for an mmap
after the open.
-/

namespace RrPython

inductive ShouldSimulateError
  /-- `CouldNotFindMatchingSysCallException`. -/
  | couldNotFindMatchingSysCall
  /-- `IndexError` of `system_calls[system_call_index]`. -/
  | indexError
  deriving DecidableEq, Repr

namespace ShouldSimulate

def fsOpenSystemCallNumbers : List Int := [openSysCall, openatSysCall, socketSysCall]

def sysCallsNotToSimulate : List Int := [mmapSysCall, mprotectSysCall, brkSysCall, munmapSysCall]

def findFirstSyscallMatching (systemCalls : List SystemCall) (matcherCallback : SystemCall → Bool)
    (raiseIfNotFound : Bool) : Except ShouldSimulateError (Option SystemCall) :=
  match systemCalls.find? matcherCallback with
  | some systemCall => .ok (some systemCall)
  | none => if raiseIfNotFound then .error .couldNotFindMatchingSysCall else .ok none

def isOpenSystemCallForFd (systemCall : SystemCall) (fd : Int) : Bool :=
  fsOpenSystemCallNumbers.contains systemCall.num && systemCall.returnValue == fd

def isCloseSystemCallForFd (systemCall : SystemCall) (fd : Int) : Bool :=
  systemCall.num == closeSysCall && systemCall.registers .rdi == fd

def isMmapSystemCallForFd (systemCall : SystemCall) (fd : Int) : Bool :=
  systemCall.num == mmapSysCall && systemCall.registers .r8 == fd

/-- `system_call is not None and system_call.num == MMAP_SYS_CALL`. -/
def isMmap : Option SystemCall → Bool
  | some systemCall => systemCall.num == mmapSysCall
  | none => false

def fdAppearsInMmapBeforeClose (fd : Int) (systemCalls : List SystemCall) (systemCallIndex : Nat) :
    Except ShouldSimulateError Bool := do
  let systemCall ← findFirstSyscallMatching (systemCalls.drop systemCallIndex)
    (fun s => isCloseSystemCallForFd s fd || isMmapSystemCallForFd s fd) false
  pure (isMmap systemCall)

def mmapAppearsAfterOpenForFd (fd : Int) (systemCalls : List SystemCall) (systemCallIndex : Nat) :
    Except ShouldSimulateError Bool := do
  let systemCall ← findFirstSyscallMatching (systemCalls.take systemCallIndex).reverse
    (fun s => isOpenSystemCallForFd s fd || isMmapSystemCallForFd s fd) false
  pure (isMmap systemCall)

def shouldSimulateOpenSystemCall (systemCalls : List SystemCall) (systemCall : SystemCall)
    (systemCallIndex : Nat) : Except ShouldSimulateError Bool := do
  let appears ← fdAppearsInMmapBeforeClose systemCall.returnValue systemCalls systemCallIndex
  pure !appears

def shouldSimulateCloseSystemCall (systemCalls : List SystemCall) (systemCall : SystemCall)
    (systemCallIndex : Nat) : Except ShouldSimulateError Bool := do
  let appears ← mmapAppearsAfterOpenForFd (systemCall.registers .rdi) systemCalls systemCallIndex
  pure !appears

/-- `HANDLERS.get(num)`. -/
def handler (num : Int) :
    Option (List SystemCall → SystemCall → Nat → Except ShouldSimulateError Bool) :=
  if num = openatSysCall then some shouldSimulateOpenSystemCall
  else if num = openSysCall then some shouldSimulateOpenSystemCall
  else if num = closeSysCall then some shouldSimulateCloseSystemCall
  else if sysCallsNotToSimulate.contains num then some fun _ _ _ => .ok false
  else none

end ShouldSimulate

open ShouldSimulate

def shouldSimulateSystemCall (systemCalls : List SystemCall) (systemCallIndex : Nat) :
    Except ShouldSimulateError Bool :=
  match systemCalls[systemCallIndex]? with
  | none => .error .indexError
  | some systemCall =>
      match handler systemCall.num with
      | some handle => handle systemCalls systemCall systemCallIndex
      | none => .ok true

/-! ## What the decisions mean -/

/-- The recording maps `fd` after the call at `i`, and does not close it in between. -/
def MappedBeforeClose (systemCalls : List SystemCall) (i : Nat) (fd : Int) : Prop :=
  ∃ j call, i < j ∧ systemCalls[j]? = some call ∧ isMmapSystemCallForFd call fd = true ∧
    ∀ k other, i < k → k < j → systemCalls[k]? = some other → isCloseSystemCallForFd other fd = false

/-- The recording has mapped `fd` before the call at `i`, and has not opened it in between. -/
def MappedSinceOpen (systemCalls : List SystemCall) (i : Nat) (fd : Int) : Prop :=
  ∃ j call, j < i ∧ systemCalls[j]? = some call ∧ isMmapSystemCallForFd call fd = true ∧
    ∀ k other, j < k → k < i → systemCalls[k]? = some other → isOpenSystemCallForFd other fd = false

/-- The recorded call at `i` is one that needs to happen in the tracee. -/
def RunsForReal (systemCalls : List SystemCall) (i : Nat) (call : SystemCall) : Prop :=
  call.num ∈ sysCallsNotToSimulate ∨
    ((call.num = openSysCall ∨ call.num = openatSysCall) ∧
      MappedBeforeClose systemCalls i call.returnValue) ∨
    (call.num = closeSysCall ∧ MappedSinceOpen systemCalls i (call.registers .rdi))

namespace ShouldSimulate

/-! ### The scans -/

@[simp] theorem findFirstSyscallMatching_false (systemCalls : List SystemCall)
    (matcher : SystemCall → Bool) :
    findFirstSyscallMatching systemCalls matcher false = .ok (systemCalls.find? matcher) := by
  unfold findFirstSyscallMatching
  cases systemCalls.find? matcher <;> rfl

theorem fdAppearsInMmapBeforeClose_eq (fd : Int) (systemCalls : List SystemCall) (i : Nat) :
    fdAppearsInMmapBeforeClose fd systemCalls i = .ok (isMmap ((systemCalls.drop i).find? fun s =>
      isCloseSystemCallForFd s fd || isMmapSystemCallForFd s fd)) := by
  simp [fdAppearsInMmapBeforeClose, pure, Except.pure, bind, Except.bind]

theorem mmapAppearsAfterOpenForFd_eq (fd : Int) (systemCalls : List SystemCall) (i : Nat) :
    mmapAppearsAfterOpenForFd fd systemCalls i =
      .ok (isMmap ((systemCalls.take i).reverse.find? fun s =>
        isOpenSystemCallForFd s fd || isMmapSystemCallForFd s fd)) := by
  simp [mmapAppearsAfterOpenForFd, pure, Except.pure, bind, Except.bind]

/-- A scan for `stop` or `target` ends at a `target` exactly if one comes before every `stop`. -/
theorem find?_target_iff {α : Type} {stop target : α → Bool}
    (hdisjoint : ∀ a, stop a = true → target a = false) (xs : List α) :
    (∃ a, xs.find? (fun a => stop a || target a) = some a ∧ target a = true) ↔
      ∃ (j : Nat) (a : α), xs[j]? = some a ∧ target a = true ∧
        ∀ (k : Nat) (b : α), k < j → xs[k]? = some b → stop b = false := by
  -- on the list: the scan ends at its head, there with one or the other, or goes on behind it
  induction xs with
  | nil =>
      simp
  | cons a xs ih =>
      cases hstop : stop a with
      | true =>
          -- the scan ends here, and not at a `target`
          have htarget := hdisjoint a hstop
          constructor
          · rintro ⟨b, hfind, hb⟩
            simp only [List.find?_cons, hstop, Bool.true_or, Option.some.injEq] at hfind
            simp [← hfind, htarget] at hb
          · rintro ⟨j, b, hget, hb, hbefore⟩
            cases j with
            | zero =>
                simp only [List.getElem?_cons_zero, Option.some.injEq] at hget
                simp [← hget, htarget] at hb
            | succ j =>
                simp [hbefore 0 a (by omega) rfl] at hstop
      | false =>
          cases htarget : target a with
          | true =>
              constructor
              · intro _
                exact ⟨0, a, rfl, htarget, fun k b hk => absurd hk (by omega)⟩
              · intro _
                exact ⟨a, by simp [htarget], htarget⟩
          | false =>
              -- the scan goes on, and positions count from the next element
              have hskip : (a :: xs).find? (fun a => stop a || target a) =
                  xs.find? (fun a => stop a || target a) := by
                simp [hstop, htarget]
              rw [hskip, ih]
              constructor
              · rintro ⟨j, b, hget, hb, hbefore⟩
                refine ⟨j + 1, b, hget, hb, fun k c hk hc => ?_⟩
                cases k with
                | zero =>
                    simp only [List.getElem?_cons_zero, Option.some.injEq] at hc
                    rw [← hc, hstop]
                | succ k =>
                    exact hbefore k c (by omega) hc
              · rintro ⟨j, b, hget, hb, hbefore⟩
                cases j with
                | zero =>
                    simp only [List.getElem?_cons_zero, Option.some.injEq] at hget
                    simp [← hget, htarget] at hb
                | succ j =>
                    exact ⟨j, b, hget, hb, fun k c hk hc => hbefore (k + 1) c (by omega) hc⟩

theorem not_mmap_of_close {call : SystemCall} {fd : Int} (h : isCloseSystemCallForFd call fd = true)
    (fd' : Int) : isMmapSystemCallForFd call fd' = false := by
  simp only [isCloseSystemCallForFd, Bool.and_eq_true, beq_iff_eq] at h
  simp [isMmapSystemCallForFd, h.1, closeSysCall, mmapSysCall]

theorem not_mmap_of_open {call : SystemCall} {fd : Int} (h : isOpenSystemCallForFd call fd = true)
    (fd' : Int) : isMmapSystemCallForFd call fd' = false := by
  simp only [isOpenSystemCallForFd, Bool.and_eq_true, fsOpenSystemCallNumbers, List.contains_eq_mem,
    decide_eq_true_eq, List.mem_cons, List.not_mem_nil, or_false] at h
  rcases h.1 with hnum | hnum | hnum
  · simp [isMmapSystemCallForFd, hnum, openSysCall, mmapSysCall]
  · simp [isMmapSystemCallForFd, hnum, openatSysCall, mmapSysCall]
  · simp [isMmapSystemCallForFd, hnum, socketSysCall, mmapSysCall]

/-- Among the calls that a scan stops at, the number alone tells the mmaps. -/
theorem isMmap_find? {systemCalls : List SystemCall} {stop : SystemCall → Bool} {fd : Int}
    (hstop : ∀ s, stop s = true → s.num ≠ mmapSysCall) :
    isMmap (systemCalls.find? fun s => stop s || isMmapSystemCallForFd s fd) = true ↔
      ∃ s, systemCalls.find? (fun s => stop s || isMmapSystemCallForFd s fd) = some s ∧
        isMmapSystemCallForFd s fd = true := by
  constructor
  · intro h
    cases hfind : systemCalls.find? fun s => stop s || isMmapSystemCallForFd s fd with
    | none =>
        simp [hfind, isMmap] at h
    | some s =>
        rw [hfind] at h
        have hmatch := List.find?_some hfind
        have hnum : s.num = mmapSysCall := by simpa [isMmap] using h
        cases hs : stop s with
        | true =>
            exact absurd hnum (hstop s hs)
        | false =>
            exact ⟨s, rfl, by simpa [hs] using hmatch⟩
  · rintro ⟨s, hfind, hs⟩
    simp only [isMmapSystemCallForFd, Bool.and_eq_true] at hs
    rw [hfind]
    exact hs.1

/-! ### The decisions -/

theorem fdAppearsInMmapBeforeClose_iff {systemCalls : List SystemCall} {i : Nat} {call : SystemCall}
    (hcall : systemCalls[i]? = some call) (hnum : call.num ≠ mmapSysCall)
    (hclose : call.num ≠ closeSysCall) (fd : Int) :
    fdAppearsInMmapBeforeClose fd systemCalls i = .ok true ↔ MappedBeforeClose systemCalls i fd := by
  have hstop : ∀ s, isCloseSystemCallForFd s fd = true → s.num ≠ mmapSysCall := by
    intro s hs
    simp only [isCloseSystemCallForFd, Bool.and_eq_true, beq_iff_eq] at hs
    simp [hs.1, closeSysCall, mmapSysCall]
  rw [fdAppearsInMmapBeforeClose_eq, Except.ok.injEq, isMmap_find? hstop,
    find?_target_iff fun s hs => not_mmap_of_close hs fd]
  simp only [List.getElem?_drop]
  constructor
  · rintro ⟨j, s, hget, hs, hbefore⟩
    -- the scan starts at the open itself, which is no mmap
    have hj : j ≠ 0 := by
      rintro rfl
      rw [Nat.add_zero, hcall] at hget
      cases hget
      simp only [isMmapSystemCallForFd, Bool.and_eq_true, beq_iff_eq] at hs
      exact hnum hs.1
    refine ⟨i + j, s, by omega, hget, hs, fun k other hk hkj hother => ?_⟩
    have hidx : i + (k - i) = k := by omega
    exact hbefore (k - i) other (by omega) (by rw [hidx]; exact hother)
  · rintro ⟨j, s, hij, hget, hs, hbefore⟩
    have hidx : i + (j - i) = j := by omega
    refine ⟨j - i, s, by rw [hidx]; exact hget, hs, fun k other hk hother => ?_⟩
    cases k with
    | zero =>
        -- nor is the open a close
        rw [Nat.add_zero, hcall] at hother
        cases hother
        simp [isCloseSystemCallForFd, hclose]
    | succ k =>
        exact hbefore (i + (k + 1)) other (by omega) (by omega) hother

theorem mmapAppearsAfterOpenForFd_iff {systemCalls : List SystemCall} {i : Nat}
    (hi : i ≤ systemCalls.length) (fd : Int) :
    mmapAppearsAfterOpenForFd fd systemCalls i = .ok true ↔ MappedSinceOpen systemCalls i fd := by
  have hstop : ∀ s, isOpenSystemCallForFd s fd = true → s.num ≠ mmapSysCall := by
    intro s hs hnum
    have h := not_mmap_of_open hs (s.registers .r8)
    simp [isMmapSystemCallForFd, hnum] at h
  rw [mmapAppearsAfterOpenForFd_eq, Except.ok.injEq, isMmap_find? hstop,
    find?_target_iff fun s hs => not_mmap_of_open hs fd]
  -- position `j` of the reversed prefix is position `i - 1 - j` of the recording
  have hget : ∀ j, j < i → (systemCalls.take i).reverse[j]? = systemCalls[i - 1 - j]? := by
    intro j hj
    have hlen : (systemCalls.take i).length = i := by simpa using hi
    rw [List.getElem?_reverse (by omega), hlen, List.getElem?_take_of_lt (by omega)]
  have hrange : ∀ {j : Nat} {s : SystemCall}, (systemCalls.take i).reverse[j]? = some s → j < i := by
    intro j s h
    have hlt := (List.getElem?_eq_some_iff.1 h).1
    simp only [List.length_reverse, List.length_take] at hlt
    omega
  constructor
  · rintro ⟨j, s, hj, hs, hbefore⟩
    have hlt := hrange hj
    rw [hget j hlt] at hj
    refine ⟨i - 1 - j, s, by omega, hj, hs, fun k other hk hki hother => ?_⟩
    apply hbefore (i - 1 - k) other (by omega)
    have hidx : i - 1 - (i - 1 - k) = k := by omega
    rw [hget _ (by omega), hidx]
    exact hother
  · rintro ⟨j, s, hji, hj, hs, hbefore⟩
    have hidx : i - 1 - (i - 1 - j) = j := by omega
    refine ⟨i - 1 - j, s, by rw [hget _ (by omega), hidx]; exact hj, hs, fun k other hk hother => ?_⟩
    rw [hget k (by omega)] at hother
    exact hbefore (i - 1 - k) other (by omega) (by omega) hother

theorem shouldSimulateOpenSystemCall_cases {systemCalls : List SystemCall} {i : Nat}
    {call : SystemCall} (hcall : systemCalls[i]? = some call) (hnum : call.num ≠ mmapSysCall)
    (hclose : call.num ≠ closeSysCall) :
    (shouldSimulateOpenSystemCall systemCalls call i = .ok true ∧
        ¬MappedBeforeClose systemCalls i call.returnValue) ∨
      (shouldSimulateOpenSystemCall systemCalls call i = .ok false ∧
        MappedBeforeClose systemCalls i call.returnValue) := by
  have hiff := fdAppearsInMmapBeforeClose_iff hcall hnum hclose call.returnValue
  rw [fdAppearsInMmapBeforeClose_eq] at hiff
  simp only [shouldSimulateOpenSystemCall, fdAppearsInMmapBeforeClose_eq, pure, Except.pure, bind,
    Except.bind]
  rw [← hiff]
  generalize isMmap _ = appears
  cases appears with
  | true =>
      exact Or.inr ⟨rfl, rfl⟩
  | false =>
      exact Or.inl ⟨rfl, by simp⟩

theorem shouldSimulateCloseSystemCall_cases {systemCalls : List SystemCall} {i : Nat}
    (hi : i ≤ systemCalls.length) (call : SystemCall) :
    (shouldSimulateCloseSystemCall systemCalls call i = .ok true ∧
        ¬MappedSinceOpen systemCalls i (call.registers .rdi)) ∨
      (shouldSimulateCloseSystemCall systemCalls call i = .ok false ∧
        MappedSinceOpen systemCalls i (call.registers .rdi)) := by
  have hiff := mmapAppearsAfterOpenForFd_iff hi (call.registers .rdi)
  rw [mmapAppearsAfterOpenForFd_eq] at hiff
  simp only [shouldSimulateCloseSystemCall, mmapAppearsAfterOpenForFd_eq, pure, Except.pure, bind,
    Except.bind]
  rw [← hiff]
  generalize isMmap _ = appears
  cases appears with
  | true =>
      exact Or.inr ⟨rfl, rfl⟩
  | false =>
      exact Or.inl ⟨rfl, by simp⟩

theorem handler_open {num : Int} (h : num = openSysCall ∨ num = openatSysCall) :
    handler num = some shouldSimulateOpenSystemCall := by
  rcases h with rfl | rfl <;> rfl

theorem handler_notToSimulate {num : Int} (h : num ∈ sysCallsNotToSimulate) :
    handler num = some fun _ _ _ => .ok false := by
  simp only [sysCallsNotToSimulate, List.mem_cons, List.not_mem_nil, or_false] at h
  rcases h with rfl | rfl | rfl | rfl <;> rfl

theorem handler_none {num : Int} (hopen : ¬(num = openSysCall ∨ num = openatSysCall))
    (hclose : num ≠ closeSysCall) (hnever : num ∉ sysCallsNotToSimulate) : handler num = none := by
  rw [not_or] at hopen
  simp [handler, hopen.1, hopen.2, hclose, hnever]

end ShouldSimulate

open ShouldSimulate

/-- On a call of the recording the decision is always made, and it is against simulating exactly
where the call needs to happen. -/
theorem shouldSimulateSystemCall_cases {systemCalls : List SystemCall} {i : Nat} {call : SystemCall}
    (hcall : systemCalls[i]? = some call) :
    (shouldSimulateSystemCall systemCalls i = .ok true ∧ ¬RunsForReal systemCalls i call) ∨
      (shouldSimulateSystemCall systemCalls i = .ok false ∧ RunsForReal systemCalls i call) := by
  have hi : i ≤ systemCalls.length := (List.getElem?_eq_some_iff.1 hcall).1.le
  simp only [shouldSimulateSystemCall, hcall]
  by_cases hopen : call.num = openSysCall ∨ call.num = openatSysCall
  · -- an open, by either of its numbers
    have hnum : call.num ≠ mmapSysCall ∧ call.num ≠ closeSysCall ∧
        call.num ∉ sysCallsNotToSimulate := by
      rcases hopen with h | h <;> rw [h] <;> decide
    rw [handler_open hopen]
    refine (shouldSimulateOpenSystemCall_cases hcall hnum.1 hnum.2.1).imp ?_ ?_
    · rintro ⟨hsimulate, hnot⟩
      exact ⟨hsimulate, by simp [RunsForReal, hnum.2.1, hnum.2.2, hnot]⟩
    · rintro ⟨hsimulate, hmapped⟩
      exact ⟨hsimulate, Or.inr (Or.inl ⟨hopen, hmapped⟩)⟩
  · by_cases hclose : call.num = closeSysCall
    · have hhandler : handler call.num = some shouldSimulateCloseSystemCall := by
        rw [hclose]
        rfl
      have hnever : call.num ∉ sysCallsNotToSimulate := by
        rw [hclose]
        decide
      rw [hhandler]
      refine (shouldSimulateCloseSystemCall_cases hi call).imp ?_ ?_
      · rintro ⟨hsimulate, hnot⟩
        exact ⟨hsimulate, by simp [RunsForReal, hopen, hnever, hnot]⟩
      · rintro ⟨hsimulate, hmapped⟩
        exact ⟨hsimulate, Or.inr (Or.inr ⟨hclose, hmapped⟩)⟩
    · by_cases hnever : call.num ∈ sysCallsNotToSimulate
      · rw [handler_notToSimulate hnever]
        exact Or.inr ⟨rfl, Or.inl hnever⟩
      · rw [handler_none hopen hclose hnever]
        exact Or.inl ⟨rfl, by simp [RunsForReal, hopen, hclose, hnever]⟩

theorem runsForReal_iff {systemCalls : List SystemCall} {i : Nat} {call : SystemCall}
    (hcall : systemCalls[i]? = some call) :
    RunsForReal systemCalls i call ↔ shouldSimulateSystemCall systemCalls i = .ok false := by
  rcases shouldSimulateSystemCall_cases hcall with ⟨hsimulate, hnot⟩ | ⟨hsimulate, hreal⟩
  · rw [hsimulate]
    exact iff_of_false hnot (by decide)
  · exact iff_of_true hreal hsimulate

end RrPython
