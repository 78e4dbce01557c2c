import RrPython.Replayer.ShouldSimulate

/-!
# Sessions — the decisions on one descriptor from its open to its close

A session of a descriptor starts behind the open that returned it and goes up to the first close of
it.  The open looks forward into the session, the close looks back through it, and both ask the same
question of it: is the descriptor mapped?
-/

namespace RrPython

open ShouldSimulate

/-- The call at `k` is in the session of `fd` that starts behind the call at `i`: no close of `fd` comes
between them.  The close that ends the session is in it. -/
def InSession (systemCalls : List SystemCall) (i : Nat) (fd : Int) (k : Nat) : Prop :=
  i < k ∧ k < systemCalls.length ∧
    ∀ m call, i < m → m < k → systemCalls[m]? = some call →
      ¬(call.num = closeSysCall ∧ call.registers .rdi = fd)

/-- The session contains an mmap of the descriptor. -/
def SessionMaps (systemCalls : List SystemCall) (i : Nat) (fd : Int) : Prop :=
  ∃ k call, InSession systemCalls i fd k ∧ systemCalls[k]? = some call ∧
    call.num = mmapSysCall ∧ call.registers .r8 = fd

/-- An open, openat or socket of the session returned the descriptor again. -/
def SessionReopens (systemCalls : List SystemCall) (i : Nat) (fd : Int) : Prop :=
  ∃ k call, InSession systemCalls i fd k ∧ systemCalls[k]? = some call ∧
    (call.num = openSysCall ∨ call.num = openatSysCall ∨ call.num = socketSysCall) ∧
    call.returnValue = fd

/-! ## The calls that the scans match -/

theorem isMmapSystemCallForFd_iff {call : SystemCall} {fd : Int} :
    isMmapSystemCallForFd call fd = true ↔ call.num = mmapSysCall ∧ call.registers .r8 = fd := by
  simp [isMmapSystemCallForFd]

theorem isCloseSystemCallForFd_eq_false {call : SystemCall} {fd : Int} :
    isCloseSystemCallForFd call fd = false ↔
      ¬(call.num = closeSysCall ∧ call.registers .rdi = fd) := by
  simp [isCloseSystemCallForFd]

theorem isOpenSystemCallForFd_iff {call : SystemCall} {fd : Int} :
    isOpenSystemCallForFd call fd = true ↔
      (call.num = openSysCall ∨ call.num = openatSysCall ∨ call.num = socketSysCall) ∧
        call.returnValue = fd := by
  simp [isOpenSystemCallForFd, fsOpenSystemCallNumbers]

/-! ## What each end of a session sees -/

/-- The open looks at its whole session. -/
theorem mappedBeforeClose_iff_sessionMaps (systemCalls : List SystemCall) (i : Nat) (fd : Int) :
    MappedBeforeClose systemCalls i fd ↔ SessionMaps systemCalls i fd := by
  constructor
  · rintro ⟨k, call, hik, hget, hmmap, hbefore⟩
    refine ⟨k, call, ⟨hik, (List.getElem?_eq_some_iff.1 hget).1, ?_⟩, hget,
      isMmapSystemCallForFd_iff.1 hmmap⟩
    intro m other him hmk hother
    exact isCloseSystemCallForFd_eq_false.1 (hbefore m other him hmk hother)
  · rintro ⟨k, call, ⟨hik, _, hbefore⟩, hget, hmmap⟩
    refine ⟨k, call, hik, hget, isMmapSystemCallForFd_iff.2 hmmap, ?_⟩
    intro m other him hmk hother
    exact isCloseSystemCallForFd_eq_false.2 (hbefore m other him hmk hother)

/-- The close does not look past the open: whatever it finds is in the session. -/
theorem mappedSinceOpen_iff_sessionMaps {systemCalls : List SystemCall} {i j : Nat}
    {call closing : SystemCall} (hcall : systemCalls[i]? = some call)
    (hopen : isOpenSystemCallForFd call call.returnValue = true)
    (hj : InSession systemCalls i call.returnValue j) (hclosing : systemCalls[j]? = some closing)
    (hclose : closing.num = closeSysCall ∧ closing.registers .rdi = call.returnValue)
    (hnot : ¬SessionReopens systemCalls i call.returnValue) :
    MappedSinceOpen systemCalls j call.returnValue ↔
      SessionMaps systemCalls i call.returnValue := by
  obtain ⟨hij, hjlen, hnone⟩ := hj
  constructor
  · rintro ⟨k, other, hkj, hget, hmmap, hbetween⟩
    have hne : k ≠ i := by
      rintro rfl
      cases hcall.symm.trans hget
      simp [not_mmap_of_open hopen] at hmmap
    have hik : i < k := by
      by_contra hle
      have hscanned := hbetween i call (by omega) hij hcall
      rw [hopen] at hscanned
      cases hscanned
    exact ⟨k, other, ⟨hik, by omega, fun m c him hmk => hnone m c him (by omega)⟩, hget,
      isMmapSystemCallForFd_iff.1 hmmap⟩
  · rintro ⟨k, other, ⟨hik, _, hbefore⟩, hget, hmmap⟩
    have hne : k ≠ j := by
      rintro rfl
      cases hclosing.symm.trans hget
      exact absurd (hclose.1.symm.trans hmmap.1) (by decide)
    -- the session ends with the close, so the mmap comes before it
    have hkj : k < j := by
      by_contra hle
      exact hbefore j closing hij (by omega) hclosing hclose
    refine ⟨k, other, hkj, hget, isMmapSystemCallForFd_iff.2 hmmap, ?_⟩
    intro m c hkm hmj hc
    by_contra hopens
    rw [Bool.not_eq_false, isOpenSystemCallForFd_iff] at hopens
    exact hnot ⟨m, c, ⟨by omega, by omega, fun n d hin hnm => hnone n d hin (by omega)⟩, hc, hopens⟩

/-! ## The decisions -/

theorem shouldSimulateSystemCall_eq_of_runsForReal_iff {systemCalls : List SystemCall} {i j : Nat}
    {call other : SystemCall} (hcall : systemCalls[i]? = some call)
    (hother : systemCalls[j]? = some other)
    (hiff : RunsForReal systemCalls j other ↔ RunsForReal systemCalls i call) :
    shouldSimulateSystemCall systemCalls j = shouldSimulateSystemCall systemCalls i := by
  rcases shouldSimulateSystemCall_cases hcall with ⟨hi, hnot⟩ | ⟨hi, hreal⟩
  · rcases shouldSimulateSystemCall_cases hother with ⟨hj, _⟩ | ⟨_, hreal⟩
    · rw [hi, hj]
    · exact absurd (hiff.1 hreal) hnot
  · rcases shouldSimulateSystemCall_cases hother with ⟨_, hnot⟩ | ⟨hj, _⟩
    · exact absurd (hiff.2 hreal) hnot
    · rw [hi, hj]

theorem runsForReal_open {systemCalls : List SystemCall} {i : Nat} {call : SystemCall}
    (hnum : call.num = openSysCall ∨ call.num = openatSysCall) :
    RunsForReal systemCalls i call ↔ MappedBeforeClose systemCalls i call.returnValue := by
  have hother : call.num ∉ sysCallsNotToSimulate ∧ call.num ≠ closeSysCall := by
    rcases hnum with h | h <;> rw [h] <;> decide
  simp [RunsForReal, hnum, hother.1, hother.2]

theorem runsForReal_close {systemCalls : List SystemCall} {i : Nat} {call : SystemCall}
    (hnum : call.num = closeSysCall) :
    RunsForReal systemCalls i call ↔ MappedSinceOpen systemCalls i (call.registers .rdi) := by
  have hnever : call.num ∉ sysCallsNotToSimulate := by
    rw [hnum]
    decide
  have hopen : ¬(call.num = openSysCall ∨ call.num = openatSysCall) := by
    rw [hnum]
    decide
  constructor
  · rintro (hreal | ⟨hreal, _⟩ | ⟨_, hmapped⟩)
    · exact absurd hreal hnever
    · exact absurd hreal hopen
    · exact hmapped
  · intro hmapped
    exact Or.inr (Or.inr ⟨hnum, hmapped⟩)

/-- An open is run for real exactly if its session maps the descriptor, and the close that ends a
session in which the descriptor is not given out again goes the way the open went. -/
theorem session_decisions_agree (systemCalls : List SystemCall) (i : Nat) (call : SystemCall)
    (hcall : systemCalls[i]? = some call)
    (hnum : call.num = openSysCall ∨ call.num = openatSysCall) :
    (shouldSimulateSystemCall systemCalls i = .ok false ↔
        SessionMaps systemCalls i call.returnValue) ∧
      ∀ j closing, InSession systemCalls i call.returnValue j → systemCalls[j]? = some closing →
        closing.num = closeSysCall ∧ closing.registers .rdi = call.returnValue →
        ¬SessionReopens systemCalls i call.returnValue →
        shouldSimulateSystemCall systemCalls j = shouldSimulateSystemCall systemCalls i := by
  have hreal : RunsForReal systemCalls i call ↔ MappedBeforeClose systemCalls i call.returnValue :=
    runsForReal_open hnum
  constructor
  · rw [← runsForReal_iff hcall, hreal, mappedBeforeClose_iff_sessionMaps]
  · intro j closing hj hclosing hclose hnot
    have hopen : isOpenSystemCallForFd call call.returnValue = true :=
      isOpenSystemCallForFd_iff.2 ⟨hnum.imp_right Or.inl, rfl⟩
    apply shouldSimulateSystemCall_eq_of_runsForReal_iff hcall hclosing
    -- the close looks back to its open, and meets the same mmap calls
    rw [hreal, runsForReal_close hclose.1, hclose.2, mappedBeforeClose_iff_sessionMaps]
    exact mappedSinceOpen_iff_sessionMaps hcall hopen hj hclosing hclose hnot

/-- A file is opened as 3, mapped and closed, between calls on another descriptor. -/
def mappedFile : List SystemCall :=
  [(openSysCall, 3, 0, 0), (openatSysCall, 4, 0, 0), (mmapSysCall, 0x7000, 0, 3),
    (closeSysCall, 0, 4, 0), (closeSysCall, 0, 3, 0)].map fun (num, returnValue, rdi, r8) =>
      { registers := fun r => match r with
          | .origRax => num
          | .rdi => rdi
          | .r8 => r8
          | _ => 0
        returnValue := returnValue
        memoryCopies := [] }

theorem session_decisions_agree_mappedFile :
    (shouldSimulateSystemCall mappedFile 0 = .ok false ↔ SessionMaps mappedFile 0 3) ∧
      shouldSimulateSystemCall mappedFile 4 = shouldSimulateSystemCall mappedFile 0 := by
  obtain ⟨hopen, hclose⟩ := session_decisions_agree mappedFile 0 _ rfl (Or.inl rfl)
  refine ⟨hopen, hclose 4 _ ⟨by decide, by decide, ?_⟩ rfl ⟨rfl, rfl⟩ ?_⟩
  · intro m call him hmk hcall
    match m, hmk with
    | 1, _ | 2, _ | 3, _ =>
        cases hcall
        decide
  · rintro ⟨k, call, ⟨hik, hlen, _⟩, hcall, hnum, hreturned⟩
    match k, hlen with
    | 1, _ | 2, _ | 3, _ | 4, _ =>
        cases hcall
        revert hnum hreturned
        decide

end RrPython
