import RrPython.Replayer.Lockstep

/-!
# Sandbox — which syscalls of the tracee the kernel gets to run

A pass of the tracee through the kernel either runs the syscall that it asked for or finds a number
that is no syscall.  During a replay the first happens only for the calls that need to happen.
-/

namespace RrPython

open Foundation Creplayer Replayer

/-- The tracee's passes through the kernel. -/
def passages (history : List TraceeEvent) : List TraceeEvent :=
  history.filter fun
    | .executed _ _ => true
    | .skipped _ _ => true
    | _ => false

/-- The kernel may run the syscall that the tracee enters as its `i`-th with the number `nr`: it is
recorded, and one that happens for real, or it is the `exit_group` behind the recording. -/
def Allowed (calls : List SystemCall) (i : Nat) (nr : Word) : Prop :=
  (∃ call, calls[i]? = some call ∧ call.num = nr.toNat ∧ RunsForReal calls i call) ∨
    (i = calls.length ∧ exitGroupSysCall = nr.toNat)

/-- What a pass through the kernel may be. -/
inductive Confined (calls : List SystemCall) (i : Nat) : TraceeEvent → Prop
  | executed {nr : Word} (h : Allowed calls i nr) : Confined calls i (.executed nr nr)
  | skipped (nr : Word) : Confined calls i (.skipped nr (-5))

def Sandboxed (calls : List SystemCall) (history : List TraceeEvent) : Prop :=
  ∀ i pass, (passages history)[i]? = some pass → Confined calls i pass

variable {calls : List SystemCall}

/-! ## Passages of a history -/

@[simp] theorem passages_nil : passages [] = [] := rfl

@[simp] theorem passages_append (h h' : List TraceeEvent) :
    passages (h ++ h') = passages h ++ passages h' :=
  List.filter_append h h'

@[simp] theorem passages_entered (u : UserState) (h : List TraceeEvent) :
    passages (.entered u :: h) = passages h := rfl

@[simp] theorem passages_consumed (call : SystemCall) (h : List TraceeEvent) :
    passages (.consumed call :: h) = passages h := rfl

@[simp] theorem passages_left (u : UserState) (h : List TraceeEvent) :
    passages (.left u :: h) = passages h := rfl

@[simp] theorem passages_executed (nr ran : Word) (h : List TraceeEvent) :
    passages (.executed nr ran :: h) = .executed nr ran :: passages h := rfl

theorem GoesBack.passages {stop : Stop} {back : List TraceeEvent} (h : GoesBack stop back) :
    passages back = [] := by
  cases h <;> rfl

theorem Printed.passages {printed : List TraceeEvent} (h : Printed printed) :
    passages printed = [] := by
  refine List.filter_eq_nil_iff.2 fun e he => ?_
  obtain ⟨buffer, rfl⟩ := h e he
  simp

theorem Passes.passages {i : Nat} {call : SystemCall} {nr : Word} {pass : TraceeEvent}
    (h : Passes calls i call nr pass) (rest : List TraceeEvent) :
    passages (pass :: rest) = pass :: RrPython.passages rest := by
  cases h <;> rfl

theorem Passes.confined {i : Nat} {call : SystemCall} {nr : Word} {pass : TraceeEvent}
    (h : Passes calls i call nr pass) (hcall : calls[i]? = some call) (hnum : call.num = nr.toNat) :
    Confined calls i pass := by
  cases h with
  | simulated _ =>
      exact .skipped nr
  | real hreal =>
      exact .executed (Or.inl ⟨call, hcall, hnum, hreal⟩)

/-! ## The sandbox holds -/

theorem passages_visit {stop : Stop} {back printed : List TraceeEvent} (hback : GoesBack stop back)
    (hprinted : Printed printed) (history rest : List TraceeEvent) (u : UserState)
    (call : SystemCall) :
    passages (history ++ (back ++ (.entered u :: .consumed call :: (printed ++ rest)))) =
      passages history ++ passages rest := by
  simp [hback.passages, hprinted.passages]

theorem confined_snoc {passed : List TraceeEvent}
    (h : ∀ i pass, passed[i]? = some pass → Confined calls i pass) {last : TraceeEvent}
    (hlast : Confined calls passed.length last) :
    ∀ i pass, (passed ++ [last])[i]? = some pass → Confined calls i pass := by
  intro i pass hpass
  by_cases hi : i < passed.length
  · rw [List.getElem?_append_left hi] at hpass
    exact h i pass hpass
  · rw [List.getElem?_append_right (by omega)] at hpass
    have hzero : i - passed.length = 0 := by
      have hlt := (List.getElem?_eq_some_iff.1 hpass).1
      simp only [List.length_singleton] at hlt
      omega
    rw [hzero] at hpass
    cases hpass
    have hlen : i = passed.length := by omega
    rw [hlen]
    exact hlast

/-- Each call that has been replayed is one pass, and a confined one. -/
theorem Replayed.sandboxed {n : Nat} {stop : Stop} {history : List TraceeEvent}
    (h : Replayed calls n stop history) :
    (passages history).length = n ∧ Sandboxed calls history := by
  induction h with
  | attached hstop =>
      exact ⟨rfl, by simp [Sandboxed]⟩
  | visit hprev hback hcall hnum hprinted hpass ih =>
      obtain ⟨hlen, hconfined⟩ := ih
      rw [Sandboxed, passages_visit hback hprinted, hpass.passages]
      refine ⟨by simp [hlen], confined_snoc hconfined ?_⟩
      rw [hlen]
      exact hpass.confined hcall hnum

theorem Unexpected.sandboxed {n : Nat} {u : UserState} {t : Tracee} (h : Unexpected calls n u t) :
    Sandboxed calls t.history := by
  obtain ⟨stop, history, back, hprev, hback, hhistory⟩ := h.replayed
  have hpassages : passages t.history = passages history := by
    simp [hhistory, hback.passages]
  rw [Sandboxed, hpassages]
  exact hprev.sandboxed.2

theorem Aborted.sandboxed {t : Tracee} (h : Aborted calls t) : Sandboxed calls t.history := by
  cases h with
  | between hprev hback h =>
      have hnone : ∀ {back : List TraceeEvent} {stop : Stop}, back = [] ∨ GoesBack stop back →
          passages back = [] := by
        rintro back stop (rfl | hback)
        · rfl
        · exact hback.passages
      rw [Sandboxed, h, passages_append, hnone hback, List.append_nil]
      exact hprev.sandboxed.2
  | unexpected _ _ h =>
      exact h.sandboxed
  | noExit _ h =>
      exact h.sandboxed
  | within hprev hback hcall hnum hprinted hrest h =>
      obtain ⟨hlen, hconfined⟩ := hprev.sandboxed
      rw [Sandboxed, h, passages_visit hback hprinted]
      rcases hrest with rfl | ⟨pass, left, hpass, rfl, hleft⟩
      · -- given up before the pass
        rw [passages_nil, List.append_nil]
        exact hconfined
      · -- what follows the pass within the call is no pass
        have hone : passages (pass :: left) = [pass] := by
          rcases hleft with rfl | ⟨v, rfl⟩
          · exact hpass.passages []
          · exact hpass.passages _
        rw [hone]
        apply confined_snoc hconfined
        rw [hlen]
        exact hpass.confined hcall hnum

theorem Finished.sandboxed {status : Int} {t : Tracee} (h : Finished calls status t) :
    Sandboxed calls t.history := by
  obtain ⟨stop, history, back, u, rest, hprev, hback, hexit, _, hrest, hhistory⟩ := h.history
  obtain ⟨hlen, hconfined⟩ := hprev.sandboxed
  have hone : passages t.history = passages history ++ [.executed u.nr u.nr] := by
    rcases hrest with rfl | ⟨v, rfl⟩
    · simp [hhistory, hback.passages]
    · simp [hhistory, hback.passages]
  rw [Sandboxed, hone]
  apply confined_snoc hconfined
  rw [hlen]
  exact .executed (Or.inr ⟨rfl, hexit⟩)

/-- In every replay without a delivered `SIGTRAP`, finished or not, the kernel runs no syscall of the
tracee but those that need to happen and the final `exit_group`; in place of every other it finds an
`orig_rax` of -5. -/
theorem startReplaying_sandboxed {self : Replayer} {w : World} {user : UserState}
    (hfree : SigtrapFree self w user) :
    Sandboxed self.systemCalls (endState (self.startReplaying w (Tracee.init user))).history := by
  have hends := startReplaying_ends hfree
  cases hresult : self.startReplaying w (Tracee.init user) with
  | ok status t =>
      exact (hends.of_ok hresult).sandboxed
  | error e t =>
      exact (hends.of_error hresult).sandboxed

theorem startReplaying_sandboxed_twoReads :
    Sandboxed readsReplayer.systemCalls
      (endState (readsReplayer.startReplaying readsWorld (Tracee.init bareUser))).history :=
  startReplaying_sandboxed (noSigtrap_readsWorld.sigtrapFree readsReplayer bareUser)

/-- As in `readsWorld`, but with a `SIGTRAP` that is delivered when the tracee comes out of the first
read. -/
def trappedWorld : World where
  attach := .stopped bareUser
  user := fun n u =>
    if n = 2 then .signal sigtrap u
    else .syscall { u with regs := PtRegs.set u.regs .origRax (if n < 5 then 0 else 231) }
  kernel := fun _ u => .returns u

set_option maxRecDepth 20000 in
/-- The stop is taken for the entry of the second read and the entry behind it for the exit, so it is
the read itself that the kernel runs when the replayer goes on to the next entry. -/
theorem not_startReplaying_sandboxed :
    ¬Sandboxed readsReplayer.systemCalls
      (endState (readsReplayer.startReplaying trappedWorld (Tracee.init bareUser))).history := by
  have hpassages : passages (endState
      (readsReplayer.startReplaying trappedWorld (Tracee.init bareUser))).history =
        [.skipped 0 (-5), .executed 0 0] := by
    rfl
  intro hsandboxed
  have hpass := hsandboxed 1 (.executed 0 0) (by rw [hpassages]; rfl)
  cases hpass with
  | executed hallowed =>
      rcases hallowed with ⟨call, hcall, _, hreal⟩ | ⟨hlen, _⟩
      · rw [runsForReal_iff hcall] at hreal
        exact absurd hreal (by decide)
      · exact absurd hlen (by decide)

end RrPython
