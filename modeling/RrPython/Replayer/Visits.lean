import RrPython.Foundation.Alternation
import RrPython.Replayer.Lockstep

/-!
# Visits — what each replayed call does to the tracee

A visit is one syscall of the tracee: the state in which it entered and the state in which it went on
in user mode.  `Taken` are the visits that a replay can have made, one more with each call of the
recording, and `Failure` the reasons for making no further one.  Every replay ends with visits that
are `Taken`, and with a `Failure` unless it returns.
-/

namespace RrPython

open Foundation Creplayer Replayer

/-! ## Visits of a history -/

/-- The states in which the tracee went on in user mode after a syscall. -/
def returned (history : List TraceeEvent) : List UserState :=
  history.filterMap fun
    | .returned u => some u
    | _ => none

@[simp] theorem returned_append (h h' : List TraceeEvent) :
    returned (h ++ h') = returned h ++ returned h' :=
  List.filterMap_append

structure Visit where
  entry : UserState
  exit : UserState

/-- The syscalls that are behind the tracee. -/
def visits (history : List TraceeEvent) : List Visit :=
  List.zipWith Visit.mk (entries history) (returned history)

/-- In a history that ends behind a syscall, what comes next is counted on its own. -/
theorem visits_append {h : List TraceeEvent} (hbalanced : (entries h).length = (returned h).length)
    (h' : List TraceeEvent) : visits (h ++ h') = visits h ++ visits h' := by
  rw [visits, entries_append, returned_append, List.zipWith_append hbalanced]
  rfl

theorem Printed.returned {printed : List TraceeEvent} (h : Printed printed) :
    RrPython.returned printed = [] := by
  refine List.filterMap_eq_nil_iff.2 fun e he => ?_
  obtain ⟨buffer, rfl⟩ := h e he
  rfl

/-! ## What a call does -/

/-- The recorded call at `i` is run for real. -/
def RealAt (calls : List SystemCall) (i : Nat) : Prop :=
  ∃ call, calls[i]? = some call ∧ RunsForReal calls i call

theorem realAt_iff {calls : List SystemCall} {i : Nat} {call : SystemCall}
    (hcall : calls[i]? = some call) : RealAt calls i ↔ RunsForReal calls i call := by
  constructor
  · rintro ⟨other, hother, hreal⟩
    rw [hcall] at hother
    cases hother
    exact hreal
  · exact fun hreal => ⟨call, hcall, hreal⟩

theorem simulatedUser_rax (mem : ByteMemory) (call : SystemCall) (registers : Registers) :
    (simulatedUser mem call registers).regs .rax = BitVec.ofInt 64 call.returnValue := by
  simp [simulatedUser, Registers.assign]

/-- Behind the visits `xs` the tracee enters the syscall that is recorded next. -/
structure Entering (calls : List SystemCall) (w : World) (start : UserState) (xs : List Visit)
    (call : SystemCall) (u : UserState) : Prop where
  recorded : calls[xs.length]? = some call
  user : w.user (2 * xs.length) (lastExit Visit.exit start xs) = .syscall u
  num : call.num = u.nr.toNat

/-- The visits that a replay makes with a tracee that it finds in the state `start`. -/
inductive Taken (calls : List SystemCall) (w : World) (start : UserState) : List Visit → Prop
  | nil : Taken calls w start []
  | concat {xs : List Visit} {call : SystemCall} {x : Visit} (h : Taken calls w start xs)
      (henter : Entering calls w start xs call x.entry)
      (heffect : Effect calls w xs.length call x.entry x.exit) : Taken calls w start (xs ++ [x])

theorem Taken.take {calls : List SystemCall} {w : World} {start : UserState} {xs : List Visit}
    (h : Taken calls w start xs) (i : Nat) : Taken calls w start (xs.take i) := by
  induction h with
  | nil =>
      rw [List.take_nil]
      exact .nil
  | @concat xs call x h henter heffect ih =>
      rcases Nat.lt_or_ge xs.length i with hi | hi
      · rw [List.take_of_length_le (by simp only [List.length_append, List.length_singleton]; omega)]
        exact .concat h henter heffect
      · rw [List.take_append_of_le_length hi]
        exact ih

theorem Taken.length_le {calls : List SystemCall} {w : World} {start : UserState} {xs : List Visit}
    (h : Taken calls w start xs) : xs.length ≤ calls.length := by
  cases h with
  | nil =>
      exact Nat.zero_le _
  | concat h henter heffect =>
      have hlt := (List.getElem?_eq_some_iff.1 henter.recorded).1
      simp only [List.length_append, List.length_singleton]
      omega

/-- Every visit is that of its call. -/
theorem Taken.visit {calls : List SystemCall} {w : World} {start : UserState} {xs : List Visit}
    (h : Taken calls w start xs) {i : Nat} {x : Visit} (hx : xs[i]? = some x) :
    ∃ call, Entering calls w start (xs.take i) call x.entry ∧ Effect calls w i call x.entry x.exit := by
  have hi := (List.getElem?_eq_some_iff.1 hx).1
  have htake := h.take (i + 1)
  rw [List.take_add_one, hx] at htake
  -- the visits up to `x` are `Taken` themselves, and `x` is the last of them
  generalize hys : xs.take i ++ (some x).toList = ys at htake
  have hlen : (xs.take i).length = i := by
    rw [List.length_take]
    omega
  cases htake with
  | nil =>
      simp at hys
  | @concat ys call y h henter heffect =>
      obtain ⟨rfl, hxy⟩ := List.append_inj' hys rfl
      obtain rfl : x = y := by simpa using hxy
      exact ⟨call, henter, hlen ▸ heffect⟩

/-- The number that has to come after `n` syscalls. -/
def expectedNum (calls : List SystemCall) (n : Nat) : Int :=
  match calls[n]? with
  | some call => call.num
  | none => exitGroupSysCall

/-- Why a replay with this history gives up. -/
inductive Failure (self : Replayer) (w : World) (start : UserState) (history : List TraceeEvent) :
    ReplayError → Prop
  | notAttached (message : String) (h : ∀ u, w.attach ≠ .stopped u) :
      Failure self w start history (.systemError message)
  /-- The tracee does not get to another syscall. -/
  | noEntry (message : String)
      (h : ∀ u, w.user (2 * (visits history).length) (lastExit Visit.exit start (visits history)) ≠
        .syscall u) : Failure self w start history (.systemError message)
  | unexpected {u : UserState}
      (huser : w.user (2 * (visits history).length) (lastExit Visit.exit start (visits history)) =
        .syscall u)
      (hnum : expectedNum self.systemCalls (visits history).length ≠ u.nr.toNat)
      (hentries : entries history = (visits history).map Visit.entry ++ [u]) :
      Failure self w start history
        (unexpectedSysCallException (expectedNum self.systemCalls (visits history).length) u.nr.toNat)
  | stdout {e : ReplayError} (hcallback : self.stdoutCallback ≠ none)
      (he : e.OfAccess ∨ e = .callback) : Failure self w start history e
  /-- A copy of a simulated call cannot be written. -/
  | unwritable {call : SystemCall} {u : UserState}
      (henter : Entering self.systemCalls w start (visits history) call u)
      (h : ¬CopiesWritable u.mem call.memoryCopies) :
      Failure self w start history (.systemError inputOutputError)
  /-- A call that is run for real ends the tracee. -/
  | exits {call : SystemCall} {u : UserState}
      (henter : Entering self.systemCalls w start (visits history) call u)
      (hreal : RunsForReal self.systemCalls (visits history).length call)
      (hkernel : w.kernel (2 * (visits history).length + 1) (u.wrapped call) = .exits) :
      Failure self w start history (.systemError noSuchProcess)
  /-- A call that is run for real returns something else. -/
  | otherValue {call : SystemCall} {u v : UserState}
      (henter : Entering self.systemCalls w start (visits history) call u)
      (hreal : RunsForReal self.systemCalls (visits history).length call)
      (hkernel : w.kernel (2 * (visits history).length + 1) (u.wrapped call) = .returns v)
      (hvalue : call.returnValue ≠ (v.regs .rax).toNat) (hnum : call.num ∉ sysCallsToIgnoreInValidation) :
      Failure self w start history
        (unexpectedSystemCallReturnValueException call.returnValue (v.regs .rax).toNat)

/-- The state in which the replayer finds the tracee. -/
def World.attached (w : World) (before : UserState) : UserState :=
  match w.attach with
  | .stopped u => u
  | _ => before

/-! ## One call -/

/-- The tracee has been taken through the first `n` calls and is on its way to the next. -/
structure TakenTo (calls : List SystemCall) (w : World) (start : UserState) (n : Nat) (t : Tracee) :
    Prop where
  stop : t.stop = .signalled ∨ t.stop = .syscallExit ∨
    (t.stop = .exited ∧ ∀ u, w.attach ≠ .stopped u)
  clock : t.clock = 2 * n
  balanced : (entries t.history).length = (returned (t.history ++ t.goingBack)).length
  taken : Taken calls w start (visits (t.history ++ t.goingBack))
  length : (visits (t.history ++ t.goingBack)).length = n
  user : t.user = lastExit Visit.exit start (visits (t.history ++ t.goingBack))

section Calls

variable {self : Replayer} {w : World} {start : UserState} {t : Tracee} {n : Nat}

/-- What a replay that gives up leaves behind. -/
def GivenUp (self : Replayer) (w : World) (start : UserState) (e : ReplayError) (t : Tracee) : Prop :=
  Taken self.systemCalls w start (visits t.history) ∧ Failure self w start t.history e

theorem entries_goingBack (t : Tracee) : entries t.goingBack = [] := by
  unfold Tracee.goingBack
  cases t.stop <;> rfl

/-- Behind the calls that the tracee has been taken through, `rest` happens. -/
theorem TakenTo.visits_append (h : TakenTo self.systemCalls w start n t) (rest : List TraceeEvent) :
    visits (t.history ++ t.goingBack ++ rest) = visits (t.history ++ t.goingBack) ++ visits rest := by
  refine RrPython.visits_append ?_ rest
  rw [entries_append, entries_goingBack, List.append_nil]
  exact h.balanced

theorem visits_eq_nil {rest : List TraceeEvent} (h : returned rest = []) : visits rest = [] := by
  rw [visits, h, List.zipWith_nil_right]

theorem TakenTo.entries_eq (h : TakenTo self.systemCalls w start n t) :
    entries t.history = (visits (t.history ++ t.goingBack)).map Visit.entry := by
  have hlen := h.balanced
  rw [visits, entries_append, entries_goingBack, List.append_nil, List.map_zipWith]
  refine List.ext_getElem (by simp [hlen]) fun i hi hi' => ?_
  simp

/-- One more syscall is behind the tracee. -/
theorem TakenTo.next (h : TakenTo self.systemCalls w start n t) {call : SystemCall} {u : UserState}
    (henter : Entering self.systemCalls w start (visits (t.history ++ t.goingBack)) call u)
    {t' : Tracee} (hstop : t'.stop = .syscallExit) (hclock : t'.clock = t.clock + 2)
    {rest : List TraceeEvent} (hentries : entries rest = []) (hreturned : returned rest = [])
    (hhistory : t'.history = t.history ++ t.goingBack ++ .entered u :: rest)
    (heffect : Effect self.systemCalls w n call u t'.user) :
    TakenTo self.systemCalls w start (n + 1) t' := by
  have hback : t'.goingBack = [.returned t'.user] := by
    simp [Tracee.goingBack, hstop]
  -- what happens within the call has one entry and one return
  have hone : visits (.entered u :: rest ++ [.returned t'.user]) = [⟨u, t'.user⟩] := by
    rw [visits, returned_append, List.cons_append, entries_entered, entries_append, hentries]
    show List.zipWith Visit.mk [u] (returned rest ++ [t'.user]) = _
    rw [hreturned]
    rfl
  have hvisits : visits (t'.history ++ t'.goingBack) =
      visits (t.history ++ t.goingBack) ++ [⟨u, t'.user⟩] := by
    rw [hback, hhistory, List.append_assoc, h.visits_append, hone]
  refine ⟨Or.inr (Or.inl hstop), by rw [hclock, h.clock]; omega, ?_, ?_, ?_, ?_⟩
  · have hbalanced := h.balanced
    -- one entry and one return more on either side
    rw [returned_append] at hbalanced
    have hleft : returned t'.history = returned t.history ++ returned t.goingBack := by
      rw [hhistory, returned_append, returned_append]
      show _ ++ returned rest = _
      rw [hreturned, List.append_nil]
    have hlast : returned [.returned t'.user] = [t'.user] := rfl
    rw [hback, returned_append, hleft, hlast, hhistory, entries_append, entries_append,
      entries_goingBack, entries_entered, hentries]
    simp only [List.length_append, List.length_nil, List.length_cons, hbalanced, Nat.add_assoc]
  · rw [hvisits]
    exact .concat h.taken henter (h.length ▸ heffect)
  · rw [hvisits, List.length_append, h.length]
    rfl
  · rw [hvisits, lastExit_concat]

/-- The replay gives up before the syscall that comes next is behind the tracee. -/
theorem TakenTo.givenUp (h : TakenTo self.systemCalls w start n t) {t' : Tracee}
    (rest : List TraceeEvent) (hreturned : returned rest = [])
    (hhistory : t'.history = t.history ++ t.goingBack ++ rest) {e : ReplayError}
    (hfailure : visits t'.history = visits (t.history ++ t.goingBack) →
      Failure self w start t'.history e) : GivenUp self w start e t' := by
  have hvisits : visits t'.history = visits (t.history ++ t.goingBack) := by
    rw [hhistory, h.visits_append, visits_eq_nil hreturned, List.append_nil]
  refine ⟨?_, hfailure hvisits⟩
  rw [hvisits]
  exact h.taken

/-- Behind the entry, nothing within a call is another entry or return. -/
theorem Within.behindEntry {i : Nat} {call : SystemCall} {u : UserState} {rest : List TraceeEvent}
    {t' : Tracee} (h : Within w i call t u rest t') (hentries : entries rest = [])
    (hreturned : returned rest = []) :
    ∃ behind, entries behind = [] ∧ returned behind = [] ∧
      t'.history = t.history ++ t.goingBack ++ .entered u :: behind := by
  obtain ⟨printed, hprinted, hhistory⟩ := h.history
  refine ⟨.consumed call :: (printed ++ rest), ?_, ?_, ?_⟩
  · rw [entries_cons_other (fun _ he => TraceeEvent.noConfusion he), entries_append, hprinted.entries,
      hentries, List.append_nil]
  · show returned (printed ++ rest) = []
    rw [returned_append, hprinted.returned, hreturned, List.append_nil]
  · rw [hhistory, List.append_assoc]

theorem TakenTo.entering (h : TakenTo self.systemCalls w start n t) {call : SystemCall}
    (hcall : self.systemCalls[n]? = some call) {u : UserState} {rest : List TraceeEvent} {t' : Tracee}
    (hwithin : Within w n call t u rest t') :
    Entering self.systemCalls w start (visits (t.history ++ t.goingBack)) call u :=
  ⟨by rwa [h.length], by rw [h.length, ← h.user, hwithin.user], hwithin.num⟩

theorem TakenTo.turn (h : TakenTo self.systemCalls w start n t) {call : SystemCall}
    (hcall : self.systemCalls[n]? = some call) {u : UserState} {t' : Tracee}
    (hturn : Turn self.systemCalls w n call t u t') : TakenTo self.systemCalls w start (n + 1) t' := by
  obtain ⟨pass, v, hpass, hwithin⟩ := hturn.within
  have hnone : entries [pass, .left v] = [] ∧ returned [pass, .left v] = [] := by
    cases hpass <;> exact ⟨rfl, rfl⟩
  obtain ⟨behind, hentries, hreturned, hhistory⟩ := hwithin.behindEntry hnone.1 hnone.2
  have hclock : t'.clock = t.clock + 2 := by
    rw [hturn.clock, h.clock]
    omega
  exact h.next (h.entering hcall hwithin) hturn.stop hclock hentries hreturned hhistory hturn.effect

/-- The syscall with the number `expected` has to come next, and the tracee does not enter it. -/
theorem TakenTo.entryFails (h : TakenTo self.systemCalls w start n t) {expected : Int}
    (hexpected : expectedNum self.systemCalls n = expected) {e : ReplayError} {t' : Tracee}
    (hfails : EntryFails w n expected t e t') : GivenUp self w start e t' := by
  cases hfails with
  | noEntry hhistory hnone =>
      refine h.givenUp [] rfl (by rw [hhistory, List.append_nil]) fun hvisits => ?_
      -- the tracee was gone before it was attached to, or does not come to a syscall
      rcases hnone with hexited | hnone
      · refine .notAttached _ ?_
        rcases h.stop with hstop | hstop | ⟨_, hattach⟩
        · rw [hstop] at hexited
          cases hexited
        · rw [hstop] at hexited
          cases hexited
        · exact hattach
      · refine .noEntry _ ?_
        rwa [hvisits, h.length, ← h.user]
  | @unexpected u huser hnum =>
      have hhistory : (t.entering u).history = t.history ++ t.goingBack ++ [.entered u] :=
        (List.append_assoc _ _ _).symm
      refine h.givenUp [.entered u] rfl hhistory fun hvisits => ?_
      have hlen : (visits (t.entering u).history).length = n := by
        rw [hvisits, h.length]
      rw [← hexpected, ← hlen] at hnum ⊢
      refine .unexpected (by rwa [hvisits, h.length, ← h.user]) hnum ?_
      rw [hvisits, ← h.entries_eq, hhistory]
      simp [entries_goingBack]

theorem TakenTo.turnFails (h : TakenTo self.systemCalls w start n t) {call : SystemCall}
    (hcall : self.systemCalls[n]? = some call) {e : ReplayError} {t' : Tracee}
    (hfails : TurnFails self w n call t e t') : GivenUp self w start e t' := by
  -- within the call, the visits are those before it
  have hwithin : ∀ {u : UserState} {rest : List TraceeEvent}, Within w n call t u rest t' →
      entries rest = [] → returned rest = [] →
        ((visits t'.history).length = n →
          Entering self.systemCalls w start (visits t'.history) call u →
            Failure self w start t'.history e) → GivenUp self w start e t' := by
    intro u rest hwithin hentries hreturned hfailure
    obtain ⟨behind, _, hbehind, hhistory⟩ := hwithin.behindEntry hentries hreturned
    refine h.givenUp (.entered u :: behind) hbehind hhistory fun hvisits => hfailure ?_ ?_
    · rw [hvisits, h.length]
    · rw [hvisits]
      exact h.entering hcall hwithin
  cases hfails with
  | entry hentry =>
      refine h.entryFails ?_ hentry
      rw [expectedNum, hcall]
  | stdout hin hcallback he =>
      exact hwithin hin rfl rfl fun _ _ => .stdout hcallback he
  | unwritable hin _ hunwritable =>
      exact hwithin hin rfl rfl fun _ henter => .unwritable henter hunwritable
  | exits hin hreal hkernel =>
      refine hwithin hin rfl rfl fun hlen henter => .exits henter ?_ ?_
      · rwa [hlen]
      · rwa [hlen]
  | otherValue hin hreal hkernel hvalue hnum =>
      refine hwithin hin rfl rfl fun hlen henter => .otherValue henter ?_ ?_ hvalue hnum
      · rwa [hlen]
      · rwa [hlen]

/-! ## Whole replays -/

/-- What a replay that returns leaves behind: the tracee has been through all calls and has entered
`exit_group`. -/
structure Through (replayer : Replayer) (w : World) (start : UserState) (t : Tracee) : Prop where
  taken : Taken replayer.systemCalls w start (visits t.history)
  length : (visits t.history).length = replayer.systemCalls.length
  exit : ∃ u, w.user (2 * replayer.systemCalls.length) (lastExit Visit.exit start (visits t.history)) =
    .syscall u ∧ exitGroupSysCall = u.nr.toNat

/-- Every call has its visit. -/
theorem Through.visit (h : Through self w start t) {i : Nat} {call : SystemCall}
    (hcall : self.systemCalls[i]? = some call) :
    ∃ x, (visits t.history)[i]? = some x ∧
      Entering self.systemCalls w start ((visits t.history).take i) call x.entry ∧
      Effect self.systemCalls w i call x.entry x.exit := by
  have hlt := (List.getElem?_eq_some_iff.1 hcall).1
  rw [← h.length] at hlt
  obtain ⟨call', henter, heffect⟩ := h.taken.visit (List.getElem?_eq_getElem hlt)
  have hcall' := henter.recorded
  rw [List.length_take_of_le hlt.le, hcall] at hcall'
  cases hcall'
  exact ⟨_, List.getElem?_eq_getElem hlt, henter, heffect⟩

/-- `exit_group` itself is no visit any more, whether it returns or not. -/
theorem TakenTo.lastTurn (h : TakenTo self.systemCalls w start self.systemCalls.length t) {u : UserState}
    {status : Int} {t' : Tracee} (hlast : LastTurn w self.systemCalls.length t u status t') :
    Through self w start t' := by
  obtain ⟨rest, hrest, hhistory⟩ := hlast.history
  -- nothing goes back to user mode behind `exit_group`
  have hnone : returned (.entered u :: .executed u.nr u.nr :: rest) = [] := by
    rcases hrest with rfl | ⟨v, rfl⟩ <;> rfl
  have hvisits : visits t'.history = visits (t.history ++ t.goingBack) := by
    rw [hhistory, ← List.append_assoc, h.visits_append, visits_eq_nil hnone, List.append_nil]
  refine ⟨?_, ?_, u, ?_, hlast.num⟩
  · rw [hvisits]
    exact h.taken
  · rw [hvisits]
    exact h.length
  · rw [hvisits, ← h.user]
    exact hlast.user

theorem startReplaying_visits {self : Replayer} {w : World} {before : UserState}
    (hfree : SigtrapFree self w before) :
    Ends (self.startReplaying w) (Tracee.init before)
      (fun _ t => Through self w (w.attached before) t)
      (fun e t => GivenUp self w (w.attached before) e t) := by
  refine startReplaying_rule self w before hfree
    (I := fun n t => TakenTo self.systemCalls w (w.attached before) n t) ?_ ?_
    (fun _ _ _ _ _ hcall _ h => h.turn hcall) (fun _ _ _ _ _ hcall _ h => h.turnFails hcall)
    (fun _ _ _ _ _ h => h.lastTurn) fun _ _ _ _ h => h.entryFails ?_
  · intro message hattach
    refine ⟨.nil, .notAttached message fun u => ?_⟩
    rw [hattach]
    exact fun hne => AttachOutcome.noConfusion hne
  · intro t ht
    cases ht with
    | @stopped u hattach =>
        have hattached : w.attached before = u := by
          rw [World.attached, hattach]
        exact ⟨Or.inl rfl, rfl, rfl, .nil, rfl, hattached.symm⟩
    | exited hattach =>
        have hattached : w.attached before = before := by
          rw [World.attached, hattach]
        refine ⟨Or.inr (Or.inr ⟨rfl, fun u => ?_⟩), rfl, rfl, .nil, rfl, hattached.symm⟩
        rw [hattach]
        exact fun hne => AttachOutcome.noConfusion hne
  · rw [expectedNum, List.getElem?_eq_none le_rfl]

theorem taken_endState {self : Replayer} {w : World} {before : UserState}
    (hfree : SigtrapFree self w before) :
    Taken self.systemCalls w (w.attached before)
      (visits (endState (self.startReplaying w (Tracee.init before))).history) := by
  have hends := startReplaying_visits hfree
  cases hresult : self.startReplaying w (Tracee.init before) with
  | ok status t =>
      exact (hends.of_ok hresult).taken
  | error e t =>
      exact (hends.of_error hresult).1

/-- A replay that has no reason to give up returns. -/
theorem returns_of_not_failure {before : UserState} (hfree : SigtrapFree self w before)
    (h : ∀ history e, Taken self.systemCalls w (w.attached before) (visits history) →
      ¬Failure self w (w.attached before) history e) :
    ∃ status t, self.startReplaying w (Tracee.init before) = .ok status t := by
  cases hresult : self.startReplaying w (Tracee.init before) with
  | ok status t =>
      exact ⟨status, t, rfl⟩
  | error e t =>
      obtain ⟨htaken, hfailure⟩ := (startReplaying_visits hfree).of_error hresult
      exact absurd hfailure (h t.history e htaken)

/-- A replay without a callback returns if the tracee always comes to the expected syscall, no call has
copies to write, and what the kernel answers is as recorded where that is compared. -/
theorem returns_of_agreeing {before u : UserState} (hfree : SigtrapFree self w before)
    (hattach : w.attach = .stopped u)
    (hcallback : self.stdoutCallback = none)
    (huser : ∀ n u, ∃ u', w.user (2 * n) u = .syscall u' ∧
      expectedNum self.systemCalls n = u'.nr.toNat)
    (hcopies : ∀ call ∈ self.systemCalls, call.memoryCopies = [])
    (hkernel : ∀ n call u, self.systemCalls[n]? = some call →
      RunsForReal self.systemCalls n call → ∃ v, w.kernel (2 * n + 1) u = .returns v ∧
        (call.returnValue = (v.regs .rax).toNat ∨ call.num ∈ sysCallsToIgnoreInValidation)) :
    ∃ status t, self.startReplaying w (Tracee.init before) = .ok status t := by
  refine returns_of_not_failure hfree fun history e _ hfailure => ?_
  obtain ⟨next, hnext, hexpected⟩ := huser (visits history).length
    (lastExit Visit.exit (w.attached before) (visits history))
  cases hfailure with
  | notAttached message hrefused =>
      exact hrefused u hattach
  | noEntry message hnone =>
      exact hnone next hnext
  | unexpected hother hnum =>
      rw [hnext] at hother
      cases hother
      exact hnum hexpected
  | stdout hsome =>
      exact hsome hcallback
  | unwritable henter hunwritable =>
      rw [hcopies _ (List.mem_of_getElem? henter.recorded)] at hunwritable
      exact hunwritable fun c hc => absurd hc List.not_mem_nil
  | exits henter hreal hexits =>
      obtain ⟨v, hreturns, _⟩ := hkernel _ _ _ henter.recorded hreal
      rw [hreturns] at hexits
      cases hexits
  | otherValue henter hreal hreturns hvalue hnum =>
      obtain ⟨v, hreturns', hvalid⟩ := hkernel _ _ _ henter.recorded hreal
      rw [hreturns'] at hreturns
      cases hreturns
      exact hvalid.elim hvalue hnum

end Calls

end RrPython
