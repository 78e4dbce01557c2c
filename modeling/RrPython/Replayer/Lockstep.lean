import RrPython.Replayer.Turn

/-!
# Lockstep — a replay takes the tracee through the recording call by call

The stops of a tracee alternate between entries and exits, but carry no mark of which is which.
`Replayed` is the history of a tracee that has been taken through the first calls of a recording, one
entry, one pass through the kernel and one exit for each; `Aborted` and `Finished` are the two ways in
which a replay goes on from there.
-/

namespace RrPython

open Foundation Creplayer Replayer

/-! ## Histories -/

/-- The tracee has been taken through the first calls of the recording, as many as the number says,
and is at the given stop. -/
inductive Replayed (calls : List SystemCall) : Nat → Stop → List TraceeEvent → Prop
  | attached {stop : Stop} (hstop : stop = .signalled ∨ stop = .exited) : Replayed calls 0 stop []
  | visit {n : Nat} {stop : Stop} {history back printed : List TraceeEvent} {call : SystemCall}
      {u v : UserState} {pass : TraceeEvent} (hprev : Replayed calls n stop history)
      (hback : GoesBack stop back) (hcall : calls[n]? = some call) (hnum : call.num = u.nr.toNat)
      (hprinted : Printed printed) (hpass : Passes calls n call u.nr pass) :
      Replayed calls (n + 1) .syscallExit
        (history ++ (back ++ (.entered u :: .consumed call :: (printed ++ [pass, .left v]))))

/-- The tracee is at the entry of a syscall that is not the recorded one, and nothing has been done
to it there. -/
structure Unexpected (calls : List SystemCall) (n : Nat) (u : UserState) (t : Tracee) : Prop where
  replayed : ∃ stop history back, Replayed calls n stop history ∧ GoesBack stop back ∧
    t.history = history ++ (back ++ [.entered u])
  stop : t.stop = .syscallEntry u.nr
  user : t.user = u

/-- Where a replay can be given up. -/
inductive Aborted (calls : List SystemCall) (t : Tracee) : Prop
  /-- Between two calls. -/
  | between {n : Nat} {stop : Stop} {history back : List TraceeEvent}
      (hprev : Replayed calls n stop history) (hback : back = [] ∨ GoesBack stop back)
      (h : t.history = history ++ back)
  /-- At the entry of another syscall than the recorded one. -/
  | unexpected {n : Nat} {u : UserState} {call : SystemCall} (hcall : calls[n]? = some call)
      (hnum : call.num ≠ u.nr.toNat) (h : Unexpected calls n u t)
  /-- At the entry of another syscall than `exit_group` behind the last call. -/
  | noExit {u : UserState} (hnum : exitGroupSysCall ≠ u.nr.toNat)
      (h : Unexpected calls calls.length u t)
  /-- Within a call. -/
  | within {n : Nat} {stop : Stop} {history back printed rest : List TraceeEvent}
      {call : SystemCall} {u : UserState} (hprev : Replayed calls n stop history)
      (hback : GoesBack stop back) (hcall : calls[n]? = some call) (hnum : call.num = u.nr.toNat)
      (hprinted : Printed printed)
      (hrest : rest = [] ∨ ∃ pass left, Passes calls n call u.nr pass ∧ rest = pass :: left ∧
        (left = [] ∨ ∃ v, left = [.left v]))
      (h : t.history = history ++ (back ++ (.entered u :: .consumed call :: (printed ++ rest))))

/-- The tracee has been taken through the whole recording and then through `exit_group`, with the
status in `rdi`. -/
structure Finished (calls : List SystemCall) (status : Int) (t : Tracee) : Prop where
  history : ∃ stop history back u rest, Replayed calls calls.length stop history ∧
    GoesBack stop back ∧ exitGroupSysCall = u.nr.toNat ∧ status = (u.regs .rdi).toNat ∧
    (rest = [] ∨ ∃ v, rest = [.left v]) ∧
    t.history = history ++ (back ++ (.entered u :: .executed u.nr u.nr :: rest))

/-! ## One call -/

section Calls

variable {calls : List SystemCall} {t : Tracee} {w : World}

/-- A tracee that comes to the entry of another syscall is left as it is there. -/
theorem Replayed.unexpected {n : Nat} (h : Replayed calls n t.stop t.history) (hready : t.ReadyFor n)
    (u : UserState) : Unexpected calls n u (t.entering u) :=
  ⟨⟨t.stop, t.history, t.goingBack, h, hready.goesBack, rfl⟩, rfl, rfl⟩

theorem Replayed.within {n : Nat} (h : Replayed calls n t.stop t.history) (hready : t.ReadyFor n)
    {call : SystemCall} (hcall : calls[n]? = some call) {u : UserState} {rest : List TraceeEvent}
    {t' : Tracee} (hwithin : Within w n call t u rest t')
    (hrest : rest = [] ∨ ∃ pass left, Passes calls n call u.nr pass ∧ rest = pass :: left ∧
      (left = [] ∨ ∃ v, left = [.left v])) : Aborted calls t' := by
  obtain ⟨printed, hprinted, hhistory⟩ := hwithin.history
  exact .within h hready.goesBack hcall hwithin.num hprinted hrest hhistory

/-- A turn of the loop takes the tracee through one more call. -/
theorem Replayed.turn {n : Nat} (h : Replayed calls n t.stop t.history) (hready : t.ReadyFor n)
    {call : SystemCall} (hcall : calls[n]? = some call) {u : UserState} {t' : Tracee}
    (hturn : Turn calls w n call t u t') : Replayed calls (n + 1) t'.stop t'.history := by
  obtain ⟨pass, v, hpass, hwithin⟩ := hturn.within
  obtain ⟨printed, hprinted, hhistory⟩ := hwithin.history
  rw [hturn.stop, hhistory]
  exact .visit h hready.goesBack hcall hwithin.num hprinted hpass

/-- A turn that fails gives the replay up. -/
theorem Replayed.turnFails {self : Replayer} {n : Nat}
    (h : Replayed self.systemCalls n t.stop t.history) (hready : t.ReadyFor n) {call : SystemCall}
    (hcall : self.systemCalls[n]? = some call) {e : ReplayError} {t' : Tracee}
    (hfails : TurnFails self w n call t e t') : Aborted self.systemCalls t' := by
  cases hfails with
  | entry hentry =>
      cases hentry with
      | noEntry hhistory =>
          exact .between h (Or.inr hready.goesBack) hhistory
      | @unexpected u _ hnum =>
          exact .unexpected hcall hnum (h.unexpected hready u)
  | stdout hwithin =>
      exact h.within hready hcall hwithin (Or.inl rfl)
  | unwritable hwithin hsimulated =>
      exact h.within hready hcall hwithin (Or.inr ⟨_, _, .simulated hsimulated, rfl, Or.inr ⟨_, rfl⟩⟩)
  | exits hwithin hreal =>
      exact h.within hready hcall hwithin (Or.inr ⟨_, _, .real hreal, rfl, Or.inl rfl⟩)
  | otherValue hwithin hreal =>
      exact h.within hready hcall hwithin (Or.inr ⟨_, _, .real hreal, rfl, Or.inr ⟨_, rfl⟩⟩)

/-- Every replay, of any recording on any tracee to which no `SIGTRAP` is delivered, finishes or is given
up at one of the points that `Aborted` lists. -/
theorem startReplaying_ends {self : Replayer} {w : World} {user : UserState}
    (hfree : SigtrapFree self w user) :
    Ends (self.startReplaying w) (Tracee.init user)
      (fun status t => Finished self.systemCalls status t)
      (fun _ t => Aborted self.systemCalls t) := by
  refine startReplaying_rule self w user hfree
    (I := fun n (t : Tracee) => Replayed self.systemCalls n t.stop t.history) ?_ ?_
    (fun _ _ _ _ _ hcall hready h => h.turn hready hcall)
    (fun _ _ _ _ _ hcall hready h => h.turnFails hready hcall) ?_ ?_
  · intro message _
    exact .between (.attached (Or.inl rfl)) (Or.inl rfl) rfl
  · intro t ht
    cases ht with
    | stopped =>
        exact .attached (Or.inl rfl)
    | exited =>
        exact .attached (Or.inr rfl)
  · intro t u status t' hready h hlast
    obtain ⟨rest, hrest, hhistory⟩ := hlast.history
    exact ⟨t.stop, t.history, t.goingBack, u, rest, h, hready.goesBack, hlast.num, hlast.status, hrest,
      hhistory⟩
  · intro t e t' hready h hfails
    cases hfails with
    | noEntry hhistory =>
        exact .between h (Or.inr hready.goesBack) hhistory
    | @unexpected u _ hnum =>
        exact .noExit hnum (h.unexpected hready u)

end Calls

/-! ## The syscalls that the tracee entered -/

/-- The entry stops. -/
def entries (history : List TraceeEvent) : List UserState :=
  history.filterMap fun
    | .entered u => some u
    | _ => none

/-- The numbers that the tracee entered with. -/
def enteredNumbers (history : List TraceeEvent) : List Int :=
  (entries history).map fun u => (u.nr.toNat : Int)

section Entries

variable {calls : List SystemCall}

@[simp] theorem entries_append (h h' : List TraceeEvent) :
    entries (h ++ h') = entries h ++ entries h' :=
  List.filterMap_append

@[simp] theorem entries_nil : entries [] = [] := rfl

@[simp] theorem entries_entered (u : UserState) (h : List TraceeEvent) :
    entries (.entered u :: h) = u :: entries h := rfl

theorem entries_cons_other {e : TraceeEvent} (he : ∀ u, e ≠ .entered u) (h : List TraceeEvent) :
    entries (e :: h) = entries h := by
  cases e with
  | entered u =>
      exact absurd rfl (he u)
  | _ =>
      rfl

theorem GoesBack.entries {stop : Stop} {back : List TraceeEvent} (h : GoesBack stop back) :
    entries back = [] := by
  cases h <;> rfl

theorem Printed.entries {printed : List TraceeEvent} (h : Printed printed) : entries printed = [] := by
  refine List.filterMap_eq_nil_iff.2 fun e he => ?_
  obtain ⟨buffer, rfl⟩ := h e he
  rfl

theorem Passes.entries {i : Nat} {call : SystemCall} {nr : Word} {pass : TraceeEvent}
    (h : Passes calls i call nr pass) (rest : List TraceeEvent) :
    RrPython.entries (pass :: rest) = RrPython.entries rest := by
  cases h <;> rfl

theorem Replayed.enteredNumbers {n : Nat} {stop : Stop} {history : List TraceeEvent}
    (h : Replayed calls n stop history) :
    RrPython.enteredNumbers history = (calls.take n).map SystemCall.num := by
  induction h with
  | attached hstop =>
      rfl
  | visit hprev hback hcall hnum hprinted hpass ih =>
      rw [List.take_add_one, hcall, List.map_append, ← ih]
      have hexit : ∀ v, RrPython.entries [.left v] = [] := fun _ => rfl
      simp [RrPython.enteredNumbers, hback.entries, hprinted.entries, hpass.entries, hexit, hnum,
        entries_cons_other]

theorem Replayed.le_length {n : Nat} {stop : Stop} {history : List TraceeEvent}
    (h : Replayed calls n stop history) : n ≤ calls.length := by
  cases h with
  | attached =>
      omega
  | visit _ _ hcall =>
      have hlt := (List.getElem?_eq_some_iff.1 hcall).1
      omega

/-- As far as the numbers entered are those of the recording, an entry has the number of its call. -/
theorem num_of_entry {history : List TraceeEvent} {n : Nat} {rest : List Int}
    (h : enteredNumbers history = (calls.take n).map SystemCall.num ++ rest) {i : Nat} (hi : i < n)
    {u : UserState} (hentry : (entries history)[i]? = some u) {call : SystemCall}
    (hcall : calls[i]? = some call) : call.num = u.nr.toNat := by
  have hentered : (enteredNumbers history)[i]? = some (u.nr.toNat : Int) := by
    simp [enteredNumbers, hentry]
  have hrecorded : ((calls.take n).map SystemCall.num)[i]? = some call.num := by
    simp [hi, hcall]
  rw [h, List.getElem?_append_left (List.getElem?_eq_some_iff.1 hrecorded).1, hrecorded] at hentered
  exact Option.some.inj hentered

theorem entry_lt {history : List TraceeEvent} {i : Nat} {u : UserState}
    (hentry : (entries history)[i]? = some u) : i < (enteredNumbers history).length := by
  have hlt := (List.getElem?_eq_some_iff.1 hentry).1
  simpa [enteredNumbers] using hlt

theorem Unexpected.entries {n : Nat} {u : UserState} {t : Tracee} (h : Unexpected calls n u t) :
    ∃ before, RrPython.entries t.history = before ++ [u] ∧ before.length = n ∧
      RrPython.enteredNumbers t.history = (calls.take n).map SystemCall.num ++ [(u.nr.toNat : Int)] := by
  obtain ⟨stop, history, back, hprev, hback, hhistory⟩ := h.replayed
  have hbefore : RrPython.entries t.history = RrPython.entries history ++ [u] := by
    simp [hhistory, hback.entries]
  have hnumbers := hprev.enteredNumbers
  refine ⟨RrPython.entries history, hbefore, ?_, ?_⟩
  · have hlen := congrArg List.length hnumbers
    simp only [RrPython.enteredNumbers, List.length_map, List.length_take] at hlen
    have hle := hprev.le_length
    omega
  · rw [← hnumbers]
    simp [RrPython.enteredNumbers, hbefore]

theorem Finished.enteredNumbers {status : Int} {t : Tracee} (h : Finished calls status t) :
    RrPython.enteredNumbers t.history = calls.map SystemCall.num ++ [exitGroupSysCall] := by
  obtain ⟨stop, history, back, u, rest, hprev, hback, hexit, _, hrest, hhistory⟩ := h.history
  have hnumbers := hprev.enteredNumbers
  have hnone : RrPython.entries rest = [] := by
    rcases hrest with rfl | ⟨v, rfl⟩ <;> rfl
  rw [List.take_length] at hnumbers
  rw [← hnumbers]
  simp [RrPython.enteredNumbers, hhistory, hback.entries, entries_cons_other, hnone, hexit]

/-- At every point where a replay is given up, the tracee has entered the recorded numbers, except
where it is given up because of the last one. -/
theorem Aborted.unexpected_of_entry {t : Tracee} (h : Aborted calls t) {i : Nat} {u : UserState}
    {call : SystemCall} (hentry : (entries t.history)[i]? = some u) (hcall : calls[i]? = some call)
    (hnum : call.num ≠ u.nr.toNat) : Unexpected calls i u t := by
  -- where only recorded numbers have been entered, no entry differs from its call
  have hmatched : ∀ n, enteredNumbers t.history = (calls.take n).map SystemCall.num → False := by
    intro n hnumbers
    have hlt := entry_lt hentry
    rw [hnumbers, List.length_map, List.length_take] at hlt
    have hall : enteredNumbers t.history = (calls.take n).map SystemCall.num ++ [] := by
      rw [hnumbers, List.append_nil]
    exact hnum (num_of_entry hall (by omega) hentry hcall)
  cases h with
  | @between n stop history back hprev hback h =>
      have hnone : entries back = [] := by
        rcases hback with rfl | hback
        · rfl
        · exact hback.entries
      refine absurd ?_ (hmatched n)
      rw [← hprev.enteredNumbers]
      simp [enteredNumbers, h, hnone]
  | @unexpected n u' call' hcall' hnum' h =>
      obtain ⟨before, hbefore, hlen, hnumbers⟩ := h.entries
      have hle : i ≤ n := by
        have hlt := (List.getElem?_eq_some_iff.1 hentry).1
        rw [hbefore, List.length_append, hlen, List.length_singleton] at hlt
        omega
      -- the entries before the last have the recorded numbers, so it is the last that differs
      rcases Nat.lt_or_eq_of_le hle with hlt | rfl
      · exact absurd (num_of_entry hnumbers hlt hentry hcall) hnum
      · rw [hbefore, List.getElem?_append_right (by omega), hlen, Nat.sub_self] at hentry
        cases hentry
        exact h
  | @noExit u' hnum' h =>
      -- the entry that differs is behind the recording, so it has no recorded call
      obtain ⟨before, _, _, hnumbers⟩ := h.entries
      have hlt := (List.getElem?_eq_some_iff.1 hcall).1
      exact absurd (num_of_entry hnumbers hlt hentry hcall) hnum
  | @within n stop history back printed rest call' u' hprev hback hcall' hnum' hprinted hrest h =>
      have hnone : entries rest = [] := by
        rcases hrest with rfl | ⟨pass, left, hpass, rfl, rfl | ⟨v, rfl⟩⟩
        · rfl
        · rw [hpass.entries]
          rfl
        · rw [hpass.entries]
          rfl
      refine absurd ?_ (hmatched (n + 1))
      rw [List.take_add_one, hcall', List.map_append, ← hprev.enteredNumbers]
      simp [enteredNumbers, h, hback.entries, hprinted.entries, hnone, hnum', entries_cons_other]

end Entries

/-! ## Lockstep -/

structure InLockstep (calls : List SystemCall) (result : EStateM.Result ReplayError Tracee Int) :
    Prop where
  /-- A replay that returns has taken the tracee through the recording call by call, and through
  `exit_group`. -/
  returned : ∀ status t, result = .ok status t → Finished calls status t ∧
    enteredNumbers t.history = calls.map SystemCall.num ++ [exitGroupSysCall]
  /-- If the tracee enters another syscall than the recorded one, the replay is given up with the
  calls before that replayed and with the tracee left as it is at that entry. -/
  diverged : ∀ i u call, (entries (endState result).history)[i]? = some u → calls[i]? = some call →
    call.num ≠ u.nr.toNat → ∃ e t, result = .error e t ∧ Unexpected calls i u t

/-- Every replay without a delivered `SIGTRAP` runs in lockstep with its recording. -/
theorem startReplaying_inLockstep {self : Replayer} {w : World} {user : UserState}
    (hfree : SigtrapFree self w user) :
    InLockstep self.systemCalls (self.startReplaying w (Tracee.init user)) := by
  have hends := startReplaying_ends hfree
  constructor
  · intro status t hresult
    have hfinished := hends.of_ok hresult
    exact ⟨hfinished, hfinished.enteredNumbers⟩
  · intro i u call hentry hcall hnum
    cases hresult : self.startReplaying w (Tracee.init user) with
    | ok status t =>
        rw [hresult] at hentry
        have hnumbers := (hends.of_ok hresult).enteredNumbers
        rw [← List.take_length (l := self.systemCalls)] at hnumbers
        have hlt := (List.getElem?_eq_some_iff.1 hcall).1
        exact absurd (num_of_entry hnumbers hlt hentry hcall) hnum
    | error e t =>
        rw [hresult] at hentry
        exact ⟨e, t, rfl, (hends.of_error hresult).unexpected_of_entry hentry hcall hnum⟩

/-- A recorded read that returned 0. -/
def recordedRead : SystemCall where
  registers := PtRegs.toRegisters fun _ => 0
  returnValue := 0
  memoryCopies := []

def readsReplayer : Replayer where
  systemCalls := [recordedRead, recordedRead]
  stdoutCallback := none

/-- The tracee calls read twice and then `exit_group`. -/
def readsWorld : World where
  attach := .stopped bareUser
  user := fun n u => .syscall { u with regs := PtRegs.set u.regs .origRax (if n < 4 then 0 else 231) }
  kernel := fun _ u => .returns u

theorem noSigtrap_readsWorld : readsWorld.NoSigtrap :=
  fun _ _ _ heq => UserOutcome.noConfusion heq

theorem startReplaying_inLockstep_twoReads :
    InLockstep readsReplayer.systemCalls (readsReplayer.startReplaying readsWorld (Tracee.init bareUser)) :=
  startReplaying_inLockstep (noSigtrap_readsWorld.sigtrapFree readsReplayer bareUser)

end RrPython
