import RrPython.Replayer.Descriptors
import RrPython.Replayer.Hermetic
import RrPython.Replayer.Visits

/-!
# Diverging — one tracee, two recordings

Replays of two recordings are the same as long as the recordings are, and the decisions on their
calls.  Where they go on with different syscalls, a tracee whose replay of the one returns is stopped
in that of the other.  So a recording that is none of this tracee is found out, and so is one that has
lost its end, unless the end has taken the only mmap of a descriptor with it.
-/

namespace RrPython

open Foundation Creplayer Replayer

/-! ## Recordings that diverge -/

/-- The same replayer with another recording. -/
def Replayer.withCalls (self : Replayer) (calls : List SystemCall) : Replayer :=
  { self with systemCalls := calls }

/-- The recordings are the same up to the call at `k`, as are the decisions on the calls up to there,
and then they go on with different syscalls.  `exit_group` is the one behind the last. -/
structure DivergeAt (calls calls' : List SystemCall) (k : Nat) : Prop where
  le : k ≤ calls.length
  le' : k ≤ calls'.length
  take : calls'.take k = calls.take k
  decisions : ∀ i < k, shouldSimulateSystemCall calls' i = shouldSimulateSystemCall calls i
  num : expectedNum calls' k ≠ expectedNum calls k

/-! ## Lost ends -/

/-- A descriptor that is opened within the first `k` calls and mapped at all is mapped within them. -/
def KeepsMaps (calls : List SystemCall) (k : Nat) : Prop :=
  ∀ (i : Nat) (call : SystemCall), i < k → calls[i]? = some call → OpensFile call →
    MappedBeforeClose calls i call.returnValue → MappedBeforeClose (calls.take k) i call.returnValue

section Cut

variable {calls : List SystemCall} {i k : Nat} {call : SystemCall}

theorem getElem?_of_cut {j : Nat} {c : SystemCall} (h : (calls.take k)[j]? = some c) :
    calls[j]? = some c := by
  rw [List.getElem?_take] at h
  split_ifs at h
  exact h

theorem MappedBeforeClose.of_cut {fd : Int} (h : MappedBeforeClose (calls.take k) i fd) :
    MappedBeforeClose calls i fd := by
  obtain ⟨j, mmap, hij, hget, hmmap, hbefore⟩ := h
  have hjk : j < k := by
    have hlt := (List.getElem?_eq_some_iff.1 hget).1
    rw [List.length_take] at hlt
    omega
  refine ⟨j, mmap, hij, getElem?_of_cut hget, hmmap, fun m other him hmj hother => ?_⟩
  exact hbefore m other him hmj ((List.getElem?_take_of_lt (by omega)).trans hother)

/-- Looking back never reaches behind the cut. -/
theorem mappedSinceOpen_cut (hi : i < k) (fd : Int) :
    MappedSinceOpen (calls.take k) i fd ↔ MappedSinceOpen calls i fd := by
  unfold MappedSinceOpen
  refine exists_congr fun j => exists_congr fun mmap => ?_
  constructor
  · rintro ⟨hji, hget, hmmap, hbefore⟩
    refine ⟨hji, getElem?_of_cut hget, hmmap, fun m other hjm hmi hother => ?_⟩
    exact hbefore m other hjm hmi ((List.getElem?_take_of_lt (by omega)).trans hother)
  · rintro ⟨hji, hget, hmmap, hbefore⟩
    refine ⟨hji, (List.getElem?_take_of_lt (by omega)).trans hget, hmmap, fun m other hjm hmi hother => ?_⟩
    exact hbefore m other hjm hmi (getElem?_of_cut hother)

theorem runsForReal_cut (hkeeps : KeepsMaps calls k) (hi : i < k) (hcall : calls[i]? = some call) :
    RunsForReal (calls.take k) i call ↔ RunsForReal calls i call := by
  unfold RunsForReal
  refine or_congr Iff.rfl (or_congr (and_congr_right fun hopen => ?_) (and_congr_right fun _ => ?_))
  · exact ⟨MappedBeforeClose.of_cut, hkeeps i call hi hcall hopen⟩
  · exact mappedSinceOpen_cut hi (call.registers .rdi)

/-- The decisions on the calls that are left do not change. -/
theorem shouldSimulateSystemCall_cut (hkeeps : KeepsMaps calls k) (hi : i < k)
    (hcall : calls[i]? = some call) :
    shouldSimulateSystemCall (calls.take k) i = shouldSimulateSystemCall calls i := by
  have hleft : (calls.take k)[i]? = some call := (List.getElem?_take_of_lt hi).trans hcall
  have hiff := runsForReal_cut hkeeps hi hcall
  rcases shouldSimulateSystemCall_cases hcall with ⟨h, hnot⟩ | ⟨h, hreal⟩
  · rcases shouldSimulateSystemCall_cases hleft with ⟨h', _⟩ | ⟨_, hreal⟩
    · rw [h, h']
    · exact absurd (hiff.1 hreal) hnot
  · rcases shouldSimulateSystemCall_cases hleft with ⟨_, hnot⟩ | ⟨h', _⟩
    · exact absurd (hiff.2 hreal) hnot
    · rw [h, h']

/-- A recording that has lost its end ends too early. -/
theorem divergeAt_take (hcall : calls[k]? = some call) (hnum : call.num ≠ exitGroupSysCall)
    (hkeeps : KeepsMaps calls k) : DivergeAt calls (calls.take k) k := by
  have hlt := (List.getElem?_eq_some_iff.1 hcall).1
  have hlen : (calls.take k).length = k := by
    rw [List.length_take]
    omega
  refine ⟨hlt.le, hlen.ge, ?_, fun i hi => ?_, ?_⟩
  · rw [List.take_take, min_self]
  · exact shouldSimulateSystemCall_cut hkeeps hi (List.getElem?_eq_getElem (by omega))
  · have hend : (calls.take k)[k]? = none := List.getElem?_eq_none hlen.le
    rw [expectedNum, expectedNum, hcall, hend]
    exact hnum.symm

end Cut

/-! ## The machine on both -/

/-- The guest has made `n` more syscalls since. -/
structure Guest.Later (n : Nat) (p p' : Guest) : Prop where
  entered : p.entered <+: p'.entered
  length : p'.entered.length = p.entered.length + n
  shown : p.shown <+: p'.shown

theorem Guest.Later.refl (p : Guest) : Guest.Later 0 p p :=
  ⟨List.prefix_rfl, rfl, List.prefix_rfl⟩

theorem Guest.Later.trans {m n : Nat} {p p' p'' : Guest} (h : Guest.Later m p p')
    (h' : Guest.Later n p' p'') : Guest.Later (m + n) p p'' := by
  refine ⟨h.entered.trans h'.entered, ?_, h.shown.trans h'.shown⟩
  rw [h'.length, h.length, Nat.add_assoc]

namespace Virtual

section Steps

variable {self : Replayer} {w : World} {i : Nat} {call : SystemCall} {u : UserState} {p p' : Guest}

theorem enter_ok (h : enter w i p = .ok u p') : p' = p.enter u := by
  unfold enter at h
  rw [get_bind] at h
  cases hu : p.user with
  | none =>
      rw [hu] at h
      cases h
  | some v =>
      rw [hu] at h
      dsimp only at h
      cases huser : w.user (2 * i) v with
      | syscall u' =>
          rw [huser] at h
          cases h
          rfl
      | signal sig u' =>
          rw [huser] at h
          cases h
      | exits =>
          rw [huser] at h
          cases h

theorem later_showStdout (self : Replayer) (i : Nat) (call : SystemCall) (u : UserState) (p : Guest) :
    Ends (showStdout self i call u) p (fun _ p' => Guest.Later 0 p p') (fun _ _ => True) := by
  unfold showStdout
  cases self.stdoutCallback with
  | none =>
      exact Guest.Later.refl p
  | some callback =>
      dsimp only
      by_cases hwrites : call.WritesStdout
      · rw [if_pos hwrites]
        cases read u.mem (call.registers .rsi) (call.registers .rdx) with
        | error e =>
            trivial
        | ok buffer =>
            unfold Ends
            dsimp only
            rw [modify_bind]
            cases callback (2 * i + 1) buffer with
            | true =>
                exact ⟨List.prefix_rfl, rfl, List.prefix_append _ _⟩
            | false =>
                trivial
      · rw [if_neg hwrites]
        exact Guest.Later.refl p

theorem later_simulate (call : SystemCall) (u : UserState) (p : Guest) :
    Ends (simulate call u) p (fun _ p' => Guest.Later 0 p p') (fun _ _ => True) := by
  unfold simulate
  split_ifs
  · exact ⟨List.prefix_rfl, rfl, List.prefix_rfl⟩
  · trivial

theorem later_run (w : World) (i : Nat) (call : SystemCall) (u : UserState) (p : Guest) :
    Ends (run w i call u) p (fun _ p' => Guest.Later 0 p p') (fun _ _ => True) := by
  unfold run
  cases w.kernel (2 * i + 1) (u.wrapped call) with
  | exits =>
      trivial
  | returns v =>
      dsimp only
      split_ifs
      · trivial
      · exact ⟨List.prefix_rfl, rfl, List.prefix_rfl⟩

theorem later_answer (self : Replayer) (w : World) (i : Nat) (call : SystemCall) (u : UserState)
    (p : Guest) :
    Ends (answer self w i call u) p (fun _ p' => Guest.Later 0 p p') (fun _ _ => True) := by
  unfold answer
  cases shouldSimulateSystemCall self.systemCalls i with
  | error e =>
      trivial
  | ok simulates =>
      cases simulates with
      | true =>
          exact later_simulate call u p
      | false =>
          exact later_run w i call u p

/-- A step that succeeds has entered the recorded syscall. -/
theorem step_enters (self : Replayer) (w : World) (i : Nat) (call : SystemCall) (p : Guest) :
    Ends (step self w i call) p
      (fun _ p' => ∃ u, enter w i p = .ok u (p.enter u) ∧ call.num = u.nr.toNat ∧
        Guest.Later 0 (p.enter u) p')
      (fun _ _ => True) := by
  unfold step
  cases henter : enter w i p with
  | error e p' =>
      unfold Ends
      rw [bind_of_error henter]
      trivial
  | ok u p' =>
      obtain rfl := enter_ok henter
      unfold Ends
      rw [bind_of_ok henter]
      by_cases hnum : call.num = u.nr.toNat
      · have hexpect : expect call.num u (p.enter u) = .ok () (p.enter u) := by
          rw [expect, if_neg (not_not_intro hnum)]
          rfl
        rw [bind_of_ok hexpect]
        refine (later_showStdout self i call u (p.enter u)).bind fun _ p' hlater => ?_
        refine (later_answer self w i call u p').mono ?_ fun _ _ h => h
        exact fun _ p'' hlater' => ⟨u, rfl, hnum, hlater.trans hlater'⟩
      · have hexpect : expect call.num u (p.enter u) =
            .error (unexpectedSysCallException call.num u.nr.toNat) (p.enter u) := by
          rw [expect, if_pos hnum]
          rfl
        rw [bind_of_error hexpect]
        trivial

theorem later_step (self : Replayer) (w : World) (i : Nat) (call : SystemCall) (p : Guest) :
    Ends (step self w i call) p (fun _ p' => Guest.Later 1 p p') (fun _ _ => True) := by
  refine (step_enters self w i call p).mono ?_ fun _ _ h => h
  rintro _ p' ⟨u, _, _, hlater⟩
  have henter : Guest.Later 1 p (p.enter u) :=
    ⟨List.prefix_append _ _, List.length_append, List.prefix_rfl⟩
  exact henter.trans hlater

theorem later_forEach (self : Replayer) (w : World) (calls : List SystemCall) (i : Nat) (p : Guest) :
    Ends (forEach (step self w) i calls) p (fun _ p' => Guest.Later calls.length p p')
      (fun _ _ => True) := by
  induction calls generalizing i p with
  | nil =>
      exact Guest.Later.refl p
  | cons call calls ih =>
      refine (later_step self w i call p).bind fun _ p' hlater => ?_
      refine (ih (i + 1) p').mono (fun _ p'' hlater' => ?_) fun _ _ h => h
      have hboth := hlater.trans hlater'
      rwa [Nat.add_comm] at hboth

theorem attach_ok (h : attach w Guest.init = .ok () p) : p.entered = [] ∧ p.shown = [] := by
  unfold attach at h
  cases hattach : w.attach with
  | refused message =>
      rw [hattach] at h
      cases h
  | stopped u =>
      rw [hattach] at h
      cases h
      exact ⟨rfl, rfl⟩
  | exited =>
      rw [hattach] at h
      cases h
      exact ⟨rfl, rfl⟩

theorem exitStatus_ok {status : Int} (h : exitStatus w i p = .ok status p') :
    ∃ u, enter w i p = .ok u (p.enter u) ∧ exitGroupSysCall = u.nr.toNat ∧ p' = p.enter u := by
  obtain ⟨u, q, henter, hrest⟩ := bind_eq_ok h
  obtain rfl := enter_ok henter
  obtain ⟨_, q', hexpect, hpure⟩ := bind_eq_ok hrest
  unfold expect at hexpect
  split_ifs at hexpect with hnum
  · cases hexpect
  · cases hexpect
    cases hpure
    exact ⟨u, henter, not_not.1 hnum, rfl⟩

theorem expect_error {num : Int} (hnum : num ≠ u.nr.toNat) :
    expect num u p = .error (unexpectedSysCallException num u.nr.toNat) p := by
  rw [expect, if_pos hnum]
  rfl

/-- What is left of a replay behind its first `k` calls. -/
def rest (self : Replayer) (w : World) (k : Nat) : VirtualM Int := do
  forEach (step self w) k (self.systemCalls.drop k)
  exitStatus w self.systemCalls.length

theorem replay_split (self : Replayer) (w : World) {k : Nat} (hk : k ≤ self.systemCalls.length) :
    replay self w = (do
      attach w
      forEach (step self w) 0 (self.systemCalls.take k)
      rest self w k) := by
  have hlen : 0 + (self.systemCalls.take k).length = k := by
    rw [List.length_take]
    omega
  have hloop : forEach (step self w) 0 self.systemCalls = (do
      forEach (step self w) 0 (self.systemCalls.take k)
      forEach (step self w) k (self.systemCalls.drop k)) := by
    have happend := forEach_append (step self w) (self.systemCalls.take k) (self.systemCalls.drop k) 0
    rwa [List.take_append_drop, hlen] at happend
  rw [replay, hloop]
  simp only [bind_assoc, rest]

/-- Behind the first `k` calls the guest enters the expected syscall, if it gets to the end. -/
theorem rest_ok {k : Nat} (hk : k ≤ self.systemCalls.length) {status : Int}
    (h : rest self w k p = .ok status p') :
    ∃ u, enter w k p = .ok u (p.enter u) ∧ expectedNum self.systemCalls k = u.nr.toNat ∧
      (p.enter u).entered <+: p'.entered ∧ (p.enter u).shown <+: p'.shown := by
  obtain ⟨_, q, hloop, hexit⟩ := bind_eq_ok h
  cases hcall : self.systemCalls[k]? with
  | none =>
      -- only exit_group is left
      obtain hlen : self.systemCalls.length = k :=
        le_antisymm (List.getElem?_eq_none_iff.1 hcall) hk
      rw [← hlen, List.drop_length] at hloop
      cases hloop
      obtain ⟨u, henter, hnum, rfl⟩ := exitStatus_ok hexit
      rw [hlen] at henter
      refine ⟨u, henter, ?_, List.prefix_rfl, List.prefix_rfl⟩
      rw [expectedNum, hcall]
      exact hnum
  | some call =>
      have hlt := (List.getElem?_eq_some_iff.1 hcall).1
      have hget : self.systemCalls[k] = call := (List.getElem?_eq_some_iff.1 hcall).2
      rw [List.drop_eq_getElem_cons hlt, hget] at hloop
      obtain ⟨_, q', hstep, hothers⟩ := bind_eq_ok hloop
      obtain ⟨u, henter, hnum, hlater⟩ := (step_enters self w k call p).of_ok hstep
      have hlater' := (later_forEach self w (self.systemCalls.drop (k + 1)) (k + 1) q').of_ok hothers
      obtain ⟨v, _, _, rfl⟩ := exitStatus_ok hexit
      refine ⟨u, henter, ?_, ?_, hlater.shown.trans hlater'.shown⟩
      · rw [expectedNum, hcall]
        exact hnum
      · exact (hlater.entered.trans hlater'.entered).trans (List.prefix_append _ _)

/-- Where it enters another syscall, it is stopped. -/
theorem rest_error (self : Replayer) {k : Nat} (hk : k ≤ self.systemCalls.length)
    (henter : enter w k p = .ok u (p.enter u))
    (hnum : expectedNum self.systemCalls k ≠ u.nr.toNat) :
    rest self w k p = .error (unexpectedSysCallException (expectedNum self.systemCalls k) u.nr.toNat)
      (p.enter u) := by
  unfold rest
  cases hcall : self.systemCalls[k]? with
  | none =>
      obtain hlen : self.systemCalls.length = k :=
        le_antisymm (List.getElem?_eq_none_iff.1 hcall) hk
      have hexpected : expectedNum self.systemCalls k = exitGroupSysCall := by
        rw [expectedNum, hcall]
      have hnone : self.systemCalls.drop k = [] := by
        rw [← hlen, List.drop_length]
      rw [hexpected] at hnum ⊢
      rw [hnone, hlen]
      show exitStatus w k p = _
      rw [exitStatus, bind_of_ok henter, bind_of_error (expect_error hnum)]
  | some call =>
      have hlt := (List.getElem?_eq_some_iff.1 hcall).1
      have hget : self.systemCalls[k] = call := (List.getElem?_eq_some_iff.1 hcall).2
      have hexpected : expectedNum self.systemCalls k = call.num := by
        rw [expectedNum, hcall]
      rw [hexpected] at hnum ⊢
      have hstep : step self w k call p =
          .error (unexpectedSysCallException call.num u.nr.toNat) (p.enter u) := by
        rw [step, bind_of_ok henter, bind_of_error (expect_error hnum)]
      have hloop : forEach (step self w) k (call :: self.systemCalls.drop (k + 1)) p =
          .error (unexpectedSysCallException call.num u.nr.toNat) (p.enter u) := by
        rw [forEach, bind_of_error hstep]
      rw [List.drop_eq_getElem_cons hlt, hget, bind_of_error hloop]

/-- The machine stops where the recordings go on with different syscalls. -/
theorem replay_diverging {calls : List SystemCall} {k : Nat} {status : Int}
    (h : DivergeAt self.systemCalls calls k) (hreturns : replay self w Guest.init = .ok status p) :
    ∃ p', replay (self.withCalls calls) w Guest.init =
        .error (unexpectedSysCallException (expectedNum calls k) (expectedNum self.systemCalls k)) p' ∧
      p'.entered.length = k + 1 ∧ p'.entered <+: p.entered ∧ p'.shown <+: p.shown := by
  have hlen : (self.systemCalls.take k).length = k := by
    rw [List.length_take]
    exact min_eq_left h.le
  rw [replay_split self w h.le] at hreturns
  obtain ⟨_, p₀, hattach, hloop⟩ := bind_eq_ok hreturns
  obtain ⟨_, p₁, hfirst, hrest⟩ := bind_eq_ok hloop
  obtain ⟨u, henter, hu, hentered, hshown⟩ := rest_ok h.le hrest
  obtain ⟨hnone, _⟩ := attach_ok hattach
  have hlater := (later_forEach self w (self.systemCalls.take k) 0 p₀).of_ok hfirst
  -- the first k steps are the same for both
  have hsame : forEach (step (self.withCalls calls) w) 0 (self.systemCalls.take k) =
      forEach (step self w) 0 (self.systemCalls.take k) := by
    refine forEach_congr (fun i c hc => ?_) List.drop_zero
    have hi : i < k := by
      have hi := (List.getElem?_eq_some_iff.1 hc).1
      omega
    simp only [step, answer, showStdout, Replayer.withCalls, h.decisions i hi]
  have herror := rest_error (self.withCalls calls) h.le' henter (hu ▸ h.num)
  rw [← hu] at herror
  refine ⟨p₁.enter u, ?_, ?_, hentered, hshown⟩
  · have htake : (self.withCalls calls).systemCalls.take k = self.systemCalls.take k := h.take
    rw [replay_split (self.withCalls calls) w h.le', bind_of_ok hattach, htake, hsame,
      bind_of_ok hfirst]
    exact herror
  · have hone : (p₁.enter u).entered.length = p₁.entered.length + 1 := List.length_append
    rw [hone, hlater.length, hnone, hlen, List.length_nil, Nat.zero_add]

end Steps

end Virtual

/-- A tracee is replayed with one recording only: if the replay of a recording returns, that of one
that goes on with a different syscall behind the first `k` calls is given up at the entry of that
syscall, and up to there it has been the same replay.  A recording that has lost its end is the case
in which `exit_group` is expected.  No `SIGTRAP` may be delivered in either replay. -/
theorem startReplaying_diverging {self : Replayer} {w : World} {before : UserState}
    {calls : List SystemCall} {k : Nat} (h : DivergeAt self.systemCalls calls k)
    (hfree : SigtrapFree self w before) (hfree' : SigtrapFree (self.withCalls calls) w before)
    {status : Int} {t : Tracee} (hreturns : self.startReplaying w (Tracee.init before) = .ok status t) :
    ∃ t', (self.withCalls calls).startReplaying w (Tracee.init before) =
        .error (unexpectedSysCallException (expectedNum calls k) (expectedNum self.systemCalls k)) t' ∧
      (entries t'.history).length = k + 1 ∧ entries t'.history <+: entries t.history ∧
        stdoutBuffers t'.history <+: stdoutBuffers t.history := by
  obtain ⟨status', p, hreplay, _, hentered, hshown⟩ :=
    hfree.alike.exists_ok hreturns
  obtain ⟨p', hother, hlen, hentries, hbuffers⟩ := Virtual.replay_diverging h hreplay
  obtain ⟨t', hfails, hentered', hshown'⟩ :=
    hfree'.alike.exists_error hother
  refine ⟨t', hfails, ?_, ?_, ?_⟩
  · rw [← hentered']
    exact hlen
  · rw [← hentered, ← hentered']
    exact hentries
  · rw [← hshown, ← hshown']
    exact hbuffers

theorem keepsMaps_pidAndMap (k : Nat) : KeepsMaps pidAndMapReplayer.systemCalls k := by
  intro i call _ hcall hopens
  have hmem := List.mem_of_getElem? hcall
  simp only [pidAndMapReplayer, List.mem_cons, List.not_mem_nil, or_false] at hmem
  rcases hmem with rfl | rfl
  · exact absurd hopens (by unfold OpensFile; decide)
  · exact absurd hopens (by unfold OpensFile; decide)

set_option maxRecDepth 20000 in
theorem returns_hostWorld : ∃ status t,
    pidAndMapReplayer.startReplaying (hostWorld 7) (Tracee.init bareUser) = .ok status t := by
  exact ⟨_, _, rfl⟩

/-- The mmap has been lost. -/
theorem startReplaying_diverging_lostMap : ∃ t t' : Tracee,
    (pidAndMapReplayer.withCalls (pidAndMapReplayer.systemCalls.take 1)).startReplaying (hostWorld 7)
        (Tracee.init bareUser) =
      .error (unexpectedSysCallException exitGroupSysCall mmapSysCall) t' ∧
      (entries t'.history).length = 1 + 1 ∧ entries t'.history <+: entries t.history ∧
        stdoutBuffers t'.history <+: stdoutBuffers t.history := by
  obtain ⟨status, t, hreturns⟩ := returns_hostWorld
  have hcut : DivergeAt pidAndMapReplayer.systemCalls (pidAndMapReplayer.systemCalls.take 1) 1 :=
    divergeAt_take rfl (by decide) (keepsMaps_pidAndMap 1)
  exact ⟨t, startReplaying_diverging hcut (sigtrapFree_hostWorld _ 7) (sigtrapFree_hostWorld _ 7) hreturns⟩

end RrPython
