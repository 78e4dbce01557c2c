import Mathlib.Data.Nat.Digits.Defs
import RrPython.Pager.Service
import RrPython.Recorder.Handover

/-!
# SnapshotSession — the pager and the module together

The listener has a client recorded after it has taken its snapshot, and lets it go then.  A replay starts
from the snapshot, so the recording has to begin with the first syscall that the client enters behind it
and to miss none until another client's recording is started.
-/

namespace RrPython

open Foundation

/-- What all processes did, and which of their syscalls belong behind their snapshot. -/
structure SnapshotLog where
  trace : Pid → Trace
  /-- The snapshot of the process is taken, and no other process has had its recording started since. -/
  current : Pid → Bool
  /-- The last syscall of the process was entered while that was so. -/
  entered : Pid → Bool
  /-- The syscalls that have returned, of those that were entered while it was. -/
  log : List (Pid × TracedSyscall)

namespace SnapshotLog

def init (taskPtRegs : Pid → PtRegs) : SnapshotLog where
  trace := fun p => Trace.init (taskPtRegs p)
  current := fun _ => false
  entered := fun _ => false
  log := []

def takeSnapshot (l : SnapshotLog) (p : Pid) : SnapshotLog :=
  { l with current := Function.update l.current p true }

def startRecording (l : SnapshotLog) (p : Pid) : SnapshotLog :=
  { l with current := fun q => q == p && l.current q }

def observe (l : SnapshotLog) (e : Event) : SnapshotLog :=
  let trace := fun p => (l.trace p).observe p e
  match e with
  | .enterSyscall p _ _ => { l with trace, entered := Function.update l.entered p (l.current p) }
  | .exitSyscall p _ =>
      let new := if l.entered p then (trace p).log.drop (l.trace p).log.length else []
      { l with trace, log := l.log ++ new.map (p, ·) }
  | _ => { l with trace }

end SnapshotLog

/-! ## The two together -/

structure SnapshotSys where
  pager : Pager
  sys : Sys
  /-- History: what the recordings are compared with. -/
  history : SnapshotLog

inductive SnapshotEvent
  | pager (e : PagerEvent)
  | module (e : Event)

namespace SnapshotSys

/-- Both are loaded, and nothing is recorded. -/
def init (taskPtRegs : Pid → PtRegs) : SnapshotSys where
  pager := .init
  sys := .init 0 taskPtRegs
  history := .init taskPtRegs

/-- `start_recording`: the pid is written as decimal text, which is all that the module hears. -/
def startRecording (s : Sys) (p : Pid) : Sys :=
  s.writePid 0 (toString p).length (some p)

def pagerStep (s : SnapshotSys) (e : PagerEvent) : Except Fault SnapshotSys :=
  match s.pager.step e with
  | .error f => .error f
  | .ok pager =>
      match s.pager.listener, e with
      | .takeSnapshot p, .takeSnapshot true =>
          .ok { s with pager, history := s.history.takeSnapshot p }
      | .startRecording p, .startRecording =>
          .ok { pager, sys := startRecording s.sys p, history := s.history.startRecording p }
      | _, _ => .ok { s with pager }

/-- A process that is stopped does nothing. -/
def moduleStep (s : SnapshotSys) (e : Event) : Except Fault SnapshotSys :=
  if e.process.any s.pager.stopped then .error .impossible
  else
    match s.sys.step e with
    | .error f => .error f
    | .ok sys => .ok { s with sys, history := s.history.observe e }

def step (s : SnapshotSys) : SnapshotEvent → Except Fault SnapshotSys
  | .pager e => s.pagerStep e
  | .module e => s.moduleStep e

/-- Clients have the pids of processes, and stop themselves before their snapshot is taken; the recording of
one is started when no recorded syscall of another is under way; nobody else writes the pid, and nothing
that the hooks ask for is refused. -/
def Undisturbed (s : SnapshotSys) : SnapshotEvent → Prop
  | .pager (.connect p) => 0 < p ∧ p < 2 ^ 31
  | .pager .startRecording => ∀ p q, s.pager.listener = .startRecording p → s.sys.Recording q → q = p
  | .pager e => s.pager.StopsInTime e
  | .module (.writeProc _ _ _) => False
  | .module e => s.sys.HandsOver e

/-- A recorded syscall returns and finds the FIFO full. -/
def Drops (s : SnapshotSys) : SnapshotEvent → Prop
  | .pager _ => False
  | .module e => s.sys.Drops e

instance (s : SnapshotSys) : ∀ e, Decidable (Drops s e)
  | .pager _ => inferInstanceAs (Decidable False)
  | .module e => inferInstanceAs (Decidable (s.sys.Drops e))

variable {s s' : SnapshotSys}

/-! ## What a step does -/

/-- The listener goes on to start a recording after the snapshot only. -/
theorem startRecording_iff_of_other {pager pager' : Pager} {e : PagerEvent} (hs : pager.step e = .ok pager')
    (hsnapshot : ∀ p, pager.listener = .takeSnapshot p → e ≠ .takeSnapshot true)
    (hrecording : ∀ p, pager.listener = .startRecording p → e ≠ .startRecording) (p : Pid) :
    pager'.listener = .startRecording p ↔ pager.listener = .startRecording p := by
  cases e with
  | connect q =>
      simp only [Pager.step, Pager.connect] at hs
      split_ifs at hs
      cases hs
      rfl
  | send q =>
      simp only [Pager.step, Pager.send] at hs
      split_ifs at hs
      cases hs
      rfl
  | stop q =>
      simp only [Pager.step, Pager.stop] at hs
      split_ifs at hs
      cases hs
      rfl
  | accept =>
      simp only [Pager.step, Pager.accept] at hs
      split at hs
      · rename_i q rest hlistener hbacklog
        cases hs
        simp [hlistener]
      · cases hs
  | recv =>
      simp only [Pager.step, Pager.recv] at hs
      split at hs
      · rename_i q hlistener
        split_ifs at hs
        cases hs
        simp [hlistener]
      · cases hs
  | takeSnapshot succeeds =>
      simp only [Pager.step, Pager.takeSnapshot] at hs
      split at hs
      · rename_i q hlistener
        split_ifs at hs with hsucceeds
        · exact absurd (by rw [hsucceeds]) (hsnapshot q hlistener)
        · cases hs
          simp [hlistener]
      · cases hs
  | startRecording =>
      simp only [Pager.step, Pager.startRecording] at hs
      split at hs
      · rename_i q hlistener
        exact absurd rfl (hrecording q hlistener)
      · cases hs
  | sigcont =>
      simp only [Pager.step, Pager.sigcont] at hs
      split at hs
      · rename_i q hlistener
        cases hs
        simp [hlistener]
      · cases hs

/-- The listener takes a snapshot, starts a recording, or does what concerns the pager only. -/
theorem pagerStep_ok {e : PagerEvent} (hs : s.pagerStep e = .ok s') :
    s.pager.step e = .ok s'.pager ∧
      ((∃ p, s.pager.listener = .takeSnapshot p ∧ s'.pager.listener = .startRecording p ∧
          s'.sys = s.sys ∧ s'.history = s.history.takeSnapshot p) ∨
        (∃ p, e = .startRecording ∧ s.pager.listener = .startRecording p ∧
          s'.pager.listener = .sigcont p ∧ s'.sys = startRecording s.sys p ∧
          s'.history = s.history.startRecording p) ∨
        (∀ p, s'.pager.listener = .startRecording p ↔ s.pager.listener = .startRecording p) ∧
          s'.sys = s.sys ∧ s'.history = s.history) := by
  unfold pagerStep at hs
  split at hs
  · cases hs
  · rename_i pager hpager
    split at hs
    · rename_i p hlistener
      cases hs
      refine ⟨hpager, Or.inl ⟨p, hlistener, ?_, rfl, rfl⟩⟩
      simp only [Pager.step, Pager.takeSnapshot, hlistener, if_true] at hpager
      cases hpager
      rfl
    · rename_i p hlistener
      cases hs
      refine ⟨hpager, Or.inr (Or.inl ⟨p, rfl, hlistener, ?_, rfl, rfl⟩)⟩
      simp only [Pager.step, Pager.startRecording, hlistener] at hpager
      cases hpager
      rfl
    · rename_i hsnapshot hrecording
      cases hs
      exact ⟨hpager, Or.inr (Or.inr ⟨startRecording_iff_of_other hpager (fun p hp he => hsnapshot p hp he)
        fun p hp he => hrecording p hp he, rfl, rfl⟩)⟩

/-- Who waits for the listener has connected. -/
theorem mem_pending_step {pager pager' : Pager} {e : PagerEvent} (hs : pager.step e = .ok pager') {q : Pid}
    (hq : q ∈ pager'.pending) : q ∈ pager.pending ∨ e = .connect q := by
  cases Pager.moves hs with
  | joins p hidle =>
      simp only [Pager.pending, Pager.clientTo_listener, List.mem_append, List.mem_singleton] at hq
      rcases hq with hserving | hbacklog | rfl
      · exact Or.inl (List.mem_append_left _ hserving)
      · exact Or.inl (List.mem_append_right _ hbacklog)
      · exact Or.inr rfl
  | sends p _ =>
      exact Or.inl hq
  | stops p _ =>
      exact Or.inl hq
  | serves _ _ hserving =>
      exact Or.inl (hserving.pending ▸ hq)
  | crashes p hlistener =>
      exact Or.inl (List.mem_append_right _ (by simpa [Pager.pending, ListenerPoint.serving] using hq))
  | letsGo p hgo =>
      exact Or.inl (hgo.pending ▸ List.mem_cons_of_mem p hq)

/-- The text of a pid is not too long for `write_proc`. -/
theorem length_pid_le {p : Pid} (hpos : 0 < p) (hlt : p < 2 ^ 31) : (toString p).length ≤ bufferSize := by
  obtain ⟨m, rfl⟩ := Int.eq_ofNat_of_zero_le hpos.le
  have hm : m < 10 ^ bufferSize := by
    calc
      m < 2 ^ 31 := by exact_mod_cast hlt
      _ ≤ 10 ^ bufferSize := by
        unfold bufferSize
        norm_num
  exact (Nat.length_repr_le_iff (by unfold bufferSize; omega)).2 hm

end SnapshotSys

/-! ## The invariant -/

/-- The log shows what the windows of the module show. -/
structure SnapshotLog.Shows (l : SnapshotLog) (w : Windows) : Prop where
  trace : l.trace = w.trace
  entered : l.entered = w.entered
  log : l.log = w.log

theorem SnapshotLog.current_observe (l : SnapshotLog) (e : Event) : (l.observe e).current = l.current := by
  cases e <;> rfl

theorem SnapshotLog.Shows.observe {l : SnapshotLog} {w : Windows} (h : l.Shows w) {e : Event}
    (hwrite : ∀ ppos count parsed, e ≠ .writeProc ppos count parsed)
    (hcurrent : ∀ p, e.process = some p → (l.current p = true ↔ p ≠ 0 ∧ w.pid = p)) :
    (l.observe e).Shows (w.observe e) := by
  obtain ⟨htrace, hentered, hlog⟩ := h
  cases e with
  | enterSyscall p regs a =>
      have hsame : l.current p = decide (w.pid = p ∧ p ≠ 0) := by
        rw [Bool.eq_iff_iff, hcurrent p rfl, decide_eq_true_iff, and_comm]
      refine ⟨?_, ?_, hlog⟩
      · simp only [SnapshotLog.observe, Windows.observe, htrace]
      · simp only [SnapshotLog.observe, Windows.observe, hentered, hsame]
  | exitSyscall p regs =>
      refine ⟨?_, hentered, ?_⟩
      · simp only [SnapshotLog.observe, Windows.observe, htrace]
      · simp only [SnapshotLog.observe, Windows.observe, htrace, hentered, hlog]
  | writeProc ppos count parsed =>
      exact absurd rfl (hwrite ppos count parsed)
  | _ =>
      exact ⟨by simp only [SnapshotLog.observe, Windows.observe, htrace], hentered, hlog⟩

namespace SnapshotSys

variable {s s' : SnapshotSys} {n : Nat}

/-- Between the snapshot of a process and the start of its recording it is stopped; and apart from that
those whose snapshot is current are those whose pid is set. -/
structure Follows (n : Nat) (s : SnapshotSys) : Prop where
  pager : s.pager.Inv
  pids : ∀ p ∈ s.pager.pending, 0 < p ∧ p < 2 ^ 31
  records : ∃ v w, RefinesValues s.sys v ∧ w.Tells n v ∧ s.history.Shows w
  snapshotted : ∀ p, s.pager.listener = .startRecording p → s.history.current p = true
  current : ∀ p, s.pager.listener ≠ .startRecording p →
    (s.history.current p = true ↔ p ≠ 0 ∧ s.sys.kernel.recordedProcessPid = p)

theorem follows_init (taskPtRegs : Pid → PtRegs) : Follows 0 (init taskPtRegs) where
  pager := Pager.inv_init
  pids := by
    intro p hp
    cases hp
  records := ⟨_, _, RefinesValues.init 0 taskPtRegs, Windows.tells_init 0 taskPtRegs, rfl, rfl, rfl⟩
  snapshotted := by
    intro p hlistener
    cases hlistener
  current := by
    intro p _
    constructor
    · intro hcurrent
      cases hcurrent
    · rintro ⟨hp, hpid⟩
      exact absurd hpid.symm hp

theorem Follows.module (h : Follows n s) {e : Event}
    (hwrite : ∀ ppos count parsed, e ≠ .writeProc ppos count parsed) (he : s.sys.HandsOver e)
    (hs : s.moduleStep e = .ok s') : Follows (n + if s.sys.Drops e then 1 else 0) s' := by
  unfold moduleStep at hs
  split_ifs at hs with hstopped
  split at hs
  · cases hs
  · rename_i sys hsys
    cases hs
    obtain ⟨v, w, hR, htells, hshows⟩ := h.records
    obtain ⟨v', hv, hR'⟩ := (RefinesValues.simulates s.sys v e hR).of_ok hsys
    obtain ⟨lost, hstands⟩ := hR.stands
    obtain ⟨lost', hstands'⟩ := hR'.stands
    have htells' := htells.step hR he hv
    have hpid : w.pid = s.sys.kernel.recordedProcessPid :=
      htells.follows.pid.symm.trans hstands.pid
    have hkept : (w.observe e).pid = w.pid := by
      cases e with
      | writeProc ppos count parsed =>
          exact absurd rfl (hwrite ppos count parsed)
      | _ =>
          rfl
    have hsame : sys.kernel.recordedProcessPid = s.sys.kernel.recordedProcessPid := by
      rw [← hstands'.pid, htells'.follows.pid, hkept, hpid]
    refine ⟨h.pager, h.pids, ⟨v', w.observe e, hR', htells', hshows.observe hwrite ?_⟩, ?_, ?_⟩
    · -- who does something is not stopped, so its recording is not about to be started
      intro p hprocess
      rw [hpid]
      apply h.current p
      intro hlistener
      have hserves := h.pager.serves
      rw [hlistener] at hserves
      have hclient : s.pager.client p = .stopped := hserves
      exact hstopped (by simp [hprocess, Pager.stopped, hclient])
    · rw [SnapshotLog.current_observe]
      exact h.snapshotted
    · rw [SnapshotLog.current_observe, hsame]
      exact h.current

/-- The pid of a process is written while no recorded syscall of another is under way. -/
theorem Follows.startRecording (h : Follows n s) {p : Pid} (hpos : 0 < p) (hlt : p < 2 ^ 31)
    (hrecording : ∀ q, s.sys.Recording q → q = p) (hlistener : s.pager.listener = .startRecording p)
    (hpager : s'.pager.Inv) (hpids : ∀ q ∈ s'.pager.pending, 0 < q ∧ q < 2 ^ 31)
    (hlistener' : s'.pager.listener = .sigcont p) (hsys : s'.sys = SnapshotSys.startRecording s.sys p)
    (hhistory : s'.history = s.history.startRecording p) : Follows n s' := by
  obtain ⟨v, w, hR, htells, hshows⟩ := h.records
  have hlength := length_pid_le hpos hlt
  have haccepted : ¬((0 : Int) > 0 ∨ (toString p).length > bufferSize) := by
    omega
  have hsysStep : s.sys.step (.writeProc 0 (toString p).length (some p)) = .ok s'.sys := by
    rw [hsys]
    rfl
  obtain ⟨v', hv, hR'⟩ := (RefinesValues.simulates s.sys v _ hR).of_ok hsysStep
  have hnames : s.sys.HandsOver (.writeProc 0 (toString p).length (some p)) := by
    rintro q pid hq ⟨⟩
    exact Or.inr (hrecording q hq).symm
  have htells' := htells.step hR hnames hv
  have hpid : s'.sys.kernel.recordedProcessPid = p := by
    rw [hsys, SnapshotSys.startRecording, Sys.writePid, Kernel.writeProc, if_neg haccepted]
  refine ⟨hpager, hpids, ⟨v', _, hR', htells', ?_⟩, ?_, ?_⟩
  · rw [hhistory, Windows.observe, if_neg haccepted]
    refine ⟨?_, hshows.entered, hshows.log⟩
    have htrace : ∀ q, (w.trace q).observe q (.writeProc 0 (toString p).length (some p)) = w.trace q :=
      fun q => if_neg (by simp [Event.process])
    simp only [htrace]
    exact hshows.trace
  · intro q hq
    rw [hlistener'] at hq
    cases hq
  · intro q _
    have hcurrent := h.snapshotted p hlistener
    rw [hhistory, hpid, SnapshotLog.startRecording]
    by_cases hqp : q = p
    · subst hqp
      simp [hcurrent, hpos.ne']
    · simp [hqp, Ne.symm hqp]

theorem Follows.pager_step (h : Follows n s) {e : PagerEvent} (he : s.Undisturbed (.pager e))
    (hs : s.pagerStep e = .ok s') : Follows n s' := by
  obtain ⟨hpager, hcases⟩ := pagerStep_ok hs
  have htime : s.pager.StopsInTime e := by
    cases e with
    | takeSnapshot succeeds =>
        exact he
    | _ =>
        trivial
  have hinv := h.pager.step htime hpager
  have hpids : ∀ q ∈ s'.pager.pending, 0 < q ∧ q < 2 ^ 31 := by
    intro q hq
    rcases mem_pending_step hpager hq with hold | rfl
    · exact h.pids q hold
    · exact he
  rcases hcases with ⟨p, hlistener, hlistener', hsys, hhistory⟩ |
    ⟨p, rfl, hlistener, hlistener', hsys, hhistory⟩ | ⟨hsame, hsys, hhistory⟩
  · refine ⟨hinv, hpids, ?_, ?_, ?_⟩
    · rw [hsys, hhistory]
      obtain ⟨v, w, hR, htells, hshows⟩ := h.records
      exact ⟨v, w, hR, htells, hshows.trace, hshows.entered, hshows.log⟩
    · intro q hq
      rw [hlistener'] at hq
      cases hq
      rw [hhistory]
      exact Function.update_self ..
    · intro q hq
      rw [hlistener'] at hq
      have hqp : q ≠ p := fun heq => hq (by rw [heq])
      have hkept : (s.history.takeSnapshot p).current q = s.history.current q := Function.update_of_ne hqp ..
      rw [hhistory, hsys, hkept]
      exact h.current q (by simp [hlistener])
  · obtain ⟨hpos, hlt⟩ := h.pids p (by simp [Pager.pending, hlistener, ListenerPoint.serving])
    exact h.startRecording hpos hlt (fun q hq => he p q hlistener hq) hlistener hinv hpids hlistener' hsys
      hhistory
  · refine ⟨hinv, hpids, ?_, ?_, ?_⟩
    · rw [hsys, hhistory]
      exact h.records
    · rw [hhistory]
      exact fun q hq => h.snapshotted q ((hsame q).1 hq)
    · rw [hsys, hhistory]
      exact fun q hq => h.current q fun hq' => hq ((hsame q).2 hq')

theorem Follows.step (h : Follows n s) {e : SnapshotEvent} (he : s.Undisturbed e)
    (hs : s.step e = .ok s') : Follows (n + if s.Drops e then 1 else 0) s' := by
  cases e with
  | pager e =>
      exact h.pager_step he hs
  | module e =>
      cases e with
      | writeProc ppos count parsed =>
          exact absurd he id
      | _ =>
          refine h.module ?_ ?_ hs
          · simp
          · exact he

/-! ## Every run -/

end SnapshotSys

end RrPython
