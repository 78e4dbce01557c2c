import RrPython.Foundation.Runs
import RrPython.Recorder.Hooks

/-!
# Handshake — the client and the listener of the pager

A client sends its pid to the listener and then stops itself.  The listener takes a snapshot of the
process that the pid names, has it recorded and continues it.  Nothing tells the listener that the
client has stopped, so it may be faster than the client.
-/

namespace RrPython

open Foundation

/-- Where a process is in `send_request_to_take_snapshot`. -/
inductive ClientPoint
  /-- Outside of it, and running. -/
  | idle
  | connected
  /-- Between `connection.send` and `os.kill(self.pid, SIGSTOP)`. -/
  | sent
  | stopped
  deriving DecidableEq, Repr

/-- Where the listener is in the loop of `run`. -/
inductive ListenerPoint
  | accept
  | recv (client : Pid)
  | takeSnapshot (pid : Pid)
  | startRecording (pid : Pid)
  | sigcont (pid : Pid)
  /-- An exception has left `run`. -/
  | crashed
  deriving DecidableEq, Repr

structure Pager where
  client : Pid → ClientPoint
  /-- The connections that wait for `accept`, oldest first. -/
  backlog : List Pid
  listener : ListenerPoint
  /-- History: the snapshots taken, and whether the process was stopped then. -/
  snapshots : List (Pid × Bool)
  /-- History: the recordings started, and whether the process was stopped then. -/
  recordings : List (Pid × Bool)
  /-- History: the last request of the process has been served to the end. -/
  served : Pid → Bool

inductive PagerEvent
  /-- `Client.create` of the process `p`. -/
  | connect (p : Pid)
  | send (p : Pid)
  /-- `p` sends itself `SIGSTOP`. -/
  | stop (p : Pid)
  | accept
  | recv
  /-- `cpager.take_snapshot`, which raises an exception if `criu_dump` fails. -/
  | takeSnapshot (succeeds : Bool)
  | startRecording
  /-- `os.kill(pid, signal.SIGCONT)`. -/
  | sigcont

namespace Pager

def init : Pager where
  client := fun _ => .idle
  backlog := []
  listener := .accept
  snapshots := []
  recordings := []
  served := fun _ => false

def stopped (s : Pager) (p : Pid) : Bool :=
  s.client p == .stopped

/-- The process takes its next step, which leads to `point`. -/
def clientTo (s : Pager) (p : Pid) (point : ClientPoint) : Pager :=
  { s with client := Function.update s.client p point }

def connect (s : Pager) (p : Pid) : Except Fault Pager :=
  if s.client p = .idle then
    .ok { s.clientTo p .connected with
      backlog := s.backlog ++ [p], served := Function.update s.served p false }
  else .error .impossible

def send (s : Pager) (p : Pid) : Except Fault Pager :=
  if s.client p = .connected then .ok (s.clientTo p .sent) else .error .impossible

def stop (s : Pager) (p : Pid) : Except Fault Pager :=
  if s.client p = .sent then .ok (s.clientTo p .stopped) else .error .impossible

def accept (s : Pager) : Except Fault Pager :=
  match s.listener, s.backlog with
  | .accept, p :: rest => .ok { s with listener := .recv p, backlog := rest }
  | _, _ => .error .impossible

/-- `conn.recv` returns once the client has sent. -/
def recv (s : Pager) : Except Fault Pager :=
  match s.listener with
  | .recv p =>
      if s.client p = .sent ∨ s.client p = .stopped then .ok { s with listener := .takeSnapshot p }
      else .error .impossible
  | _ => .error .impossible

def takeSnapshot (s : Pager) (succeeds : Bool) : Except Fault Pager :=
  match s.listener with
  | .takeSnapshot p =>
      if succeeds then
        .ok { s with listener := .startRecording p, snapshots := s.snapshots ++ [(p, s.stopped p)] }
      else .ok { s with listener := .crashed }
  | _ => .error .impossible

def startRecording (s : Pager) : Except Fault Pager :=
  match s.listener with
  | .startRecording p =>
      .ok { s with listener := .sigcont p, recordings := s.recordings ++ [(p, s.stopped p)] }
  | _ => .error .impossible

def sigcont (s : Pager) : Except Fault Pager :=
  match s.listener with
  | .sigcont p =>
      -- no effect on a process that is not stopped
      let s := if s.stopped p then s.clientTo p .idle else s
      .ok { s with listener := .accept, served := Function.update s.served p true }
  | _ => .error .impossible

def step (s : Pager) : PagerEvent → Except Fault Pager
  | .connect p => s.connect p
  | .send p => s.send p
  | .stop p => s.stop p
  | .accept => s.accept
  | .recv => s.recv
  | .takeSnapshot succeeds => s.takeSnapshot succeeds
  | .startRecording => s.startRecording
  | .sigcont => s.sigcont

/-- Snapshots were taken and recordings started of stopped processes only, and no process is stopped
whose request has been served. -/
structure HandsShaken (s : Pager) : Prop where
  snapshots : ∀ p stopped, (p, stopped) ∈ s.snapshots → stopped = true
  recordings : ∀ p stopped, (p, stopped) ∈ s.recordings → stopped = true
  continued : ∀ p, s.served p = true → s.stopped p = false

/-- The client is not still between its `send` and its `SIGSTOP` when the listener takes the
snapshot. -/
def StopsInTime (s : Pager) : PagerEvent → Prop
  | .takeSnapshot true => ∀ p, s.listener = .takeSnapshot p → s.client p ≠ .sent
  | _ => True

/-! ## The invariant -/

/-- What the point of the listener says about the client that it serves. -/
def Serves (client : Pid → ClientPoint) : ListenerPoint → Prop
  | .takeSnapshot p => client p = .sent ∨ client p = .stopped
  | .startRecording p => client p = .stopped
  | .sigcont p => client p = .stopped
  | _ => True

structure Inv (s : Pager) : Prop where
  serves : Serves s.client s.listener
  idle : ∀ p, s.served p = true → s.client p = .idle
  snapshots : ∀ p stopped, (p, stopped) ∈ s.snapshots → stopped = true
  recordings : ∀ p stopped, (p, stopped) ∈ s.recordings → stopped = true

theorem inv_init : init.Inv := by
  refine ⟨trivial, fun p hp => ?_, fun p b hb => ?_, fun p b hb => ?_⟩
  · cases hp
  · cases hb
  · cases hb

variable {s s' : Pager}

theorem Inv.handsShaken (h : s.Inv) : s.HandsShaken := by
  refine ⟨h.snapshots, h.recordings, fun p hp => ?_⟩
  rw [stopped, h.idle p hp]
  rfl

/-- The listener is served on by a process that it does not serve, and by its own client that goes from
`sent` to `stopped`. -/
theorem serves_update {client : Pid → ClientPoint} {listener : ListenerPoint}
    (h : Serves client listener) {p : Pid} {point : ClientPoint} (hstopped : client p ≠ .stopped)
    (hsent : client p = .sent → point = .stopped) :
    Serves (Function.update client p point) listener := by
  have hother : ∀ {q}, q ≠ p → Function.update client p point q = client q :=
    fun hq => Function.update_of_ne hq ..
  -- only before the snapshot may the client served be one that is not stopped yet
  cases listener with
  | takeSnapshot q =>
      by_cases hq : q = p
      · subst hq
        rcases h with hsent' | hstop
        · exact Or.inr ((Function.update_self ..).trans (hsent hsent'))
        · exact absurd hstop hstopped
      · simpa only [Serves, hother hq] using h
  | startRecording q =>
      have hq : q ≠ p := fun heq => hstopped (heq ▸ h)
      simpa only [Serves, hother hq] using h
  | sigcont q =>
      have hq : q ≠ p := fun heq => hstopped (heq ▸ h)
      simpa only [Serves, hother hq] using h
  | accept =>
      trivial
  | recv q =>
      trivial
  | crashed =>
      trivial

theorem Inv.connect (h : s.Inv) {p : Pid} (hs : s.connect p = .ok s') : s'.Inv := by
  unfold Pager.connect at hs
  split_ifs at hs with hidle
  cases hs
  refine ⟨serves_update h.serves (by simp [hidle]) (by simp [hidle]), fun q hq => ?_, h.snapshots,
    h.recordings⟩
  dsimp only at hq
  by_cases hqp : q = p
  · subst hqp
    -- a new request of `p` is not served yet
    rw [Function.update_self] at hq
    cases hq
  · rw [Function.update_of_ne hqp] at hq
    exact (Function.update_of_ne hqp ..).trans (h.idle q hq)

/-- A step of a client within its request. -/
theorem Inv.clientTo (h : s.Inv) {p : Pid} {point : ClientPoint} (hstopped : s.client p ≠ .stopped)
    (hidle : s.client p ≠ .idle) (hsent : s.client p = .sent → point = .stopped) :
    (s.clientTo p point).Inv := by
  refine ⟨serves_update h.serves hstopped hsent, fun q hq => ?_, h.snapshots, h.recordings⟩
  -- a served process is outside of its request, so it is not `p`
  have hqp : q ≠ p := fun heq => hidle (heq ▸ h.idle q hq)
  exact (Function.update_of_ne hqp ..).trans (h.idle q hq)

theorem Inv.send (h : s.Inv) {p : Pid} (hs : s.send p = .ok s') : s'.Inv := by
  unfold Pager.send at hs
  split_ifs at hs with hconnected
  cases hs
  exact h.clientTo (by simp [hconnected]) (by simp [hconnected]) (by simp [hconnected])

theorem Inv.stop (h : s.Inv) {p : Pid} (hs : s.stop p = .ok s') : s'.Inv := by
  unfold Pager.stop at hs
  split_ifs at hs with hsent
  cases hs
  exact h.clientTo (by simp [hsent]) (by simp [hsent]) fun _ => rfl

theorem Inv.accept (h : s.Inv) (hs : s.accept = .ok s') : s'.Inv := by
  unfold Pager.accept at hs
  split at hs
  · cases hs
    exact ⟨trivial, h.idle, h.snapshots, h.recordings⟩
  · cases hs

theorem Inv.recv (h : s.Inv) (hs : s.recv = .ok s') : s'.Inv := by
  unfold Pager.recv at hs
  split at hs
  · split_ifs at hs with hready
    cases hs
    exact ⟨hready, h.idle, h.snapshots, h.recordings⟩
  · cases hs

/-- The listener takes the snapshot of a stopped process, unless the client has not come to stop
itself. -/
theorem Inv.takeSnapshot (h : s.Inv) {succeeds : Bool} (htime : s.StopsInTime (.takeSnapshot succeeds))
    (hs : s.takeSnapshot succeeds = .ok s') : s'.Inv := by
  unfold Pager.takeSnapshot at hs
  split at hs
  · rename_i p hlistener
    cases succeeds with
    | false =>
        cases hs
        exact ⟨trivial, h.idle, h.snapshots, h.recordings⟩
    | true =>
        cases hs
        have hstopped : s.client p = .stopped := by
          -- the one use of the condition: the client served has sent, and is past its `SIGSTOP` too
          have hserves := h.serves
          rw [hlistener] at hserves
          rcases hserves with hsent | hstopped
          · exact absurd hsent (htime p hlistener)
          · exact hstopped
        refine ⟨hstopped, h.idle, fun q b hb => ?_, h.recordings⟩
        rcases List.mem_append.1 hb with hold | hnew
        · exact h.snapshots q b hold
        · cases List.mem_singleton.1 hnew
          simp [stopped, hstopped]
  · cases hs

theorem Inv.startRecording (h : s.Inv) (hs : s.startRecording = .ok s') : s'.Inv := by
  unfold Pager.startRecording at hs
  split at hs
  · rename_i p hlistener
    cases hs
    have hstopped : s.client p = .stopped := by
      have hserves := h.serves
      rwa [hlistener] at hserves
    refine ⟨hstopped, h.idle, h.snapshots, fun q b hb => ?_⟩
    rcases List.mem_append.1 hb with hold | hnew
    · exact h.recordings q b hold
    · cases List.mem_singleton.1 hnew
      simp [stopped, hstopped]
  · cases hs

theorem Inv.sigcont (h : s.Inv) (hs : s.sigcont = .ok s') : s'.Inv := by
  unfold Pager.sigcont at hs
  split at hs
  · rename_i p hlistener
    cases hs
    have hstopped : s.stopped p = true := by
      -- so `SIGCONT` has its effect, and the client leaves its request with the listener
      have hserves := h.serves
      rw [hlistener] at hserves
      simp only [Serves] at hserves
      simp [stopped, hserves]
    rw [if_pos hstopped]
    refine ⟨trivial, fun q hq => ?_, h.snapshots, h.recordings⟩
    dsimp only at hq
    by_cases hqp : q = p
    · subst hqp
      exact Function.update_self ..
    · rw [Function.update_of_ne hqp] at hq
      exact (Function.update_of_ne hqp ..).trans (h.idle q hq)
  · cases hs

theorem Inv.step (h : s.Inv) {e : PagerEvent} (htime : s.StopsInTime e) (hs : s.step e = .ok s') :
    s'.Inv := by
  cases e with
  | connect p =>
      exact h.connect hs
  | send p =>
      exact h.send hs
  | stop p =>
      exact h.stop hs
  | accept =>
      exact h.accept hs
  | recv =>
      exact h.recv hs
  | takeSnapshot succeeds =>
      exact h.takeSnapshot htime hs
  | startRecording =>
      exact h.startRecording hs
  | sigcont =>
      exact h.sigcont hs

/-- A snapshot that comes too early is one of a running process. -/
theorem snapshot_early {e : PagerEvent} (htime : ¬s.StopsInTime e) :
    ∃ s', s.step e = .ok s' ∧ ¬s'.HandsShaken := by
  cases e with
  | takeSnapshot succeeds =>
      cases succeeds with
      | false =>
          exact absurd trivial htime
      | true =>
          simp only [StopsInTime, not_forall, not_not] at htime
          obtain ⟨p, hlistener, hsent⟩ := htime
          refine ⟨{ s with
            listener := .startRecording p
            snapshots := s.snapshots ++ [(p, s.stopped p)] }, ?_, fun hshaken => ?_⟩
          · simp only [Pager.step, Pager.takeSnapshot, hlistener, if_true]
          have hfalse := hshaken.snapshots p (s.stopped p) (by simp)
          rw [stopped, hsent] at hfalse
          cases hfalse
  | connect p =>
      exact absurd trivial htime
  | send p =>
      exact absurd trivial htime
  | stop p =>
      exact absurd trivial htime
  | accept =>
      exact absurd trivial htime
  | recv =>
      exact absurd trivial htime
  | startRecording =>
      exact absurd trivial htime
  | sigcont =>
      exact absurd trivial htime

/-! ## Every run -/

/-- In a run every snapshot and recording is of a stopped process, and every served process runs, exactly
if each client stops itself before the listener takes its snapshot. -/
theorem handsShaken_iff_stopsInTime (es : List PagerEvent) :
    Throughout step HandsShaken init es ↔ AllSteps step StopsInTime init es :=
  throughout_iff_allSteps (I := Inv) (fun _ h => h.handsShaken)
    (fun _ _ _ h htime hs => h.step htime hs) (fun _ _ _ htime => snapshot_early htime) inv_init

/-- The listener serves the request of process 1 before process 1 stops itself. -/
def fastListener : List PagerEvent :=
  [.connect 1, .send 1, .accept, .recv, .takeSnapshot true, .startRecording, .sigcont, .stop 1]

theorem not_handsShaken_fastListener : ¬Throughout step HandsShaken init fastListener := by
  intro h
  have hrunning := (h.of_run rfl).continued 1 rfl
  cases hrunning

end Pager

end RrPython
