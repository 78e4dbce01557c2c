import Mathlib.Data.List.Nodup
import RrPython.Pager.Handshake

/-!
# Service — which requests the listener serves, and in which order

The connections that wait and the one being served form one queue.  A client in it gets its `SIGCONT`
after the steps that the listener takes for the clients before it; a client that is not in it any more
gets none.
-/

namespace RrPython

open Foundation

/-- The client that the listener has accepted and not continued yet. -/
def ListenerPoint.serving : ListenerPoint → List Pid
  | .recv p => [p]
  | .takeSnapshot p => [p]
  | .startRecording p => [p]
  | .sigcont p => [p]
  | .accept => []
  | .crashed => []

/-- The same, once its snapshot is taken. -/
def ListenerPoint.snapshotted : ListenerPoint → List Pid
  | .startRecording p => [p]
  | .sigcont p => [p]
  | _ => []

/-- The same, once its recording is started. -/
def ListenerPoint.recorded : ListenerPoint → List Pid
  | .sigcont p => [p]
  | _ => []

/-- The steps of the listener before it comes back to `accept`. -/
def ListenerPoint.left : ListenerPoint → Nat
  | .recv _ => 4
  | .takeSnapshot _ => 3
  | .startRecording _ => 2
  | .sigcont _ => 1
  | .accept => 0
  | .crashed => 0

/-- A step of the listener, not of a client. -/
def PagerEvent.isListeners : PagerEvent → Bool
  | .connect _ => false
  | .send _ => false
  | .stop _ => false
  | _ => true

def PagerEvent.isSigcont : PagerEvent → Bool
  | .sigcont => true
  | _ => false

def PagerEvent.connects : PagerEvent → Option Pid
  | .connect p => some p
  | _ => none

namespace Pager

/-- The clients whose request is still to be served, in the order in which they connected. -/
def pending (s : Pager) : List Pid :=
  s.listener.serving ++ s.backlog

/-- The steps of the listener up to and including the `SIGCONT` of `p`, of which each client before `p`
takes five. -/
def work (s : Pager) (p : Pid) : Nat :=
  s.listener.left + if p ∈ s.listener.serving then 0 else 5 * (s.backlog.idxOf p + 1)

variable {s s' : Pager} {e : PagerEvent} {p : Pid}

@[simp] theorem clientTo_listener (point : ClientPoint) :
    (s.clientTo p point).listener = s.listener :=
  rfl

@[simp] theorem clientTo_backlog (point : ClientPoint) :
    (s.clientTo p point).backlog = s.backlog :=
  rfl

/-! ## What a step does -/

/-- The listener takes a step that lets the client it serves wait on. -/
structure Serving (s s' : Pager) : Prop where
  running : s.listener ≠ .crashed
  running' : s'.listener ≠ .crashed
  pending : s'.pending = s.pending
  client : s'.client = s.client
  served : s'.served = s.served
  work : ∀ p ∈ s.pending, s'.work p + 1 = s.work p
  snapshots : ∀ done, s.snapshots.map Prod.fst = done ++ s.listener.snapshotted →
    s'.snapshots.map Prod.fst = done ++ s'.listener.snapshotted
  recordings : ∀ done, s.recordings.map Prod.fst = done ++ s.listener.recorded →
    s'.recordings.map Prod.fst = done ++ s'.listener.recorded

theorem accept_ok (hs : s.accept = .ok s') : Serving s s' := by
  unfold Pager.accept at hs
  split at hs
  · rename_i p rest hlistener hbacklog
    cases hs
    refine ⟨by simp [hlistener], by simp, ?_, rfl, rfl, fun q hq => ?_, fun done h => ?_,
      fun done h => ?_⟩
    · simp only [Pager.pending, hlistener, hbacklog, ListenerPoint.serving, List.nil_append,
        List.singleton_append]
    · -- the client that comes to its turn has five steps to go, of which this is the first
      by_cases hqp : q = p
      · subst hqp
        simp [Pager.work, hlistener, hbacklog, ListenerPoint.serving, ListenerPoint.left]
      · have hindex : (p :: rest).idxOf q = rest.idxOf q + 1 := List.idxOf_cons_ne rest (Ne.symm hqp)
        simp only [Pager.work, hlistener, hbacklog, hindex, ListenerPoint.serving, ListenerPoint.left,
          List.mem_singleton, hqp, List.not_mem_nil, if_false]
        omega
    · simpa only [hlistener, ListenerPoint.snapshotted] using h
    · simpa only [hlistener, ListenerPoint.recorded] using h
  · cases hs

/-- The listener goes on from one point of its service to the next. -/
theorem Serving.of_point {listener : ListenerPoint} {snapshots recordings : List (Pid × Bool)}
    (hserving : s.listener.serving = [p]) (hserving' : listener.serving = [p])
    (hleft : s.listener.left = listener.left + 1)
    (hsnapshots : ∀ done, s.snapshots.map Prod.fst = done ++ s.listener.snapshotted →
      snapshots.map Prod.fst = done ++ listener.snapshotted)
    (hrecordings : ∀ done, s.recordings.map Prod.fst = done ++ s.listener.recorded →
      recordings.map Prod.fst = done ++ listener.recorded) :
    Serving s { s with
      listener := listener, snapshots := snapshots, recordings := recordings } := by
  refine ⟨?_, ?_, ?_, rfl, rfl, fun q _ => ?_, hsnapshots, hrecordings⟩
  · intro hcrash
    simp [hcrash, ListenerPoint.serving] at hserving
  · rintro rfl
    simp [ListenerPoint.serving] at hserving'
  · simp only [Pager.pending, hserving, hserving']
  · simp only [Pager.work, hserving, hserving', hleft]
    omega

theorem recv_ok (hs : s.recv = .ok s') : Serving s s' := by
  unfold Pager.recv at hs
  split at hs
  · rename_i p hlistener
    split_ifs at hs
    cases hs
    exact .of_point (p := p) (by simp [hlistener, ListenerPoint.serving]) rfl
      (by simp [hlistener, ListenerPoint.left])
      (fun done h => by simpa only [hlistener, ListenerPoint.snapshotted] using h)
      (fun done h => by simpa only [hlistener, ListenerPoint.recorded] using h)
  · cases hs

theorem takeSnapshot_ok {succeeds : Bool} (hs : s.takeSnapshot succeeds = .ok s') :
    (succeeds = false ∧ ∃ p, s.listener = .takeSnapshot p ∧ s' = { s with listener := .crashed }) ∨
      Serving s s' := by
  unfold Pager.takeSnapshot at hs
  split at hs
  · rename_i p hlistener
    cases succeeds with
    | false =>
        cases hs
        exact Or.inl ⟨rfl, p, hlistener, rfl⟩
    | true =>
        cases hs
        refine Or.inr (.of_point (p := p) (by simp [hlistener, ListenerPoint.serving]) rfl
          (by simp [hlistener, ListenerPoint.left]) (fun done h => ?_) fun done h => ?_)
        · rw [List.map_append, h, hlistener]
          simp [ListenerPoint.snapshotted]
        · simpa only [hlistener, ListenerPoint.recorded] using h
  · cases hs

theorem startRecording_ok (hs : s.startRecording = .ok s') : Serving s s' := by
  unfold Pager.startRecording at hs
  split at hs
  · rename_i p hlistener
    cases hs
    refine .of_point (p := p) (by simp [hlistener, ListenerPoint.serving]) rfl
      (by simp [hlistener, ListenerPoint.left]) (fun done h => ?_) fun done h => ?_
    · simpa only [hlistener, ListenerPoint.snapshotted] using h
    · rw [List.map_append, h, hlistener]
      simp [ListenerPoint.recorded]
  · cases hs

/-- The listener lets the client `p` go. -/
structure LetsGo (s : Pager) (p : Pid) (s' : Pager) : Prop where
  listener : s.listener = .sigcont p
  listener' : s'.listener = .accept
  backlog : s'.backlog = s.backlog
  client : s'.client = if s.stopped p then Function.update s.client p .idle else s.client
  served : s'.served = Function.update s.served p true
  snapshots : s'.snapshots = s.snapshots
  recordings : s'.recordings = s.recordings

theorem sigcont_ok (hs : s.sigcont = .ok s') : ∃ p, LetsGo s p s' := by
  unfold Pager.sigcont at hs
  split at hs
  · rename_i p hlistener
    cases hs
    by_cases hstopped : s.stopped p = true
    · exact ⟨p, hlistener, rfl, by simp [hstopped, clientTo], by simp [hstopped, clientTo],
        by simp [hstopped, clientTo], by simp [hstopped, clientTo], by simp [hstopped, clientTo]⟩
    · exact ⟨p, hlistener, rfl, by simp [hstopped], by simp [hstopped], by simp [hstopped],
        by simp [hstopped], by simp [hstopped]⟩
  · cases hs

/-- A client joins the queue, a client within its request takes a step, or the listener serves, crashes
or lets a client go. -/
inductive Moves (s : Pager) : PagerEvent → Pager → Prop
  | joins (p : Pid) (hidle : s.client p = .idle) :
      Moves s (.connect p) { s.clientTo p .connected with
        backlog := s.backlog ++ [p], served := Function.update s.served p false }
  | sends (p : Pid) (hconnected : s.client p = .connected) : Moves s (.send p) (s.clientTo p .sent)
  | stops (p : Pid) (hsent : s.client p = .sent) : Moves s (.stop p) (s.clientTo p .stopped)
  | serves {e : PagerEvent} {s' : Pager} (hlistener : e.isListeners = true)
      (hsigcont : e.isSigcont = false) (hserving : Serving s s') : Moves s e s'
  | crashes (p : Pid) (hlistener : s.listener = .takeSnapshot p) :
      Moves s (.takeSnapshot false) { s with listener := .crashed }
  | letsGo {s' : Pager} (p : Pid) (hgo : LetsGo s p s') : Moves s .sigcont s'

theorem moves (hs : s.step e = .ok s') : Moves s e s' := by
  cases e with
  | connect p =>
      simp only [Pager.step, Pager.connect] at hs
      split_ifs at hs with hidle
      cases hs
      exact .joins p hidle
  | send p =>
      simp only [Pager.step, Pager.send] at hs
      split_ifs at hs with hconnected
      cases hs
      exact .sends p hconnected
  | stop p =>
      simp only [Pager.step, Pager.stop] at hs
      split_ifs at hs with hsent
      cases hs
      exact .stops p hsent
  | accept =>
      exact .serves rfl rfl (accept_ok hs)
  | recv =>
      exact .serves rfl rfl (recv_ok hs)
  | takeSnapshot succeeds =>
      rcases takeSnapshot_ok hs with ⟨rfl, p, hlistener, rfl⟩ | hserving
      · exact .crashes p hlistener
      · exact .serves rfl rfl hserving
  | startRecording =>
      exact .serves rfl rfl (startRecording_ok hs)
  | sigcont =>
      obtain ⟨p, hgo⟩ := sigcont_ok hs
      exact .letsGo p hgo

theorem LetsGo.pending (h : LetsGo s p s') : s.pending = p :: s'.pending := by
  simp only [Pager.pending, h.listener, h.listener', h.backlog, ListenerPoint.serving,
    List.singleton_append, List.nil_append]

/-! ## The queue -/

/-- A client is in the queue at most once, within its request and not served; and every client within a
request that has not been served is in it, unless the listener has crashed. -/
structure Queued (s : Pager) : Prop where
  nodup : s.pending.Nodup
  waits : ∀ p ∈ s.pending, s.client p ≠ .idle ∧ s.served p = false
  complete : s.listener ≠ .crashed → ∀ p, s.client p ≠ .idle → s.served p = false → p ∈ s.pending

theorem queued_init : init.Queued := by
  refine ⟨List.nodup_nil, fun p hp => ?_, fun _ p hp => absurd rfl hp⟩
  cases hp

theorem Queued.joins (h : s.Queued) (hidle : s.client p = .idle) :
    Queued { s.clientTo p .connected with
      backlog := s.backlog ++ [p], served := Function.update s.served p false } := by
  have hpending : s.listener.serving ++ (s.backlog ++ [p]) = s.pending ++ [p] :=
    (List.append_assoc ..).symm
  -- who connects is idle, and nobody in the queue is
  have hnew : p ∉ s.pending := fun hp => (h.waits p hp).1 hidle
  refine ⟨?_, fun q hq => ?_, fun hcrash q hq hserved => ?_⟩
  · rw [Pager.pending, clientTo, hpending]
    exact h.nodup.append (List.nodup_singleton p) (List.disjoint_singleton.2 hnew)
  · rw [Pager.pending, clientTo, hpending, List.mem_append, List.mem_singleton] at hq
    rcases hq with hq | rfl
    · have hqp : q ≠ p := fun heq => hnew (heq ▸ hq)
      simpa only [clientTo, Function.update_of_ne hqp] using h.waits q hq
    · simp [clientTo]
  · rw [Pager.pending, clientTo, hpending, List.mem_append, List.mem_singleton]
    by_cases hqp : q = p
    · exact Or.inr hqp
    · simp only [clientTo, Function.update_of_ne hqp] at hq hserved
      exact Or.inl (h.complete hcrash q hq hserved)

/-- A step of a client within its request leaves the queue as it is. -/
theorem Queued.clientTo (h : s.Queued) {point : ClientPoint} (hidle : s.client p ≠ .idle)
    (hpoint : point ≠ .idle) : (s.clientTo p point).Queued := by
  have hsame : ∀ q, (s.clientTo p point).client q = .idle ↔ s.client q = .idle := by
    intro q
    by_cases hqp : q = p
    · subst hqp
      simp [Pager.clientTo, hidle, hpoint]
    · simp [Pager.clientTo, Function.update_of_ne hqp]
  exact ⟨h.nodup, fun q hq => ⟨fun hq' => (h.waits q hq).1 ((hsame q).1 hq'), (h.waits q hq).2⟩,
    fun hcrash q hq hserved => h.complete hcrash q (fun hq' => hq ((hsame q).2 hq')) hserved⟩

theorem Queued.serves (h : s.Queued) (hserving : Serving s s') : s'.Queued := by
  refine ⟨hserving.pending ▸ h.nodup, ?_, fun _ => ?_⟩
  · rw [hserving.pending, hserving.client, hserving.served]
    exact h.waits
  · rw [hserving.pending, hserving.client, hserving.served]
    exact h.complete hserving.running

theorem Queued.crashes (h : s.Queued) : Queued { s with listener := .crashed } := by
  have hsublist : s.backlog.Sublist s.pending := List.sublist_append_right ..
  exact ⟨h.nodup.sublist hsublist, fun q hq => h.waits q (hsublist.subset hq),
    fun hcrash => absurd rfl hcrash⟩

/-- The client that is let go leaves the queue, and no other one with it. -/
theorem Queued.letsGo (h : s.Queued) (hgo : LetsGo s p s') : s'.Queued := by
  have hcons := h.nodup
  rw [hgo.pending, List.nodup_cons] at hcons
  -- for every other client nothing changes
  have hclient : ∀ {q}, q ≠ p → s'.client q = s.client q := by
    intro q hqp
    rw [hgo.client]
    split_ifs
    · exact Function.update_of_ne hqp ..
    · rfl
  have hserved : ∀ {q}, q ≠ p → s'.served q = s.served q := by
    intro q hqp
    rw [hgo.served]
    exact Function.update_of_ne hqp ..
  refine ⟨hcons.2, fun q hq => ?_, fun _ q hq hq' => ?_⟩
  · have hqp : q ≠ p := fun heq => hcons.1 (heq ▸ hq)
    rw [hclient hqp, hserved hqp]
    exact h.waits q (hgo.pending ▸ List.mem_cons_of_mem p hq)
  · have hqp : q ≠ p := by
      rintro rfl
      simp [hgo.served] at hq'
    rw [hclient hqp] at hq
    rw [hserved hqp] at hq'
    have hmem := h.complete (by simp [hgo.listener]) q hq hq'
    rw [hgo.pending] at hmem
    exact (List.mem_cons.1 hmem).resolve_left hqp

theorem Queued.step (h : s.Queued) (hs : s.step e = .ok s') : s'.Queued := by
  cases moves hs with
  | joins p hidle =>
      exact h.joins hidle
  | sends p hconnected =>
      exact h.clientTo (by simp [hconnected]) (by simp)
  | stops p hsent =>
      exact h.clientTo (by simp [hsent]) (by simp)
  | serves _ _ hserving =>
      exact h.serves hserving
  | crashes p _ =>
      exact h.crashes
  | letsGo p hgo =>
      exact h.letsGo hgo

theorem queued_run {es : List PagerEvent} (hrun : run step init es = .ok s) : s.Queued :=
  run_invariant (fun _ _ _ h hs => h.step hs) queued_init hrun

/-! ## Order -/

/-- The clients that connected in `past` are those let go, the one that a crash has left behind, and the
queue, in this order; and the snapshots and recordings are those of the first ones. -/
def InOrder (s : Pager) (past : List PagerEvent) : Prop :=
  ∃ done lost, past.filterMap PagerEvent.connects = done ++ lost ++ s.pending ∧
    done.length = past.countP PagerEvent.isSigcont ∧
    lost.length = (if s.listener = .crashed then 1 else 0) ∧
    s.snapshots.map Prod.fst = done ++ s.listener.snapshotted ∧
    s.recordings.map Prod.fst = done ++ s.listener.recorded

theorem inOrder_init : init.InOrder [] :=
  ⟨[], [], rfl, rfl, rfl, rfl, rfl⟩

theorem InOrder.step {past : List PagerEvent} (h : s.InOrder past) (hs : s.step e = .ok s') :
    s'.InOrder (past ++ [e]) := by
  obtain ⟨done, lost, hconnects, hdone, hlost, hsnapshots, hrecordings⟩ := h
  simp only [InOrder, List.filterMap_append, List.countP_append, hconnects, ← hdone]
  cases moves hs with
  | joins p _ =>
      refine ⟨done, lost, ?_, rfl, hlost, hsnapshots, hrecordings⟩
      simp [Pager.pending, clientTo, PagerEvent.connects]
  | sends p _ =>
      exact ⟨done, lost, List.append_nil _, rfl, hlost, hsnapshots, hrecordings⟩
  | stops p _ =>
      exact ⟨done, lost, List.append_nil _, rfl, hlost, hsnapshots, hrecordings⟩
  | serves hlistener hsigcont hserving =>
      have hnone : e.connects = none := by
        cases e with
        | connect p =>
            cases hlistener
        | _ =>
            rfl
      refine ⟨done, lost, ?_, ?_, ?_, hserving.snapshots done hsnapshots,
        hserving.recordings done hrecordings⟩
      · simp [hnone, hserving.pending]
      · simp [hsigcont]
      · rw [hlost, if_neg hserving.running, if_neg hserving.running']
  | crashes p hlistener =>
      -- the client whose snapshot fails is the one left behind
      have hnil : lost = [] := by
        rw [if_neg (by simp [hlistener])] at hlost
        exact List.eq_nil_of_length_eq_zero hlost
      subst hnil
      refine ⟨done, [p], ?_, rfl, rfl, ?_, ?_⟩
      · simp [Pager.pending, hlistener, ListenerPoint.serving, PagerEvent.connects]
      · simpa only [hlistener, ListenerPoint.snapshotted] using hsnapshots
      · simpa only [hlistener, ListenerPoint.recorded] using hrecordings
  | letsGo p hgo =>
      have hnil : lost = [] := by
        rw [if_neg (by simp [hgo.listener])] at hlost
        exact List.eq_nil_of_length_eq_zero hlost
      subst hnil
      refine ⟨done ++ [p], [], ?_, ?_, ?_, ?_, ?_⟩
      · simp [hgo.pending, PagerEvent.connects]
      · simp [PagerEvent.isSigcont]
      · simp [hgo.listener']
      · rw [hgo.snapshots, hsnapshots, hgo.listener, hgo.listener']
        simp [ListenerPoint.snapshotted]
      · rw [hgo.recordings, hrecordings, hgo.listener, hgo.listener']
        simp [ListenerPoint.recorded]

/-- The listener serves the requests in the order of the connections and none of them twice, and what it
has not served yet is its queue, but for the one request in which it has crashed. -/
theorem served_in_order {es : List PagerEvent} (hrun : run step init es = .ok s) : s.InOrder es := by
  have h := run_traced (I := InOrder) (fun _ _ _ _ h hs => h.step hs) inOrder_init hrun
  rwa [List.nil_append] at h

/-- Client 2 has stopped while the listener serves client 1, which connected first. -/
def twoClients : List PagerEvent :=
  [.connect 1, .connect 2, .send 2, .send 1, .stop 1, .accept, .recv, .takeSnapshot true, .stop 2,
    .startRecording]

theorem served_in_order_twoClients : ∃ s, run step init twoClients = .ok s ∧ s.InOrder twoClients := by
  obtain ⟨s, hrun⟩ : ∃ s, run step init twoClients = .ok s := ⟨_, rfl⟩
  exact ⟨s, hrun, served_in_order hrun⟩

/-! ## A stopped client -/

theorem work_pos : 0 < s.work p := by
  unfold work
  by_cases hserving : p ∈ s.listener.serving
  · -- whom the listener serves has at least its `SIGCONT` before it
    rw [if_pos hserving]
    cases hlistener : s.listener with
    | accept =>
        simp [hlistener, ListenerPoint.serving] at hserving
    | crashed =>
        simp [hlistener, ListenerPoint.serving] at hserving
    | recv q =>
        simp [ListenerPoint.left]
    | takeSnapshot q =>
        simp [ListenerPoint.left]
    | startRecording q =>
        simp [ListenerPoint.left]
    | sigcont q =>
        simp [ListenerPoint.left]
  · rw [if_neg hserving]
    omega

theorem crashed_step (hcrash : s.listener = .crashed) (hs : s.step e = .ok s') :
    s'.listener = .crashed := by
  cases moves hs with
  | joins p _ =>
      exact hcrash
  | sends p _ =>
      exact hcrash
  | stops p _ =>
      exact hcrash
  | serves _ _ hserving =>
      exact absurd hcrash hserving.running
  | crashes p _ =>
      rfl
  | letsGo p hgo =>
      rw [hgo.listener] at hcrash
      cases hcrash

theorem LetsGo.idle (h : LetsGo s p s') (hstopped : s.stopped p = true) : s'.client p = .idle := by
  rw [h.client, if_pos hstopped]
  exact Function.update_self ..

/-- At its `SIGCONT` a client has one step to go. -/
theorem LetsGo.work (h : LetsGo s p s') : s.work p = 1 := by
  simp [Pager.work, h.listener, ListenerPoint.serving, ListenerPoint.left]

/-- A client that is stopped stays so, but for the `SIGCONT` that it gets at its turn. -/
theorem stopped_step (hstopped : s.stopped p = true) (hs : s.step e = .ok s') :
    s'.stopped p = true ∨ e = .sigcont ∧ LetsGo s p s' := by
  have hclient : s.client p = .stopped := by
    simpa [stopped] using hstopped
  have hother : ∀ {q point}, s.client q ≠ .stopped → (s.clientTo q point).stopped p = true := by
    intro q point hq
    have hpq : p ≠ q := fun heq => hq (heq ▸ hclient)
    simp [stopped, clientTo, Function.update_of_ne hpq, hclient]
  cases moves hs with
  | joins q hidle =>
      exact Or.inl (@hother q .connected (by simp [hidle]))
  | sends q hconnected =>
      exact Or.inl (hother (by simp [hconnected]))
  | stops q hsent =>
      exact Or.inl (hother (by simp [hsent]))
  | serves _ _ hserving =>
      rw [stopped, hserving.client]
      exact Or.inl hstopped
  | crashes q _ =>
      exact Or.inl hstopped
  | letsGo q hgo =>
      by_cases hpq : p = q
      · subst hpq
        exact Or.inr ⟨rfl, hgo⟩
      · left
        rw [stopped, hgo.client]
        split_ifs
        · rw [Function.update_of_ne hpq, hclient]
          rfl
        · exact hstopped

/-- Each step of the listener brings a client that stays stopped in the queue nearer to its turn, and no
other step does. -/
theorem work_step (hp : p ∈ s.pending) (hstopped : s.stopped p = true) (hs : s.step e = .ok s')
    (hstopped' : s'.stopped p = true) (hrunning : s'.listener ≠ .crashed) :
    p ∈ s'.pending ∧ s'.work p + (if e.isListeners then 1 else 0) = s.work p := by
  cases moves hs with
  | joins q hidle =>
      constructor
      · simp only [Pager.pending, clientTo_listener, ← List.append_assoc]
        exact List.mem_append_left [q] hp
      · by_cases hserving : p ∈ s.listener.serving
        · simp [work, hserving, PagerEvent.isListeners]
        · -- a new client comes behind `p`
          have hbacklog : p ∈ s.backlog := (List.mem_append.1 hp).resolve_left hserving
          have hindex : (s.backlog ++ [q]).idxOf p = s.backlog.idxOf p := by
            rw [List.idxOf_append, if_pos hbacklog]
          simp [work, hserving, PagerEvent.isListeners, hindex]
  | sends q _ =>
      exact ⟨hp, rfl⟩
  | stops q _ =>
      exact ⟨hp, rfl⟩
  | serves hlistener _ hserving =>
      rw [if_pos hlistener, hserving.pending]
      exact ⟨hp, hserving.work p hp⟩
  | crashes q _ =>
      exact absurd rfl hrunning
  | letsGo q hgo =>
      have hpq : p ≠ q := by
        rintro rfl
        simp [stopped, hgo.idle hstopped] at hstopped'
      constructor
      · rw [hgo.pending] at hp
        exact (List.mem_cons.1 hp).resolve_left hpq
      · simp only [work, hgo.listener, hgo.listener', hgo.backlog, ListenerPoint.serving,
          ListenerPoint.left, List.mem_singleton, hpq, List.not_mem_nil, if_false,
          PagerEvent.isListeners, if_true]
        omega

theorem Queued.mem_pending (h : s.Queued) (hstopped : s.stopped p = true)
    (hserved : s.served p = false) (hrunning : s.listener ≠ .crashed) : p ∈ s.pending := by
  have hclient : s.client p = .stopped := by
    simpa [stopped] using hstopped
  exact h.complete hrunning p (by simp [hclient]) hserved

theorem crashed_run {es : List PagerEvent} (hcrash : s.listener = .crashed)
    (hrun : run step s es = .ok s') : s'.listener = .crashed :=
  run_invariant (I := fun s => s.listener = .crashed) (fun _ _ _ h hs => crashed_step h hs) hcrash hrun

/-- A client in the queue is stopped until the listener takes the last of the steps before its turn. -/
theorem stopped_run {es : List PagerEvent} :
    ∀ {s : Pager}, p ∈ s.pending → s.stopped p = true → run step s es = .ok s' →
      s'.listener ≠ .crashed →
      (Throughout step (fun s => s.stopped p = true) s es ↔
        es.countP PagerEvent.isListeners < s.work p) := by
  induction es with
  | nil =>
      intro s hp hstopped _ _
      simpa [Throughout, hstopped] using work_pos
  | cons e es ih =>
      intro s hp hstopped hrun hrunning
      obtain ⟨s₁, hs, hrest⟩ := run_cons_ok.1 hrun
      have hrunning₁ : s₁.listener ≠ .crashed := fun hcrash => hrunning (crashed_run hcrash hrest)
      have hsplit : Throughout step (fun s => s.stopped p = true) s (e :: es) ↔
          Throughout step (fun s => s.stopped p = true) s₁ es := by
        simp only [Throughout, hstopped, hs, true_and, Except.ok.injEq, forall_eq']
      rw [hsplit, List.countP_cons]
      -- the work left pays for each step of the listener, the last one for the `SIGCONT`
      rcases stopped_step hstopped hs with hstopped₁ | ⟨rfl, hgo⟩
      · obtain ⟨hp₁, hwork⟩ := work_step hp hstopped hs hstopped₁ hrunning₁
        rw [ih hp₁ hstopped₁ hrest hrunning]
        omega
      · have hstart : ¬Throughout step (fun s => s.stopped p = true) s₁ es := by
          intro h
          have hstopped₁ : s₁.stopped p = true := h.start
          simp [stopped, hgo.idle hstopped] at hstopped₁
        simp [hstart, hgo.work, PagerEvent.isListeners]

/-- In every reachable state, a stopped client whose request has not been served gets its `SIGCONT` with
the last of the steps that the listener takes for the clients before it and for itself, and not before,
whatever these and all other clients do. -/
theorem stopped_until_turn {es es' : List PagerEvent} (hrun : run step init es = .ok s)
    (hstopped : s.stopped p = true) (hserved : s.served p = false) (hrun' : run step s es' = .ok s')
    (hrunning : s'.listener ≠ .crashed) :
    Throughout step (fun s => s.stopped p = true) s es' ↔
      es'.countP PagerEvent.isListeners < s.work p := by
  have hrunning₀ : s.listener ≠ .crashed := fun hcrash => hrunning (crashed_run hcrash hrun')
  exact stopped_run ((queued_run hrun).mem_pending hstopped hserved hrunning₀) hstopped hrun' hrunning

/-- Client 2 is stopped until the sixth step of the listener. -/
theorem stopped_until_turn_twoClients :
    ∃ s, run step init twoClients = .ok s ∧
      ¬Throughout step (fun s => s.stopped 2 = true) s
        [.sigcont, .accept, .recv, .takeSnapshot true, .startRecording, .sigcont] := by
  obtain ⟨s, hrun⟩ : ∃ s, run step init twoClients = .ok s := ⟨_, rfl⟩
  refine ⟨s, hrun, ?_⟩
  cases hrun
  have hrun₀ : run step init twoClients = .ok _ := rfl
  rw [stopped_until_turn (p := 2) hrun₀ rfl rfl rfl (by simp)]
  decide

/-! ## Who is continued -/

/-- With a client in the queue the listener can go on, unless it waits for the pid of the one it serves. -/
theorem listener_steps (hrunning : s.listener ≠ .crashed) (hp : p ∈ s.pending)
    (hready : ∀ q, s.listener = .recv q → s.client q = .sent ∨ s.client q = .stopped) :
    ∃ e s', e.isListeners = true ∧ s.step e = .ok s' ∧ s'.listener ≠ .crashed := by
  cases hlistener : s.listener with
  | accept =>
      have hbacklog : p ∈ s.backlog := by
        simpa [pending, hlistener, ListenerPoint.serving] using hp
      obtain ⟨q, rest, hcons⟩ := List.exists_cons_of_ne_nil (List.ne_nil_of_mem hbacklog)
      refine ⟨.accept, { s with listener := .recv q, backlog := rest }, rfl, ?_, by simp⟩
      rw [Pager.step, Pager.accept, hlistener, hcons]
  | recv q =>
      refine ⟨.recv, { s with listener := .takeSnapshot q }, rfl, ?_, by simp⟩
      rw [Pager.step, Pager.recv, hlistener]
      exact if_pos (hready q hlistener)
  | takeSnapshot q =>
      refine ⟨.takeSnapshot true, { s with
        listener := .startRecording q, snapshots := s.snapshots ++ [(q, s.stopped q)] }, rfl, ?_, by simp⟩
      rw [Pager.step, Pager.takeSnapshot, hlistener]
      rfl
  | startRecording q =>
      refine ⟨.startRecording, { s with
        listener := .sigcont q, recordings := s.recordings ++ [(q, s.stopped q)] }, rfl, ?_, by simp⟩
      rw [Pager.step, Pager.startRecording, hlistener]
  | sigcont q =>
      refine ⟨.sigcont, { (if s.stopped q then s.clientTo q .idle else s) with
        listener := .accept, served := Function.update (if s.stopped q then s.clientTo q .idle else s).served
          q true }, rfl, ?_, by simp⟩
      rw [Pager.step, Pager.sigcont, hlistener]
  | crashed =>
      exact absurd hlistener hrunning

/-- A stopped client in the queue can be continued. -/
theorem Queued.can_continue (n : Nat) : ∀ {s : Pager}, s.Queued → s.listener ≠ .crashed →
    p ∈ s.pending → s.stopped p = true → s.work p = n →
      ∃ es s', run Pager.step s es = .ok s' ∧ s'.client p = .idle := by
  induction n with
  | zero =>
      intro s _ _ _ _ hwork
      exact absurd hwork work_pos.ne'
  | succ n ih =>
      -- a step of the listener leaves less work to do, if it is not the `SIGCONT` of `p`
      have hready : ∀ {s : Pager}, s.Queued → s.listener ≠ .crashed → p ∈ s.pending →
          s.stopped p = true → s.work p = n + 1 →
          (∀ q, s.listener = .recv q → s.client q = .sent ∨ s.client q = .stopped) →
          ∃ es s', run Pager.step s es = .ok s' ∧ s'.client p = .idle := by
        intro s h hrunning hp hstopped hwork hready
        obtain ⟨e, s₁, hlistener, hs, hrunning₁⟩ := listener_steps hrunning hp hready
        rcases stopped_step hstopped hs with hstopped₁ | ⟨_, hgo⟩
        · obtain ⟨hp₁, hwork₁⟩ := work_step hp hstopped hs hstopped₁ hrunning₁
          rw [if_pos hlistener] at hwork₁
          obtain ⟨es, s', hrun, hidle⟩ :=
            ih (h.step hs) hrunning₁ hp₁ hstopped₁ (by omega)
          exact ⟨e :: es, s', run_cons_ok.2 ⟨s₁, hs, hrun⟩, hidle⟩
        · exact ⟨[e], s₁, run_cons_ok.2 ⟨s₁, hs, rfl⟩, hgo.idle hstopped⟩
      intro s h hrunning hp hstopped hwork
      by_cases hconnected : ∃ q, s.listener = .recv q ∧ s.client q = .connected
      · -- the client that the listener waits for sends first
        obtain ⟨q, hlistener, hq⟩ := hconnected
        have hs : s.step (.send q) = .ok (s.clientTo q .sent) := by
          simp only [Pager.step, Pager.send, hq, if_true]
        have hstopped₁ : (s.clientTo q .sent).stopped p = true := by
          rcases stopped_step hstopped hs with hstopped₁ | ⟨he, _⟩
          · exact hstopped₁
          · cases he
        obtain ⟨es, s', hrun, hidle⟩ := hready (h.step hs) hrunning hp hstopped₁ hwork
          fun q' hq' => by
            rw [clientTo_listener, hlistener] at hq'
            cases hq'
            exact Or.inl (Function.update_self ..)
        exact ⟨.send q :: es, s', run_cons_ok.2 ⟨_, hs, hrun⟩, hidle⟩
      · refine hready h hrunning hp hstopped hwork fun q hlistener => ?_
        have hwaits : s.client q ≠ .idle := by
          refine (h.waits q ?_).1
          simp [pending, hlistener, ListenerPoint.serving]
        cases hq : s.client q with
        | idle =>
            exact absurd hq hwaits
        | connected =>
            exact absurd ⟨q, hlistener, hq⟩ hconnected
        | sent =>
            exact Or.inl rfl
        | stopped =>
            exact Or.inr rfl

/-- A request that was served before its client stopped is served for good. -/
theorem served_step (hstopped : s.stopped p = true)
    (hserved : s.served p = true) (hs : s.step e = .ok s') : s'.served p = true := by
  cases moves hs with
  | joins q hidle =>
      have hpq : p ≠ q := by
        rintro rfl
        simp [stopped, hidle] at hstopped
      exact (Function.update_of_ne hpq ..).trans hserved
  | sends q _ =>
      exact hserved
  | stops q _ =>
      exact hserved
  | serves _ _ hserving =>
      rw [hserving.served]
      exact hserved
  | crashes q _ =>
      exact hserved
  | letsGo q hgo =>
      rw [hgo.served]
      by_cases hpq : p = q
      · subst hpq
        exact Function.update_self ..
      · exact (Function.update_of_ne hpq ..).trans hserved

/-- A client that is stopped for good. -/
structure Lost (p : Pid) (s : Pager) : Prop where
  queued : s.Queued
  stopped : s.stopped p = true
  reason : s.served p = true ∨ s.listener = .crashed

theorem Lost.step (h : Lost p s) (hs : s.step e = .ok s') : Lost p s' := by
  have hgo : ¬LetsGo s p s' := by
    -- the listener lets go whom it serves, and it is not serving `p`
    intro hgo
    rcases h.reason with hserved | hcrash
    · have hmem : p ∈ s.pending := hgo.pending ▸ List.mem_cons_self
      rw [(h.queued.waits p hmem).2] at hserved
      cases hserved
    · rw [hgo.listener] at hcrash
      cases hcrash
  refine ⟨h.queued.step hs, ?_, ?_⟩
  · exact (stopped_step h.stopped hs).resolve_right fun hsigcont => hgo hsigcont.2
  · rcases h.reason with hserved | hcrash
    · exact Or.inl (served_step h.stopped hserved hs)
    · exact Or.inr (crashed_step hcrash hs)

/-- A stopped client can be continued in a reachable state exactly if it did not come to stop itself after
its request was served, and the listener has not crashed. -/
theorem continued_iff {es : List PagerEvent} (hrun : run step init es = .ok s)
    (hstopped : s.stopped p = true) :
    (∃ es' s', run step s es' = .ok s' ∧ s'.client p = .idle) ↔
      s.served p = false ∧ s.listener ≠ .crashed := by
  have hqueued := queued_run hrun
  constructor
  · -- a client that is lost stays so in every run
    rintro ⟨es', s', hrun', hidle⟩
    refine Classical.byContradiction fun hnot => ?_
    have hlost : Lost p s := by
      refine ⟨hqueued, hstopped, ?_⟩
      by_cases hserved : s.served p = true
      · exact Or.inl hserved
      · exact Or.inr (Classical.byContradiction fun hcrash => hnot ⟨by simpa using hserved, hcrash⟩)
    have hlost' := run_invariant (I := Lost p) (fun _ _ _ h hs => h.step hs) hlost hrun'
    have hstopped' := hlost'.stopped
    simp [stopped, hidle] at hstopped'
  · rintro ⟨hserved, hrunning⟩
    exact Queued.can_continue _ hqueued hrunning (hqueued.mem_pending hstopped hserved hrunning) hstopped
      rfl

/-- Client 2 can be continued, and the client that the listener was too fast for cannot. -/
theorem continued_iff_twoClients :
    ∃ s s₁, run step init twoClients = .ok s ∧ run step init fastListener = .ok s₁ ∧
      (∃ es' s', run step s es' = .ok s' ∧ s'.client 2 = .idle) ∧
      ¬∃ es' s', run step s₁ es' = .ok s' ∧ s'.client 1 = .idle := by
  obtain ⟨s, hrun⟩ : ∃ s, run step init twoClients = .ok s := ⟨_, rfl⟩
  obtain ⟨s₁, hrun₁⟩ : ∃ s, run step init fastListener = .ok s := ⟨_, rfl⟩
  refine ⟨s, s₁, hrun, hrun₁, ?_, ?_⟩
  · have hstopped : s.stopped 2 = true ∧ s.served 2 = false ∧ s.listener ≠ .crashed := by
      cases hrun
      exact ⟨rfl, rfl, by simp⟩
    exact (continued_iff hrun hstopped.1).2 hstopped.2
  · have hstopped : s₁.stopped 1 = true ∧ s₁.served 1 = true := by
      cases hrun₁
      exact ⟨rfl, rfl⟩
    intro hcontinued
    have hserved := ((continued_iff hrun₁ hstopped.1).1 hcontinued).1
    rw [hstopped.2] at hserved
    cases hserved

end Pager
end RrPython
