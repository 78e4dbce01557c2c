import RrPython.Recorder.FifoIntegrity

/-!
# LostWakeUp — when a blocked reader is woken up

A reader tests the FIFO, gives the mutex back and only then marks itself as sleeping.  A record that is
pushed in between finds nobody to wake up, and the reader goes to sleep beside it.  Unless that
happens, a record in the FIFO always has a pusher that is still about to wake the sleepers up.
-/

namespace RrPython

open Foundation

namespace Task

/-- The task has found the FIFO empty, has given the mutex back and does not sleep yet. -/
def inWindow : Task → Bool
  | .reading nonblock point => point == .prepareToWait || (point == .testNonblock && !nonblock)
  | _ => false

/-- The task has pushed its record and not called `wake_up` yet. -/
def wakes : Task → Bool
  | .pushing _ point => point == .wakeUp
  | _ => false

theorem critical_of_wakes {task : Task} (h : task.wakes = true) : task.critical = true := by
  cases task with
  | outside =>
      cases h
  | pushing record point =>
      cases point <;> simp_all [wakes, critical]
  | reading nonblock point =>
      cases h

end Task

namespace FifoSys

/-- A reader is blocked in `schedule()` although there is a record and nobody about to call `wake_up`. -/
def LostWakeUp (s : FifoSys) : Prop :=
  (∃ r nonblock, s.task r = .reading nonblock .asleep ∧ s.sleeping r = true) ∧
    s.fifo ≠ [] ∧ ∀ t, (s.task t).wakes = false

/-- If the step is a `wake_up`, then no reader that could go to sleep is still to mark itself as
sleeping. -/
def WakesInTime (s : FifoSys) : FifoEvent → Prop
  | .advance t _ =>
      (s.task t).wakes = true → ∀ r, (s.task r).inWindow = true → s.signalled r = true
  | _ => True

/-! ## The invariant -/

/-- `r` is asleep or will be without another look at the FIFO. -/
def Waits (s : FifoSys) (r : Pid) : Prop :=
  ((s.task r).inWindow = true ∨ s.sleeping r = true) ∧ s.signalled r = false

/-- A task sleeps only where `read_proc` put it to sleep. -/
def SleepsInPlace (s : FifoSys) (r : Pid) : Prop :=
  s.sleeping r = true → ∃ nonblock, s.task r = .reading nonblock .schedule ∨
    (s.task r = .reading nonblock .asleep ∧ s.signalled r = false)

structure WakeInv (s : FifoSys) : Prop where
  base : s.Inv
  inPlace : ∀ r, s.SleepsInPlace r
  pending : ∀ r, s.Waits r → s.fifo ≠ [] → ∃ t, (s.task t).wakes = true

theorem wakeInv_init : init.WakeInv := by
  refine ⟨inv_init, fun r h => ?_, fun r h hfifo => ?_⟩
  · cases h
  · exact absurd rfl hfifo

theorem WakeInv.not_lostWakeUp {s : FifoSys} (h : s.WakeInv) : ¬s.LostWakeUp := by
  rintro ⟨⟨r, nonblock, htask, hsleeping⟩, hfifo, hnone⟩
  have hsignalled : s.signalled r = false := by
    rcases h.inPlace r hsleeping with ⟨nonblock', hschedule | ⟨_, hsignalled⟩⟩
    · rw [htask] at hschedule
      cases hschedule
    · exact hsignalled
  rcases h.pending r ⟨Or.inr hsleeping, hsignalled⟩ hfifo with ⟨t, hwakes⟩
  rw [hnone t] at hwakes
  cases hwakes

variable {s s' : FifoSys} {t : Pid} {task : Task}

theorem wakesInTime_of_not_wakes {result : DumpResult} (h : (s.task t).wakes = false) :
    s.WakesInTime (.advance t result) := by
  intro hwakes
  rw [h] at hwakes
  cases hwakes

/-! ## One step -/

theorem sleepsInPlace_of_awake {s : FifoSys} {t : Pid} (h : s.sleeping t = false) :
    s.SleepsInPlace t := by
  intro hsleeping
  rw [h] at hsleeping
  cases hsleeping

/-- A task that is at no sleeping place is awake. -/
theorem WakeInv.awake (h : s.WakeInv) (hschedule : ∀ nonblock, s.task t ≠ .reading nonblock .schedule)
    (hasleep : ∀ nonblock, s.task t ≠ .reading nonblock .asleep) : s.sleeping t = false := by
  cases hsleeping : s.sleeping t with
  | false =>
      rfl
  | true =>
      rcases h.inPlace t hsleeping with ⟨nonblock, hat | ⟨hat, _⟩⟩
      · exact absurd hat (hschedule nonblock)
      · exact absurd hat (hasleep nonblock)

theorem not_waits (hwindow : (s.task t).inWindow = false) (hawake : s.sleeping t = false) :
    ¬s.Waits t := by
  rintro ⟨hin | hsleeping, _⟩
  · rw [hwindow] at hin
    cases hin
  · rw [hawake] at hsleeping
    cases hsleeping

/-- A step of `t` that wakes nobody keeps the invariant if `t` does not start to wait beside a record. -/
theorem WakeInv.move (h : s.WakeInv) (t : Pid) (task : Task) (hinv : s'.Inv)
    (htask : s'.task = Function.update s.task t task) (hwakes : (s.task t).wakes = false)
    (hsleeping : ∀ u, u ≠ t → s'.sleeping u = s.sleeping u)
    (hsignalled : ∀ u, u ≠ t → s'.signalled u = s.signalled u)
    (hfifo : s'.fifo ≠ [] → s.fifo ≠ []) (hplace : s'.SleepsInPlace t)
    (hwaits : s'.Waits t → s'.fifo ≠ [] → s.Waits t) : s'.WakeInv := by
  have hother : ∀ {u}, u ≠ t → s'.task u = s.task u := by
    intro u hu
    rw [htask, Function.update_of_ne hu]
  refine ⟨hinv, fun u => ?_, fun u hu hfilled => ?_⟩
  · by_cases hut : u = t
    · exact hut ▸ hplace
    · intro hasleep
      rw [hsleeping u hut] at hasleep
      rw [hother hut, hsignalled u hut]
      exact h.inPlace u hasleep
  · have hu' : s.Waits u := by
      by_cases hut : u = t
      · subst hut
        exact hwaits hu hfilled
      · unfold Waits at hu ⊢
        rwa [hother hut, hsleeping u hut, hsignalled u hut] at hu
    -- the pusher that has not woken the sleepers up is another task, and is still there
    rcases h.pending u hu' (hfifo hfilled) with ⟨p, hp⟩
    have hpt : p ≠ t := by
      rintro rfl
      rw [hwakes] at hp
      cases hp
    exact ⟨p, by rwa [hother hpt]⟩

/-- A step that leaves the sleeping tasks, the signals and the FIFO alone, from a place where `t` is
awake to one that is not in the window. -/
theorem WakeInv.stay (h : s.WakeInv) (t : Pid) (task : Task) (hinv : s'.Inv)
    (htask : s'.task = Function.update s.task t task) (hwakes : (s.task t).wakes = false)
    (hsleeping : s'.sleeping = s.sleeping) (hsignalled : ∀ u, u ≠ t → s'.signalled u = s.signalled u)
    (hfifo : s'.fifo ≠ [] → s.fifo ≠ []) (hawake : s.sleeping t = false)
    (hwindow : task.inWindow = false) : s'.WakeInv := by
  have hawake' : s'.sleeping t = false := by
    rw [hsleeping, hawake]
  refine h.move t task hinv htask hwakes (fun u _ => by rw [hsleeping]) hsignalled hfifo
    (sleepsInPlace_of_awake hawake') fun hwaits => ?_
  refine absurd hwaits (not_waits ?_ hawake')
  rwa [htask, Function.update_self]

theorem WakeInv.pushStep (h : s.WakeInv) {record : Ptr} {point : PushPoint}
    (htask : s.task t = .pushing record point)
    (htime : point = .wakeUp → ∀ r, (s.task r).inWindow = true → s.signalled r = true)
    (hs : s.pushStep t record point = .ok s') : s'.WakeInv := by
  have hinv : s'.Inv := (h.base.pushStep htask).of_ok hs
  have hawake : s.sleeping t = false := by
    apply h.awake <;> simp [htask]
  cases point with
  | lock =>
      unfold FifoSys.pushStep mutexLock at hs
      cases hmutex : s.mutex with
      | some u =>
          rw [hmutex] at hs
          cases hs
      | none =>
          rw [hmutex] at hs
          cases hs
          exact h.stay t (.pushing record .push) hinv rfl (by rw [htask]; rfl) rfl
            (fun _ _ => rfl) id hawake rfl
  | push =>
      simp only [FifoSys.pushStep] at hs
      split_ifs at hs with hn
      · -- `t` itself is now about to wake the sleepers up
        cases hs
        refine ⟨hinv, fun u => ?_, fun u _ _ => ⟨t, ?_⟩⟩
        · by_cases hut : u = t
          · subst hut
            exact sleepsInPlace_of_awake hawake
          · intro hasleep
            have hplace := h.inPlace u hasleep
            simpa only [goto, FifoSys.kfifoIn, Function.update_of_ne hut] using hplace
        · simp [goto, Task.wakes]
      · cases hs
        have hsame : (s.kfifoIn record).1.fifo = s.fifo := by
          rcases (h.base.queue.kfifoIn record).2 with ⟨hstored, _⟩ | ⟨_, hsame⟩
          · exact absurd hstored hn
          · exact hsame
        exact h.stay t (.pushing record .freeRecord) hinv rfl (by rw [htask]; rfl) rfl
          (fun _ _ => rfl) (fun hfilled => hsame ▸ hfilled) hawake rfl
  | wakeUp =>
      cases hs
      -- every sleeping task is listed, so nobody sleeps any more
      have hnone : ∀ u, (s.wakeUp.goto t (.pushing record .unlock)).sleeping u = false := by
        intro u
        cases hsleeping : s.sleeping u with
        | false =>
            simp [goto, FifoSys.wakeUp, hsleeping]
        | true =>
            simp [goto, FifoSys.wakeUp, hsleeping, h.base.listed u hsleeping]
      refine ⟨hinv, fun u => sleepsInPlace_of_awake (hnone u), fun u hu _ => ?_⟩
      refine absurd hu ?_
      by_cases hut : u = t
      · subst hut
        exact not_waits (by simp [goto, Task.inWindow]) (hnone u)
      · rintro ⟨hin | hsleeping, hsignalled⟩
        · have hin' : (s.task u).inWindow = true := by
            simpa only [goto, FifoSys.wakeUp, Function.update_of_ne hut] using hin
          have hpending := htime rfl u hin'
          rw [show s.signalled u = false from hsignalled] at hpending
          cases hpending
        · rw [hnone u] at hsleeping
          cases hsleeping
  | freeRecord =>
      cases hs
      exact h.stay t (.pushing record .unlock) hinv rfl (by rw [htask]; rfl) rfl
        (fun _ _ => rfl) id hawake rfl
  | unlock =>
      cases hs
      exact h.stay t .outside hinv rfl (by rw [htask]; rfl) rfl
        (fun _ hu => Function.update_of_ne hu ..) id hawake rfl

/-- Taking a record does not fill the FIFO. -/
theorem fifo_ne_nil_of_kfifoOut (h : s.kfifoOut.1.fifo ≠ []) : s.fifo ≠ [] := by
  intro hempty
  apply h
  simp [FifoSys.kfifoOut, dequeue, hempty]

theorem WakeInv.dumpStep (h : s.WakeInv) {nonblock : Bool} {result : DumpResult}
    (htask : s.task t = .reading nonblock .dump) (hs : s.dumpStep t nonblock result = .ok s') :
    s'.WakeInv := by
  have hinv : s'.Inv := (h.base.dumpStep htask).of_ok hs
  have hawake : s.sleeping t = false := by
    apply h.awake <;> simp [htask]
  have hgo : ∀ point : ReadPoint, (Task.reading nonblock point).inWindow = false →
      s' = s.kfifoOut.1.goto t (.reading nonblock point) → s'.WakeInv := by
    rintro point hwindow rfl
    exact h.stay t (.reading nonblock point) hinv rfl (by rw [htask]; rfl) rfl
      (fun _ _ => rfl) fifo_ne_nil_of_kfifoOut hawake hwindow
  have hlen := (h.base.queue.kfifoOut (h.base.filled t (by rw [htask]; rfl))).2
  have hwhole : ¬s.kfifoOut.2.length ≠ sizeofPtr := not_not.2 hlen
  simp only [FifoSys.dumpStep, if_neg hwhole] at hs
  cases result with
  | dumped =>
      dsimp only at hs
      split_ifs at hs
      · exact hgo .unlock rfl (Except.ok.inj hs).symm
      · exact hgo .dump rfl (Except.ok.inj hs).symm
  | shortWrite =>
      exact hgo .unlock rfl (Except.ok.inj hs).symm
  | failed =>
      exact hgo .unlock rfl (Except.ok.inj hs).symm

theorem WakeInv.readStep (h : s.WakeInv) {nonblock : Bool} {result : DumpResult} {point : ReadPoint}
    (htask : s.task t = .reading nonblock point)
    (hs : s.readStep t nonblock result point = .ok s') : s'.WakeInv := by
  have hinv : s'.Inv := (h.base.readStep htask).of_ok hs
  have hwakes : (s.task t).wakes = false := by
    rw [htask]
    rfl
  have hawake : point ≠ .schedule → point ≠ .asleep → s.sleeping t = false := by
    intro hschedule hasleep
    apply h.awake <;> simp [htask, hschedule, hasleep]
  cases point with
  | addWaitQueue =>
      cases hs
      exact h.stay t (.reading nonblock .lock) hinv rfl hwakes rfl (fun _ _ => rfl) id
        (hawake (by simp) (by simp)) rfl
  | lock =>
      unfold FifoSys.readStep mutexLock at hs
      cases hmutex : s.mutex with
      | some u =>
          rw [hmutex] at hs
          cases hs
      | none =>
          rw [hmutex] at hs
          cases hs
          exact h.stay t (.reading nonblock .testEmpty) hinv rfl hwakes rfl
            (fun _ _ => rfl) id (hawake (by simp) (by simp)) rfl
  | testEmpty =>
      simp only [FifoSys.readStep] at hs
      split_ifs at hs
      · cases hs
        exact h.stay t (.reading nonblock .unlockEmpty) hinv rfl hwakes rfl
          (fun _ _ => rfl) id (hawake (by simp) (by simp)) rfl
      · cases hs
        exact h.stay t (.reading nonblock .finishWait) hinv rfl hwakes rfl
          (fun _ _ => rfl) id (hawake (by simp) (by simp)) rfl
  | unlockEmpty =>
      cases hs
      -- the reader enters the window, and the FIFO is still as it has found it
      have hempty : s.fifo = [] := h.base.empty t (by rw [htask]; rfl)
      exact h.move t (.reading nonblock .testNonblock) hinv rfl hwakes
        (fun _ _ => rfl) (fun _ _ => rfl) id (sleepsInPlace_of_awake (hawake (by simp) (by simp)))
        fun _ hfilled => absurd hempty hfilled
  | testNonblock =>
      simp only [FifoSys.readStep] at hs
      split_ifs at hs with hnonblock
      · cases hs
        exact h.stay t (.reading nonblock .cleanup) hinv rfl hwakes rfl (fun _ _ => rfl)
          id (hawake (by simp) (by simp)) rfl
      · cases hs
        refine h.move t (.reading nonblock .prepareToWait) hinv rfl hwakes
          (fun _ _ => rfl) (fun _ _ => rfl) id
          (sleepsInPlace_of_awake (hawake (by simp) (by simp))) fun hwaits _ => ⟨Or.inl ?_, hwaits.2⟩
        simp [htask, Task.inWindow, hnonblock]
  | prepareToWait =>
      cases hs
      refine h.move t (.reading nonblock .schedule) hinv rfl hwakes
        (fun _ hu => Function.update_of_ne hu ..) (fun _ _ => rfl) id (fun _ => ?_)
        fun hwaits _ => ⟨Or.inl ?_, hwaits.2⟩
      · exact ⟨nonblock, Or.inl (Function.update_self ..)⟩
      · simp [htask, Task.inWindow]
  | schedule =>
      simp only [FifoSys.readStep] at hs
      split_ifs at hs with hsignalled hsleeping
      · cases hs
        have hrunning : ((s.setRunning t).goto t (.reading nonblock .testSignal)).sleeping t = false :=
          Function.update_self ..
        refine h.move t (.reading nonblock .testSignal) hinv rfl hwakes
          (fun _ hu => Function.update_of_ne hu ..) (fun _ _ => rfl) id
          (sleepsInPlace_of_awake hrunning) fun hwaits _ => ?_
        exact absurd hwaits (not_waits (by simp [goto, Task.inWindow]) hrunning)
      · cases hs
        have hcalm : s.signalled t = false := by
          simpa using hsignalled
        refine h.move t (.reading nonblock .asleep) hinv rfl hwakes (fun _ _ => rfl)
          (fun _ _ => rfl) id (fun _ => ⟨nonblock, Or.inr ⟨Function.update_self .., hcalm⟩⟩)
          fun _ _ => ⟨Or.inr hsleeping, hcalm⟩
      · cases hs
        exact h.stay t (.reading nonblock .testSignal) hinv rfl hwakes rfl
          (fun _ _ => rfl) id (by simpa using hsleeping) rfl
  | asleep =>
      simp only [FifoSys.readStep] at hs
      split_ifs at hs with hsleeping
      cases hs
      exact h.stay t (.reading nonblock .testSignal) hinv rfl hwakes rfl (fun _ _ => rfl)
        id (by simpa using hsleeping) rfl
  | testSignal =>
      simp only [FifoSys.readStep] at hs
      split_ifs at hs
      · cases hs
        exact h.stay t (.reading nonblock .cleanup) hinv rfl hwakes rfl (fun _ _ => rfl)
          id (hawake (by simp) (by simp)) rfl
      · cases hs
        exact h.stay t (.reading nonblock .lock) hinv rfl hwakes rfl (fun _ _ => rfl)
          id (hawake (by simp) (by simp)) rfl
  | finishWait =>
      cases hs
      have hrunning : ((s.finishWait t).goto t (.reading nonblock .dump)).sleeping t = false :=
        Function.update_self ..
      refine h.move t (.reading nonblock .dump) hinv rfl hwakes
        (fun _ hu => Function.update_of_ne hu ..) (fun _ _ => rfl) id
        (sleepsInPlace_of_awake hrunning) fun hwaits _ => ?_
      exact absurd hwaits (not_waits (by simp [goto, Task.inWindow]) hrunning)
  | dump =>
      exact h.dumpStep htask hs
  | unlock =>
      cases hs
      exact h.stay t .outside hinv rfl hwakes rfl
        (fun _ hu => Function.update_of_ne hu ..) id (hawake (by simp) (by simp)) rfl
  | cleanup =>
      cases hs
      have hrunning : ((s.finishWait t).leave t).sleeping t = false :=
        Function.update_self ..
      refine h.move t .outside hinv rfl hwakes
        (fun _ hu => Function.update_of_ne hu ..) (fun _ hu => Function.update_of_ne hu ..) id
        (sleepsInPlace_of_awake hrunning) fun hwaits _ => ?_
      exact absurd hwaits (not_waits (by simp [leave, goto, Task.inWindow]) hrunning)

theorem WakeInv.start (h : s.WakeInv) (hinv : s'.Inv) (hwindow : task.inWindow = false)
    (hs : s.start t task = .ok s') : s'.WakeInv := by
  unfold FifoSys.start at hs
  split at hs
  · rename_i houtside
    cases hs
    refine h.stay t task hinv rfl (by rw [houtside]; rfl) rfl (fun _ _ => rfl) id ?_
      hwindow
    apply h.awake <;> simp [houtside]
  · cases hs

theorem WakeInv.signal (h : s.WakeInv) (hinv : s'.Inv)
    (hs : s' = { s.setRunning t with signalled := Function.update s.signalled t true }) :
    s'.WakeInv := by
  subst hs
  refine ⟨hinv, fun u => ?_, fun u hu => ?_⟩
  · by_cases hut : u = t
    · subst hut
      exact sleepsInPlace_of_awake (Function.update_self ..)
    · simp only [SleepsInPlace, setRunning, Function.update_of_ne hut]
      exact h.inPlace u
  · by_cases hut : u = t
    · subst hut
      have hcalm : Function.update s.signalled u true u = false := hu.2
      rw [Function.update_self] at hcalm
      cases hcalm
    · refine h.pending u ?_
      simpa only [Waits, setRunning, Function.update_of_ne hut] using hu

theorem WakeInv.step (h : s.WakeInv) {e : FifoEvent} (htime : s.WakesInTime e)
    (hs : s.step e = .ok s') : s'.WakeInv := by
  have hinv : s'.Inv := h.base.step_ok hs
  cases e with
  | startPush t record =>
      exact h.start hinv rfl hs
  | startRead t nonblock =>
      exact h.start hinv rfl hs
  | advance t result =>
      simp only [FifoSys.step] at hs
      cases htask : s.task t with
      | outside =>
          rw [htask] at hs
          cases hs
      | pushing record point =>
          rw [htask] at hs
          refine h.pushStep htask ?_ hs
          rintro rfl
          exact htime (by rw [htask]; rfl)
      | reading nonblock point =>
          rw [htask] at hs
          exact h.readStep htask hs
  | signal t =>
      exact h.signal hinv (Except.ok.inj hs).symm

/-! ## Every run -/

/-- A reader about to mark itself as sleeping goes to sleep in two steps. -/
theorem lostWakeUp_of_prepareToWait {r : Pid} {nonblock : Bool}
    (htask : s.task r = .reading nonblock .prepareToWait) (hcalm : s.signalled r = false)
    (hfifo : s.fifo ≠ []) (hnone : ∀ t, (s.task t).wakes = false) (result : DumpResult) :
    ∃ s', run step s [.advance r result, .advance r result] = .ok s' ∧ s'.LostWakeUp := by
  refine ⟨((s.prepareToWait r).goto r (.reading nonblock .schedule)).goto r
    (.reading nonblock .asleep), ?_, ⟨r, nonblock, ?_, ?_⟩, hfifo, fun t => ?_⟩
  · simp [run, FifoSys.step, FifoSys.readStep, FifoSys.prepareToWait, goto, htask, hcalm]
  · exact Function.update_self ..
  · exact Function.update_self ..
  · by_cases htr : t = r
    · subst htr
      simp [goto, Task.wakes]
    · simpa only [goto, FifoSys.prepareToWait, Function.update_of_ne htr] using hnone t

/-- After a `wake_up` that comes too early, the reader needs no more than its own steps to be lost. -/
theorem lostWakeUp_of_inWindow (h : s.Inv) {r : Pid} (hwakes : (s.task t).wakes = true)
    (hwindow : (s.task r).inWindow = true) (hcalm : s.signalled r = false) (result : DumpResult) :
    ∃ es s', run step s (.advance t result :: es) = .ok s' ∧ s'.LostWakeUp := by
  cases htask : s.task t with
  | outside =>
      rw [htask] at hwakes
      cases hwakes
  | reading nonblock point =>
      rw [htask] at hwakes
      cases hwakes
  | pushing record point =>
      have hpoint : point = .wakeUp := by
        simpa [htask, Task.wakes] using hwakes
      subst hpoint
      have hheld : s.mutex = some t := (h.holder t).1 (Task.critical_of_wakes hwakes)
      let s₁ := s.wakeUp.goto t (.pushing record .unlock)
      have hs₁ : s.step (.advance t result) = .ok s₁ := by
        simp only [FifoSys.step, htask]
        rfl
      have hfifo : s₁.fifo ≠ [] := h.filled t (by rw [htask]; rfl)
      -- only the task that holds the mutex can be about to wake the sleepers up
      have hnone : ∀ u, (s₁.task u).wakes = false := by
        intro u
        by_cases hut : u = t
        · subst hut
          simp [s₁, goto, Task.wakes]
        · have hsame : s₁.task u = s.task u := Function.update_of_ne hut ..
          rw [hsame]
          cases hu : (s.task u).wakes with
          | false =>
              rfl
          | true =>
              have hholds := (h.holder u).1 (Task.critical_of_wakes hu)
              rw [hheld] at hholds
              exact absurd (Option.some.inj hholds).symm hut
      have hrt : r ≠ t := by
        rintro rfl
        rw [htask] at hwindow
        cases hwindow
      have hreader : s₁.task r = s.task r := Function.update_of_ne hrt ..
      cases hr : s.task r with
      | outside =>
          rw [hr] at hwindow
          cases hwindow
      | pushing record' point' =>
          rw [hr] at hwindow
          cases hwindow
      | reading nonblock point =>
          have hpoint : point = .prepareToWait ∨ (point = .testNonblock ∧ nonblock = false) := by
            simpa [hr, Task.inWindow] using hwindow
          rcases hpoint with rfl | ⟨rfl, rfl⟩
          · rcases lostWakeUp_of_prepareToWait (hreader.trans hr) hcalm hfifo hnone result with
              ⟨s', hrun, hlost⟩
            exact ⟨_, s', run_cons_ok.2 ⟨s₁, hs₁, hrun⟩, hlost⟩
          · let s₂ := s₁.goto r (.reading false .prepareToWait)
            have hs₂ : s₁.step (.advance r result) = .ok s₂ := by
              simp only [FifoSys.step, hreader.trans hr]
              rfl
            have hnone₂ : ∀ u, (s₂.task u).wakes = false := by
              intro u
              by_cases hur : u = r
              · subst hur
                simp [s₂, goto, Task.wakes]
              · have hsame : s₂.task u = s₁.task u := Function.update_of_ne hur ..
                rw [hsame]
                exact hnone u
            rcases lostWakeUp_of_prepareToWait (s := s₂) (Function.update_self ..) hcalm hfifo hnone₂
              result with ⟨s', hrun, hlost⟩
            exact ⟨_, s', run_cons_ok.2 ⟨s₁, hs₁, run_cons_ok.2 ⟨s₂, hs₂, hrun⟩⟩, hlost⟩

/-- No run loses a wake-up if each `wake_up` finds every reader that has found the FIFO empty already
marked as sleeping. -/
theorem no_lostWakeUp {es : List FifoEvent} (htime : AllSteps step WakesInTime init es) :
    Throughout step (fun s => ¬s.LostWakeUp) init es :=
  (throughout_of_allSteps (I := WakeInv) (fun _ _ _ h htime hs => h.step htime hs) wakeInv_init
    htime).mono fun _ h => h.not_lostWakeUp

/-- A reader that has gone to sleep before the record is pushed is woken up. -/
theorem no_lostWakeUp_sleeping_reader :
    Throughout step (fun s => ¬s.LostWakeUp) init
      [.startRead 1 false, .advance 1 .dumped, .advance 1 .dumped, .advance 1 .dumped,
        .advance 1 .dumped, .advance 1 .dumped, .advance 1 .dumped, .advance 1 .dumped,
        .startPush 2 5, .advance 2 .dumped, .advance 2 .dumped, .advance 2 .dumped] := by
  refine no_lostWakeUp (allSteps_cons rfl trivial ?_)
  iterate 7 refine allSteps_cons rfl (wakesInTime_of_not_wakes rfl) ?_
  refine allSteps_cons rfl trivial ?_
  iterate 2 refine allSteps_cons rfl (wakesInTime_of_not_wakes rfl) ?_
  -- the one call of `wake_up`: nobody is in the window
  refine allSteps_cons rfl (fun _ r hr => ?_) trivial
  by_cases h₁ : r = 1
  · subst h₁
    cases hr
  · by_cases h₂ : r = 2
    · subst h₂
      cases hr
    · simp [goto, mutexUnlock, prepareToWait, addWaitQueue, h₁, h₂, init, Task.inWindow] at hr

/-- A record pushed between the test of the FIFO and the mark finds nobody to wake up. -/
theorem lostWakeUp_pushed_in_window :
    ¬Throughout step (fun s => ¬s.LostWakeUp) init
      [.startRead 1 false, .advance 1 .dumped, .advance 1 .dumped, .advance 1 .dumped,
        .advance 1 .dumped, .startPush 2 5, .advance 2 .dumped, .advance 2 .dumped,
        .advance 2 .dumped, .advance 2 .dumped, .advance 1 .dumped, .advance 1 .dumped,
        .advance 1 .dumped] := by
  intro h
  refine h.of_run rfl ⟨⟨1, false, rfl, rfl⟩, by decide, fun t => ?_⟩
  by_cases h₁ : t = 1
  · subst h₁
    rfl
  · by_cases h₂ : t = 2
    · subst h₂
      rfl
    · simp [goto, leave, mutexUnlock, prepareToWait, addWaitQueue, h₁, h₂, init,
        Task.wakes, FifoSys.wakeUp]

end FifoSys

end RrPython
