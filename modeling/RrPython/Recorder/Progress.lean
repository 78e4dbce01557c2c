import RrPython.Recorder.FifoIntegrity

/-!
# Progress — a task that cannot step waits for one that can

Only two statements of `post_syscall` and `read_proc` hold a task up: `mutex_lock` while another task has
the mutex, and `schedule()` while the task sleeps.  Whoever has the mutex is held up by neither, and
gives it back after at most as many of its own steps as there are records, and three.
-/

namespace RrPython

open Foundation

/-- How many steps a task with the mutex has left until it has given it back, at most, with `n` records
in the FIFO. -/
def Task.work (n : Nat) : Task → Nat
  | .outside => 0
  | .pushing _ .lock => 0
  | .pushing _ .push => 3
  | .pushing _ .wakeUp => 2
  | .pushing _ .freeRecord => 2
  | .pushing _ .unlock => 1
  | .reading _ .testEmpty => n + 3
  | .reading _ .unlockEmpty => 1
  | .reading _ .finishWait => n + 2
  | .reading _ .dump => n + 1
  | .reading _ .unlock => 1
  | .reading _ _ => 0

theorem Task.work_le (n : Nat) (task : Task) : task.work n ≤ n + 3 := by
  unfold work
  split <;> omega

/-- It is a step of `t`. -/
def FifoEvent.IsStepOf (t : Pid) : FifoEvent → Prop
  | .advance u _ => u = t
  | _ => False

instance (t : Pid) : ∀ e : FifoEvent, Decidable (e.IsStepOf t)
  | .advance u _ => inferInstanceAs (Decidable (u = t))
  | .startPush _ _ => inferInstanceAs (Decidable False)
  | .startRead _ _ => inferInstanceAs (Decidable False)
  | .signal _ => inferInstanceAs (Decidable False)

namespace FifoSys

variable {s s' : FifoSys} {t u : Pid}

/-- The number of records in the FIFO. -/
def queued (s : FifoSys) : Nat :=
  s.fifo.length / sizeofPtr

def work (s : FifoSys) (t : Pid) : Nat :=
  (s.task t).work s.queued

/-! ## Who can step -/

/-- What can hold a task up. -/
def HeldUp (s : FifoSys) (t : Pid) : Prop :=
  (∃ nonblock, s.task t = .reading nonblock .asleep ∧ s.sleeping t = true) ∨
    ((∃ record, s.task t = .pushing record .lock) ∨ ∃ nonblock, s.task t = .reading nonblock .lock) ∧
      s.mutex.isSome

theorem mutexLock_free (h : s.mutex = none) (t : Pid) :
    s.mutexLock t = .ok { s with mutex := some t } := by
  simp only [mutexLock, h]

theorem pushStep_ok {record : Ptr} {point : PushPoint} (hlock : point = .lock → s.mutex = none) :
    ∃ s', s.pushStep t record point = .ok s' := by
  cases point with
  | lock =>
      rw [FifoSys.pushStep, mutexLock_free (hlock rfl)]
      exact ⟨_, rfl⟩
  | push =>
      simp only [FifoSys.pushStep]
      split
      · exact ⟨_, rfl⟩
      · exact ⟨_, rfl⟩
  | wakeUp =>
      exact ⟨_, rfl⟩
  | freeRecord =>
      exact ⟨_, rfl⟩
  | unlock =>
      exact ⟨_, rfl⟩

theorem dumpStep_ok (h : s.Inv) {nonblock : Bool} (htask : s.task t = .reading nonblock .dump)
    (result : DumpResult) : ∃ s', s.dumpStep t nonblock result = .ok s' := by
  obtain ⟨_, hwhole⟩ := h.queue.kfifoOut (h.filled t (by rw [htask]; rfl))
  have hnot : ¬s.kfifoOut.2.length ≠ sizeofPtr := not_not.2 hwhole
  simp only [FifoSys.dumpStep, if_neg hnot]
  cases result with
  | dumped =>
      dsimp only
      split
      · exact ⟨_, rfl⟩
      · exact ⟨_, rfl⟩
  | shortWrite =>
      exact ⟨_, rfl⟩
  | failed =>
      exact ⟨_, rfl⟩

theorem readStep_ok (h : s.Inv) {nonblock : Bool} {point : ReadPoint}
    (htask : s.task t = .reading nonblock point) (hlock : point = .lock → s.mutex = none)
    (hasleep : point = .asleep → s.sleeping t = false) (result : DumpResult) :
    ∃ s', s.readStep t nonblock result point = .ok s' := by
  cases point with
  | lock =>
      rw [FifoSys.readStep, mutexLock_free (hlock rfl)]
      exact ⟨_, rfl⟩
  | asleep =>
      simp only [FifoSys.readStep, hasleep rfl, Bool.false_eq_true, if_false]
      exact ⟨_, rfl⟩
  | dump =>
      exact dumpStep_ok h htask result
  | testEmpty =>
      simp only [FifoSys.readStep]
      split
      · exact ⟨_, rfl⟩
      · exact ⟨_, rfl⟩
  | testNonblock =>
      simp only [FifoSys.readStep]
      split
      · exact ⟨_, rfl⟩
      · exact ⟨_, rfl⟩
  | schedule =>
      simp only [FifoSys.readStep]
      split
      · exact ⟨_, rfl⟩
      · split
        · exact ⟨_, rfl⟩
        · exact ⟨_, rfl⟩
  | testSignal =>
      simp only [FifoSys.readStep]
      split
      · exact ⟨_, rfl⟩
      · exact ⟨_, rfl⟩
  | addWaitQueue =>
      exact ⟨_, rfl⟩
  | unlockEmpty =>
      exact ⟨_, rfl⟩
  | prepareToWait =>
      exact ⟨_, rfl⟩
  | finishWait =>
      exact ⟨_, rfl⟩
  | unlock =>
      exact ⟨_, rfl⟩
  | cleanup =>
      exact ⟨_, rfl⟩

/-- Nothing else holds a task up. -/
theorem Inv.can_step (h : s.Inv) (htask : s.task t ≠ .outside) (hfree : ¬s.HeldUp t)
    (result : DumpResult) : ∃ s', s.step (.advance t result) = .ok s' := by
  cases hat : s.task t with
  | outside =>
      exact absurd hat htask
  | pushing record point =>
      simp only [FifoSys.step, hat]
      apply pushStep_ok
      rintro rfl
      by_contra hheld
      exact hfree (Or.inr ⟨Or.inl ⟨record, hat⟩, Option.isSome_iff_ne_none.2 hheld⟩)
  | reading nonblock point =>
      simp only [FifoSys.step, hat]
      apply readStep_ok h hat
      · rintro rfl
        by_contra hheld
        exact hfree (Or.inr ⟨Or.inr ⟨nonblock, hat⟩, Option.isSome_iff_ne_none.2 hheld⟩)
      · rintro rfl
        by_contra hsleeping
        exact hfree (Or.inl ⟨nonblock, hat, by simpa using hsleeping⟩)

theorem Inv.holder_critical (h : s.Inv) (hheld : s.mutex = some t) :
    (s.task t).critical = true :=
  (h.holder t).2 hheld

theorem Inv.holder_not_heldUp (h : s.Inv) (hheld : s.mutex = some t) : ¬s.HeldUp t := by
  have hcritical := h.holder_critical hheld
  rintro (⟨nonblock, hat, _⟩ | ⟨⟨record, hat⟩ | ⟨nonblock, hat⟩, _⟩)
  · rw [hat] at hcritical
    cases hcritical
  · rw [hat] at hcritical
    cases hcritical
  · rw [hat] at hcritical
    cases hcritical

theorem Inv.holder_steps (h : s.Inv) (hheld : s.mutex = some t) (result : DumpResult) :
    ∃ s', s.step (.advance t result) = .ok s' := by
  refine h.can_step ?_ (h.holder_not_heldUp hheld) result
  intro houtside
  have hcritical := h.holder_critical hheld
  rw [houtside] at hcritical
  cases hcritical

/-! ## The work of the holder -/

/-- A turn of the loop of `dump_records` takes one record out. -/
theorem Inv.queued_kfifoOut (h : s.Inv) (hfilled : s.fifo ≠ []) :
    s.kfifoOut.1.queued + 1 = s.queued := by
  obtain ⟨_, hwhole⟩ := h.queue.kfifoOut hfilled
  simp only [FifoSys.kfifoOut, dequeue, List.length_take] at hwhole
  have hlen : sizeofPtr ≤ s.fifo.length := by
    omega
  have hpos : 0 < sizeofPtr := by
    decide
  simp only [queued, FifoSys.kfifoOut, dequeue, List.length_drop]
  rw [Nat.div_eq_sub_div hpos hlen]

theorem work_goto (s : FifoSys) (t : Pid) (task : Task) :
    (s.goto t task).work t = task.work s.queued := by
  simp [work, goto, queued]

theorem work_pushing {record : Ptr} {point : PushPoint} (htask : s.task t = .pushing record point) :
    s.work t = (Task.pushing record point).work s.queued := by
  rw [work, htask]

theorem work_reading {nonblock : Bool} {point : ReadPoint} (htask : s.task t = .reading nonblock point) :
    s.work t = (Task.reading nonblock point).work s.queued := by
  rw [work, htask]

theorem pushStep_lower {record : Ptr} {point : PushPoint} (htask : s.task t = .pushing record point)
    (hcritical : (Task.pushing record point).critical = true)
    (hs : s.pushStep t record point = .ok s') (hheld' : s'.mutex = some t) :
    s'.work t < s.work t := by
  rw [work_pushing htask]
  cases point with
  | lock =>
      cases hcritical
  | push =>
      simp only [FifoSys.pushStep] at hs
      split at hs
      · cases hs
        rw [work_goto]
        exact Nat.lt_succ_self _
      · cases hs
        rw [work_goto]
        exact Nat.lt_succ_self _
  | wakeUp =>
      cases hs
      rw [work_goto]
      exact Nat.lt_succ_self _
  | freeRecord =>
      cases hs
      rw [work_goto]
      exact Nat.lt_succ_self _
  | unlock =>
      cases hs
      cases hheld'

/-- The loop of `dump_records` goes on with one record less, or ends. -/
theorem Inv.dumpStep_lower (h : s.Inv) {nonblock : Bool} {result : DumpResult}
    (htask : s.task t = .reading nonblock .dump) (hs : s.dumpStep t nonblock result = .ok s') :
    s'.work t < s.work t := by
  have hfilled := h.filled t (by rw [htask]; rfl)
  obtain ⟨_, hwhole⟩ := h.queue.kfifoOut hfilled
  have hless := h.queued_kfifoOut hfilled
  have hnot : ¬s.kfifoOut.2.length ≠ sizeofPtr := not_not.2 hwhole
  simp only [FifoSys.dumpStep, if_neg hnot] at hs
  have hgo : ∀ point : ReadPoint, s' = s.kfifoOut.1.goto t (.reading nonblock point) →
      (point = .dump ∨ point = .unlock) → s'.work t < s.work t := by
    rintro point rfl hpoint
    rw [work_goto, work_reading htask]
    rcases hpoint with rfl | rfl
    · simp only [Task.work]
      omega
    · simp only [Task.work]
      omega
  cases result with
  | dumped =>
      dsimp only at hs
      split at hs
      · exact hgo .unlock (Except.ok.inj hs).symm (Or.inr rfl)
      · exact hgo .dump (Except.ok.inj hs).symm (Or.inl rfl)
  | shortWrite =>
      exact hgo .unlock (Except.ok.inj hs).symm (Or.inr rfl)
  | failed =>
      exact hgo .unlock (Except.ok.inj hs).symm (Or.inr rfl)

theorem Inv.readStep_lower (h : s.Inv) {nonblock : Bool} {point : ReadPoint} {result : DumpResult}
    (htask : s.task t = .reading nonblock point)
    (hcritical : (Task.reading nonblock point).critical = true)
    (hs : s.readStep t nonblock result point = .ok s') (hheld' : s'.mutex = some t) :
    s'.work t < s.work t := by
  cases point with
  | testEmpty =>
      rw [work_reading htask]
      simp only [FifoSys.readStep] at hs
      split at hs
      · cases hs
        rw [work_goto]
        simp [Task.work]
      · cases hs
        rw [work_goto]
        simp [Task.work]
  | finishWait =>
      cases hs
      rw [work_goto, work_reading htask]
      exact Nat.lt_succ_self _
  | dump =>
      exact h.dumpStep_lower htask hs
  | unlockEmpty =>
      cases hs
      cases hheld'
  | unlock =>
      cases hs
      cases hheld'
  | _ =>
      cases hcritical

/-- Each step of the holder that does not give the mutex back lowers its work. -/
theorem Inv.work_lower (h : s.Inv) (hheld : s.mutex = some t) {result : DumpResult}
    (hs : s.step (.advance t result) = .ok s') (hheld' : s'.mutex = some t) :
    s'.work t < s.work t := by
  have hcritical := h.holder_critical hheld
  simp only [FifoSys.step] at hs
  cases htask : s.task t with
  | outside =>
      rw [htask] at hcritical
      cases hcritical
  | pushing record point =>
      rw [htask] at hs hcritical
      exact pushStep_lower htask hcritical hs hheld'
  | reading nonblock point =>
      rw [htask] at hs hcritical
      exact h.readStep_lower htask hcritical hs hheld'

/-- A task without the mutex neither touches the FIFO nor moves anybody else. -/
theorem frame {u : Pid} (hnot : (s.task u).critical = false) {result : DumpResult}
    (hs : s.step (.advance u result) = .ok s') :
    s'.fifo = s.fifo ∧ ∀ t, t ≠ u → s'.task t = s.task t := by
  have hgoto : ∀ {s₁ : FifoSys} {task : Task}, s₁.task = s.task →
      ∀ t, t ≠ u → (s₁.goto u task).task t = s.task t := by
    intro s₁ task htask t ht
    simp [goto, htask, ht]
  simp only [FifoSys.step] at hs
  cases hat : s.task u with
  | outside =>
      rw [hat] at hs
      cases hs
  | pushing record point =>
      rw [hat] at hs hnot
      cases point with
      | lock =>
          simp only [FifoSys.pushStep, mutexLock] at hs
          split at hs
          · cases hs
            exact ⟨rfl, hgoto rfl⟩
          · cases hs
      | _ =>
          cases hnot
  | reading nonblock point =>
      rw [hat] at hs hnot
      cases point with
      | addWaitQueue | testNonblock | prepareToWait | schedule | asleep | testSignal =>
          obtain ⟨_, _, hmove, _, hfifo, _⟩ := readStep_waits rfl hs
          refine ⟨hfifo, fun t ht => ?_⟩
          rw [hmove]
          exact Function.update_of_ne ht ..
      | lock =>
          simp only [FifoSys.readStep, mutexLock] at hs
          split at hs
          · cases hs
            exact ⟨rfl, hgoto rfl⟩
          · cases hs
      | cleanup =>
          cases hs
          exact ⟨rfl, hgoto rfl⟩
      | _ =>
          cases hnot

/-- Nothing that other tasks do raises the work of the holder. -/
theorem Inv.work_keep (h : s.Inv) (hheld : s.mutex = some t) {e : FifoEvent}
    (he : ¬e.IsStepOf t) (hs : s.step e = .ok s') : s'.work t = s.work t := by
  have hcritical := h.holder_critical hheld
  have hstart : ∀ {u : Pid} {task : Task}, s.start u task = .ok s' → s'.work t = s.work t := by
    intro u task hs
    unfold FifoSys.start at hs
    split at hs
    · rename_i houtside
      have hut : t ≠ u := by
        rintro rfl
        rw [houtside] at hcritical
        cases hcritical
      cases hs
      simp [work, goto, queued, hut]
    · cases hs
  cases e with
  | startPush u record =>
      exact hstart hs
  | startRead u nonblock =>
      exact hstart hs
  | advance u result =>
      have hnot : (s.task u).critical = false := by
        by_contra hcritical'
        have hheld' := (h.holder u).1 (by simpa using hcritical')
        exact he (Option.some.inj (hheld'.symm.trans hheld))
      obtain ⟨hfifo, htask⟩ := frame hnot hs
      have hut : t ≠ u := fun heq => he heq.symm
      rw [work, work, htask t hut, queued, queued, hfifo]
  | signal u =>
      cases hs
      rfl

/-! ## Every run -/

/-- In every reachable state a task in `post_syscall` or `read_proc` can take its next step, or sleeps in
`schedule()`, or waits for the mutex; and then, however the run goes on, the task that has the mutex can
always take its next step and has no more than three steps, and one for each record, to go with it. -/
theorem can_step_or_waits {es : List FifoEvent} {s : FifoSys} (hrun : run step init es = .ok s)
    {t : Pid} (htask : s.task t ≠ .outside) :
    (∀ result, ∃ s', s.step (.advance t result) = .ok s') ∨
      (∃ nonblock, s.task t = .reading nonblock .asleep ∧ s.sleeping t = true) ∨
      ∃ u, u ≠ t ∧ s.mutex = some u ∧ ∀ es' s', run step s es' = .ok s' →
        Throughout step (fun s => s.mutex = some u) s es' →
          countSteps step (fun _ e => e.IsStepOf u) s es' ≤ s.queued + 3 ∧
            ∀ result, ∃ s'', s'.step (.advance u result) = .ok s'' := by
  have hinv : s.Inv := (Meets.run (fun _ e h => h.step e) inv_init es).of_ok hrun
  by_cases hfree : s.HeldUp t
  · rcases hfree with hasleep | ⟨hlock, hheld⟩
    · exact Or.inr (Or.inl hasleep)
    · obtain ⟨u, hu⟩ := Option.isSome_iff_exists.1 hheld
      refine Or.inr (Or.inr ⟨u, ?_, hu, fun es' s' hrun' hholds => ?_⟩)
      · -- a task that waits for the mutex does not have it
        rintro rfl
        exact hinv.holder_not_heldUp hu (Or.inr ⟨hlock, hheld⟩)
      · have hthroughout : Throughout step (fun s => s.Inv ∧ s.mutex = some u) s es' :=
          hholds.and_invariant (fun _ _ _ h hs => h.step_ok hs) hinv
        have hcount := countSteps_le (P := fun _ e => e.IsStepOf u) (M := fun s => s.work u)
          (fun s e s' hI he hs hI' => by
            cases e with
            | advance u' result =>
                obtain rfl : u' = u := he
                exact hI.1.work_lower hI.2 hs hI'.2
            | _ =>
                cases he)
          (fun s e s' hI he hs _ => (hI.1.work_keep hI.2 he hs).le) hthroughout hrun'
        have hwork : s.work u ≤ s.queued + 3 := Task.work_le _ _
        obtain ⟨hinv', hu'⟩ := hthroughout.of_run hrun'
        exact ⟨by omega, hinv'.holder_steps hu'⟩
  · exact Or.inl (hinv.can_step htask hfree)

/-- Task 1 waits for the mutex, which task 2 has. -/
def contended : List FifoEvent :=
  [.startRead 2 true, .startPush 1 7, .advance 2 .dumped, .advance 2 .dumped]

theorem can_step_or_waits_contended :
    ∃ s, run step init contended = .ok s ∧
      ((∀ result, ∃ s', s.step (.advance 1 result) = .ok s') ∨
        (∃ nonblock, s.task 1 = .reading nonblock .asleep ∧ s.sleeping 1 = true) ∨
        ∃ u, u ≠ 1 ∧ s.mutex = some u) := by
  obtain ⟨s, hrun⟩ : ∃ s, run step init contended = .ok s := ⟨_, rfl⟩
  have htask : s.task 1 ≠ .outside := by
    cases hrun
    decide
  refine ⟨s, hrun, ?_⟩
  rcases can_step_or_waits hrun htask with hsteps | hasleep | ⟨u, hu, hheld, _⟩
  · exact Or.inl hsteps
  · exact Or.inr (Or.inl hasleep)
  · exact Or.inr (Or.inr ⟨u, hu, hheld⟩)

end FifoSys

end RrPython
