import RrPython.Recorder.ReadProc

/-!
# FifoIntegrity — the byte queue always holds whole pointers

Under the mutex one task at a time uses the FIFO, and each stores or takes one whole pointer.  So the
FIFO is the list of pointers that the rest of the development takes it for, and a reader that has seen
it filled finds a pointer in it.
-/

namespace RrPython

open Foundation

/-! ## Pointers as blocks -/

theorem fixedWidth_wordBytes : FixedWidth wordBytes sizeofPtr :=
  ⟨length_wordBytes, by decide⟩

theorem sizeofPtr_dvd : sizeofPtr ∣ syscallFifoSize := by
  decide

/-- The FIFO of the kernel as the bytes that it holds. -/
def Kernel.fifoBytes (k : Kernel) : List Byte :=
  k.recordedSyscalls.flatMap wordBytes

/-- On the bytes, `kfifo_in` does what it does on the pointers. -/
theorem Kernel.fifoBytes_kfifoIn (k : Kernel) (p : Ptr) :
    enqueue syscallFifoSize k.fifoBytes (wordBytes p) =
      ((k.kfifoIn p).1.fifoBytes, (k.kfifoIn p).2) := by
  rw [Kernel.fifoBytes, fixedWidth_wordBytes.enqueue_block sizeofPtr_dvd, Kernel.kfifoIn]
  split_ifs <;> rfl

/-- On the bytes, `kfifo_out` returns the oldest pointer. -/
theorem Kernel.fifoBytes_kfifoOut {k : Kernel} {p : Ptr} {rest : List Ptr}
    (hfifo : k.recordedSyscalls = p :: rest) :
    dequeue k.fifoBytes sizeofPtr =
      (wordBytes p, { k with recordedSyscalls := rest }.fifoBytes) := by
  rw [Kernel.fifoBytes, hfifo, fixedWidth_wordBytes.dequeue_block]
  rfl

/-! ## The invariant -/

namespace Task

/-- The task is between `mutex_lock` and `mutex_unlock`. -/
def critical : Task → Bool
  | .outside => false
  | .pushing _ point => point != .lock
  | .reading _ point =>
      point == .testEmpty || point == .unlockEmpty || point == .finishWait || point == .dump ||
        point == .unlock

/-- The task has seen that the FIFO is not empty and relies on it. -/
def seesFilled : Task → Bool
  | .outside => false
  | .pushing _ point => point == .wakeUp
  | .reading _ point => point == .finishWait || point == .dump

/-- The task has seen that the FIFO is empty and still holds the mutex. -/
def seesEmpty : Task → Bool
  | .reading _ point => point == .unlockEmpty
  | _ => false

theorem critical_of_seesFilled {task : Task} (h : task.seesFilled = true) : task.critical = true := by
  cases task with
  | outside =>
      cases h
  | pushing record point =>
      cases point <;> simp_all [seesFilled, critical]
  | reading nonblock point =>
      cases point <;> simp_all [seesFilled, critical]

theorem critical_of_seesEmpty {task : Task} (h : task.seesEmpty = true) : task.critical = true := by
  cases task with
  | outside =>
      cases h
  | pushing record point =>
      cases h
  | reading nonblock point =>
      cases point <;> simp_all [seesEmpty, critical]

end Task

namespace FifoSys

/-- The FIFO holds the pushed pointers that have not been taken, and those that have been taken were
the oldest, each taken once and whole. -/
structure Queue (s : FifoSys) : Prop where
  fifo : s.fifo = (s.pushed.drop s.taken.length).flatMap wordBytes
  taken : s.taken = (s.pushed.take s.taken.length).map wordBytes
  stored : ∀ n ∈ s.stored, n = 0 ∨ n = sizeofPtr
  capacity : s.fifo.length ≤ syscallFifoSize

structure Inv (s : FifoSys) : Prop where
  holder : ∀ t, (s.task t).critical = true ↔ s.mutex = some t
  queue : s.Queue
  filled : ∀ t, (s.task t).seesFilled = true → s.fifo ≠ []
  empty : ∀ t, (s.task t).seesEmpty = true → s.fifo = []
  listed : ∀ t, s.sleeping t = true → s.waiting t = true

theorem queue_init : init.Queue :=
  ⟨rfl, rfl, by simp [init], by simp [init]⟩

theorem inv_init : init.Inv := by
  refine ⟨fun t => ?_, queue_init, fun t h => ?_, fun t h => ?_, fun t h => ?_⟩
  · simp [init, Task.critical]
  · cases h
  · cases h
  · cases h

variable {s s' : FifoSys} {t : Pid} {task : Task}

/-! ## The queue operations -/

/-- `kfifo_in` stores the pointer or nothing. -/
theorem Queue.kfifoIn (h : s.Queue) (record : Ptr) :
    (s.kfifoIn record).1.Queue ∧
      (((s.kfifoIn record).2 = sizeofPtr ∧ (s.kfifoIn record).1.fifo ≠ []) ∨
        ((s.kfifoIn record).2 = 0 ∧ (s.kfifoIn record).1.fifo = s.fifo)) := by
  have hcapacity := h.capacity
  have hlen := fixedWidth_wordBytes.length_flatMap (s.pushed.drop s.taken.length)
  have htaken : s.taken.length ≤ s.pushed.length := by
    have heq := congrArg List.length h.taken
    rw [List.length_map, List.length_take] at heq
    omega
  have hin := fixedWidth_wordBytes.enqueue_block sizeofPtr_dvd (s.pushed.drop s.taken.length) record
  rw [← h.fifo] at hin hlen
  by_cases hroom : sizeofPtr * (s.pushed.drop s.taken.length).length + sizeofPtr ≤ syscallFifoSize
  · rw [if_pos hroom] at hin
    have hdrop : (s.pushed ++ [record]).drop s.taken.length =
        s.pushed.drop s.taken.length ++ [record] :=
      List.drop_append_of_le_length htaken
    have htake : (s.pushed ++ [record]).take s.taken.length = s.pushed.take s.taken.length :=
      List.take_append_of_le_length htaken
    simp only [FifoSys.kfifoIn, hin, if_true]
    refine ⟨⟨?_, ?_, ?_, ?_⟩, Or.inl ⟨trivial, ?_⟩⟩
    · rw [hdrop]
    · rw [htake]
      exact h.taken
    · intro n hn
      rcases List.mem_append.1 hn with hn | hn
      · exact h.stored n hn
      · exact Or.inr (List.mem_singleton.1 hn)
    · rw [fixedWidth_wordBytes.length_flatMap, List.length_append, List.length_singleton,
        Nat.mul_add, Nat.mul_one]
      exact hroom
    · rw [Ne, fixedWidth_wordBytes.flatMap_eq_nil]
      simp
  · rw [if_neg hroom] at hin
    have hzero : ¬(0 : Nat) = sizeofPtr := by
      decide
    simp only [FifoSys.kfifoIn, hin, if_neg hzero]
    refine ⟨⟨h.fifo, h.taken, ?_, h.capacity⟩, Or.inr ⟨trivial, trivial⟩⟩
    intro n hn
    rcases List.mem_append.1 hn with hn | hn
    · exact h.stored n hn
    · exact Or.inl (List.mem_singleton.1 hn)

/-- On a filled FIFO `kfifo_out` returns all bytes of the oldest pointer. -/
theorem Queue.kfifoOut (h : s.Queue) (hfilled : s.fifo ≠ []) :
    s.kfifoOut.1.Queue ∧ s.kfifoOut.2.length = sizeofPtr := by
  have hfifo := h.fifo
  have htaken := h.taken
  cases hrest : s.pushed.drop s.taken.length with
  | nil =>
      rw [hrest] at hfifo
      exact absurd hfifo hfilled
  | cons p rest =>
      have hout := fixedWidth_wordBytes.dequeue_block p rest
      rw [hrest] at hfifo
      rw [← hfifo] at hout
      have hget : s.pushed[s.taken.length]? = some p := by
        rw [← List.head?_drop, hrest]
        rfl
      have htail : s.pushed.drop (s.taken.length + 1) = rest := by
        rw [← List.tail_drop, hrest]
        rfl
      simp only [FifoSys.kfifoOut, hout]
      refine ⟨⟨?_, ?_, h.stored, ?_⟩, length_wordBytes p⟩
      · rw [List.length_append, List.length_singleton, htail]
      · rw [List.length_append, List.length_singleton, List.take_add_one, hget, List.map_append,
          ← htaken]
        rfl
      · have hcapacity := h.capacity
        rw [hfifo, fixedWidth_wordBytes.length_flatMap, List.length_cons, Nat.mul_add] at hcapacity
        rw [fixedWidth_wordBytes.length_flatMap]
        omega

/-! ## One step -/

/-- A step of `t` keeps the invariant if what it claims of the mutex and of the FIFO is true, and
nobody else can be relying on the FIFO. -/
theorem Inv.move (h : s.Inv) (t : Pid) (task : Task)
    (htask : s'.task = Function.update s.task t task)
    (hmutex : ∀ u, u ≠ t → (s'.mutex = some u ↔ s.mutex = some u))
    (hown : task.critical = true ↔ s'.mutex = some t) (hqueue : s'.Queue)
    (hfifo : s'.fifo = s.fifo ∨ s.mutex = some t)
    (hfilled : task.seesFilled = true → s'.fifo ≠ [])
    (hempty : task.seesEmpty = true → s'.fifo = [])
    (hlisted : ∀ u, s'.sleeping u = true → s'.waiting u = true) : s'.Inv := by
  have hself : s'.task t = task := by
    rw [htask, Function.update_self]
  have hother : ∀ {u}, u ≠ t → s'.task u = s.task u := by
    intro u hu
    rw [htask, Function.update_of_ne hu]
  -- while `t` holds the mutex no other task is critical
  have hsame : ∀ {u}, u ≠ t → (s.task u).critical = true → s'.fifo = s.fifo := by
    intro u hu hcritical
    rcases hfifo with hfifo | hheld
    · exact hfifo
    · have hholds := (h.holder u).1 hcritical
      rw [hheld] at hholds
      exact absurd (Option.some.inj hholds).symm hu
  refine ⟨fun u => ?_, hqueue, fun u hu => ?_, fun u hu => ?_, hlisted⟩
  · by_cases hut : u = t
    · subst hut
      rw [hself]
      exact hown
    · rw [hother hut, hmutex u hut]
      exact h.holder u
  · by_cases hut : u = t
    · subst hut
      exact hfilled (hself ▸ hu)
    · rw [hother hut] at hu
      rw [hsame hut (Task.critical_of_seesFilled hu)]
      exact h.filled u hu
  · by_cases hut : u = t
    · subst hut
      exact hempty (hself ▸ hu)
    · rw [hother hut] at hu
      rw [hsame hut (Task.critical_of_seesEmpty hu)]
      exact h.empty u hu

/-- A step that leaves the mutex and the FIFO alone. -/
theorem Inv.keep (h : s.Inv) (t : Pid) (task : Task)
    (htask : s'.task = Function.update s.task t task)
    (hmutex : s'.mutex = s.mutex) (hfifo : s'.fifo = s.fifo) (hpushed : s'.pushed = s.pushed)
    (hstored : s'.stored = s.stored) (htaken : s'.taken = s.taken)
    (hcritical : task.critical = (s.task t).critical)
    (hfilled : task.seesFilled = true → s.fifo ≠ [])
    (hempty : task.seesEmpty = true → s.fifo = [])
    (hlisted : ∀ u, s'.sleeping u = true → s'.waiting u = true) : s'.Inv := by
  refine h.move t task htask (fun u _ => by rw [hmutex]) ?_ ?_ (Or.inl hfifo) ?_ ?_ hlisted
  · rw [hcritical, hmutex]
    exact h.holder t
  · obtain ⟨h₁, h₂, h₃, h₄⟩ := h.queue
    refine ⟨?_, ?_, ?_, ?_⟩
    · rw [hfifo, hpushed, htaken]
      exact h₁
    · rw [htaken, hpushed]
      exact h₂
    · rw [hstored]
      exact h₃
    · rw [hfifo]
      exact h₄
  · rwa [hfifo]
  · rwa [hfifo]

/-- Taking the mutex. -/
theorem Inv.lock (h : s.Inv) {task' : Task} (hcritical : task'.critical = true)
    (hfilled : task'.seesFilled = false) (hempty : task'.seesEmpty = false) :
    Meets (· = .impossible) Inv (do
      let s ← s.mutexLock t
      pure (s.goto t task')) := by
  unfold mutexLock
  cases hmutex : s.mutex with
  | some u =>
      rfl
  | none =>
      refine h.move t task' rfl (fun u hu => ?_) ?_ ?_ (Or.inl rfl) ?_ ?_ h.listed
      · simp [goto, hmutex, Ne.symm hu]
      · simp [goto, hcritical]
      · exact ⟨h.queue.fifo, h.queue.taken, h.queue.stored, h.queue.capacity⟩
      · simp [hfilled]
      · simp [hempty]

/-- Giving the mutex back. -/
theorem Inv.unlock (h : s.Inv) (hholds : (s.task t).critical = true)
    (htask : s'.task = Function.update s.task t task) (hmutex : s'.mutex = none)
    (hqueue : s'.Queue) (hfifo : s'.fifo = s.fifo) (hcritical : task.critical = false)
    (hlisted : ∀ u, s'.sleeping u = true → s'.waiting u = true) : s'.Inv := by
  have hheld := (h.holder t).1 hholds
  refine h.move t task htask (fun u hu => ?_) ?_ hqueue (Or.inl hfifo) ?_ ?_ hlisted
  · simp [hmutex, hheld, Ne.symm hu]
  · simp [hmutex, hcritical]
  · intro hsees
    rw [Task.critical_of_seesFilled hsees] at hcritical
    cases hcritical
  · intro hsees
    rw [Task.critical_of_seesEmpty hsees] at hcritical
    cases hcritical

/-- Changing which tasks sleep and which are listed. -/
theorem listed_update {b c : Bool} (h : s.Inv) (hbc : b = true → c = true) :
    ∀ u, Function.update s.sleeping t b u = true → Function.update s.waiting t c u = true := by
  intro u hu
  by_cases hut : u = t
  · subst hut
    rw [Function.update_self] at hu ⊢
    exact hbc hu
  · rw [Function.update_of_ne hut] at hu ⊢
    exact h.listed u hu

theorem listed_awake (h : s.Inv) :
    ∀ u, Function.update s.sleeping t false u = true → s.waiting u = true := by
  intro u hu
  by_cases hut : u = t
  · subst hut
    rw [Function.update_self] at hu
    cases hu
  · rw [Function.update_of_ne hut] at hu
    exact h.listed u hu

theorem Inv.pushStep (h : s.Inv) {record : Ptr} {point : PushPoint}
    (htask : s.task t = .pushing record point) :
    Meets (· = .impossible) Inv (s.pushStep t record point) := by
  have hcritical : (s.task t).critical = (point != .lock) := by
    rw [htask]
    rfl
  cases point with
  | lock =>
      exact h.lock rfl rfl rfl
  | push =>
      have hheld := (h.holder t).1 hcritical
      obtain ⟨hqueue, ⟨hn, hfilled⟩ | ⟨hn, hsame⟩⟩ := h.queue.kfifoIn record
      · simp only [FifoSys.pushStep, hn, if_true]
        refine h.move t (.pushing record .wakeUp) rfl (fun _ _ => Iff.rfl) ?_ ?_
          (Or.inr hheld) (fun _ => hfilled) (by simp [Task.seesEmpty]) h.listed
        · exact ⟨fun _ => hheld, fun _ => rfl⟩
        · exact ⟨hqueue.fifo, hqueue.taken, hqueue.stored, hqueue.capacity⟩
      · have hzero : ¬(0 : Nat) = sizeofPtr := by
          decide
        simp only [FifoSys.pushStep, hn, if_neg hzero]
        refine h.move t (.pushing record .freeRecord) rfl (fun _ _ => Iff.rfl) ?_ ?_
          (Or.inr hheld) (by simp [Task.seesFilled]) (by simp [Task.seesEmpty]) h.listed
        · exact ⟨fun _ => hheld, fun _ => rfl⟩
        · exact ⟨hqueue.fifo, hqueue.taken, hqueue.stored, hqueue.capacity⟩
  | wakeUp =>
      refine h.keep t (.pushing record .unlock) rfl rfl rfl rfl rfl rfl ?_
        (by simp [Task.seesFilled]) (by simp [Task.seesEmpty]) ?_
      · rw [hcritical]
        rfl
      · -- whoever still sleeps is not listed, and there is no such task
        intro u hu
        have hu' : s.sleeping u = true ∧ s.waiting u = false := by
          simpa [FifoSys.wakeUp, goto] using hu
        have hlisted := h.listed u hu'.1
        rw [hu'.2] at hlisted
        cases hlisted
  | freeRecord =>
      refine h.keep t (.pushing record .unlock) rfl rfl rfl rfl rfl rfl ?_
        (by simp [Task.seesFilled]) (by simp [Task.seesEmpty]) h.listed
      rw [hcritical]
      rfl
  | unlock =>
      exact h.unlock (t := t) hcritical rfl rfl ⟨h.queue.fifo, h.queue.taken, h.queue.stored, h.queue.capacity⟩ rfl rfl h.listed

theorem Inv.dumpStep (h : s.Inv) {nonblock : Bool} {result : DumpResult}
    (htask : s.task t = .reading nonblock .dump) :
    Meets (· = .impossible) Inv (s.dumpStep t nonblock result) := by
  have hheld : s.mutex = some t := (h.holder t).1 (by rw [htask]; rfl)
  obtain ⟨hqueue, hlen⟩ := h.queue.kfifoOut (h.filled t (by rw [htask]; rfl))
  -- whatever the result, the task stays critical with a queue that is in order
  have hgo : ∀ point : ReadPoint, (Task.reading nonblock point).critical = true →
      ((Task.reading nonblock point).seesFilled = true → s.kfifoOut.1.fifo ≠ []) →
      (Task.reading nonblock point).seesEmpty = false →
      (s.kfifoOut.1.goto t (.reading nonblock point)).Inv := by
    intro point hcritical hfilled hempty
    refine h.move t (.reading nonblock point) rfl (fun _ _ => Iff.rfl)
      ⟨fun _ => hheld, fun _ => hcritical⟩ ?_ (Or.inr hheld) hfilled (by simp [hempty]) h.listed
    exact ⟨hqueue.fifo, hqueue.taken, hqueue.stored, hqueue.capacity⟩
  have hwhole : ¬s.kfifoOut.2.length ≠ sizeofPtr := not_not.2 hlen
  simp only [FifoSys.dumpStep, if_neg hwhole]
  cases result with
  | dumped =>
      cases hrest : s.kfifoOut.1.fifo with
      | nil =>
          exact hgo .unlock rfl (by simp [Task.seesFilled]) rfl
      | cons b rest =>
          exact hgo .dump rfl (by simp [hrest]) rfl
  | shortWrite =>
      exact hgo .unlock rfl (by simp [Task.seesFilled]) rfl
  | failed =>
      exact hgo .unlock rfl (by simp [Task.seesFilled]) rfl

theorem Inv.readStep (h : s.Inv) {nonblock : Bool} {result : DumpResult} {point : ReadPoint}
    (htask : s.task t = .reading nonblock point) :
    Meets (· = .impossible) Inv (s.readStep t nonblock result point) := by
  -- a step that only goes on, inside the mutex or outside of it as before
  have hgo : ∀ {s' : FifoSys} (point' : ReadPoint),
      s'.task = Function.update s.task t (.reading nonblock point') → s'.mutex = s.mutex →
      s'.fifo = s.fifo → s'.pushed = s.pushed → s'.stored = s.stored → s'.taken = s.taken →
      (Task.reading nonblock point').critical = (Task.reading nonblock point).critical →
      ((Task.reading nonblock point').seesFilled = true → s.fifo ≠ []) →
      ((Task.reading nonblock point').seesEmpty = true → s.fifo = []) →
      (∀ u, s'.sleeping u = true → s'.waiting u = true) → s'.Inv := by
    intro s' point' h₁ h₂ h₃ h₄ h₅ h₆ hcritical hfilled hempty hlisted
    exact h.keep t (.reading nonblock point') h₁ h₂ h₃ h₄ h₅ h₆ (by rw [htask, hcritical]) hfilled hempty
      hlisted
  cases point with
  | addWaitQueue =>
      refine hgo .lock rfl rfl rfl rfl rfl rfl rfl (by simp [Task.seesFilled])
        (by simp [Task.seesEmpty]) fun u hu => ?_
      by_cases hut : u = t
      · subst hut
        exact Function.update_self ..
      · exact (Function.update_of_ne hut ..).trans (h.listed u hu)
  | lock =>
      exact h.lock rfl rfl rfl
  | testEmpty =>
      cases hfifo : s.fifo with
      | nil =>
          simp only [FifoSys.readStep, hfifo, List.isEmpty_nil, if_true]
          exact hgo .unlockEmpty rfl rfl rfl rfl rfl rfl rfl (by simp [Task.seesFilled])
            (fun _ => hfifo) h.listed
      | cons b rest =>
          simp only [FifoSys.readStep, hfifo, List.isEmpty_cons]
          exact hgo .finishWait rfl rfl rfl rfl rfl rfl rfl (by simp [hfifo])
            (by simp [Task.seesEmpty]) h.listed
  | unlockEmpty =>
      exact h.unlock (t := t) (by rw [htask]; rfl) rfl rfl ⟨h.queue.fifo, h.queue.taken, h.queue.stored, h.queue.capacity⟩ rfl rfl h.listed
  | testNonblock =>
      simp only [FifoSys.readStep]
      split_ifs
      · exact hgo .cleanup rfl rfl rfl rfl rfl rfl rfl (by simp [Task.seesFilled])
          (by simp [Task.seesEmpty]) h.listed
      · exact hgo .prepareToWait rfl rfl rfl rfl rfl rfl rfl (by simp [Task.seesFilled])
          (by simp [Task.seesEmpty]) h.listed
  | prepareToWait =>
      exact hgo .schedule rfl rfl rfl rfl rfl rfl rfl (by simp [Task.seesFilled])
        (by simp [Task.seesEmpty]) (listed_update h fun _ => rfl)
  | schedule =>
      simp only [FifoSys.readStep]
      split_ifs
      · exact hgo .testSignal rfl rfl rfl rfl rfl rfl rfl (by simp [Task.seesFilled])
          (by simp [Task.seesEmpty]) (listed_awake h)
      · exact hgo .asleep rfl rfl rfl rfl rfl rfl rfl (by simp [Task.seesFilled])
          (by simp [Task.seesEmpty]) h.listed
      · exact hgo .testSignal rfl rfl rfl rfl rfl rfl rfl (by simp [Task.seesFilled])
          (by simp [Task.seesEmpty]) h.listed
  | asleep =>
      simp only [FifoSys.readStep]
      split_ifs
      · rfl
      · exact hgo .testSignal rfl rfl rfl rfl rfl rfl rfl (by simp [Task.seesFilled])
          (by simp [Task.seesEmpty]) h.listed
  | testSignal =>
      simp only [FifoSys.readStep]
      split_ifs
      · exact hgo .cleanup rfl rfl rfl rfl rfl rfl rfl (by simp [Task.seesFilled])
          (by simp [Task.seesEmpty]) h.listed
      · exact hgo .lock rfl rfl rfl rfl rfl rfl rfl (by simp [Task.seesFilled])
          (by simp [Task.seesEmpty]) h.listed
  | finishWait =>
      exact hgo .dump rfl rfl rfl rfl rfl rfl rfl (fun _ => h.filled t (by rw [htask]; rfl))
        (by simp [Task.seesEmpty]) (listed_update h fun hb => hb)
  | dump =>
      exact h.dumpStep htask
  | unlock =>
      exact h.unlock (t := t) (by rw [htask]; rfl) rfl rfl ⟨h.queue.fifo, h.queue.taken, h.queue.stored, h.queue.capacity⟩ rfl rfl h.listed
  | cleanup =>
      refine h.keep t .outside rfl rfl rfl rfl rfl rfl ?_ (by simp [Task.seesFilled])
        (by simp [Task.seesEmpty]) (listed_update h fun hb => hb)
      rw [htask]
      rfl

theorem Inv.start (h : s.Inv) (hcritical : task.critical = false) :
    Meets (· = .impossible) Inv (s.start t task) := by
  unfold FifoSys.start
  split
  · rename_i houtside
    refine h.keep t task rfl rfl rfl rfl rfl rfl ?_ (fun hsees => ?_) (fun hsees => ?_)
      h.listed
    · rw [houtside, hcritical]
      rfl
    · rw [Task.critical_of_seesFilled hsees] at hcritical
      cases hcritical
    · rw [Task.critical_of_seesEmpty hsees] at hcritical
      cases hcritical
  · rfl

theorem Inv.step (h : s.Inv) (e : FifoEvent) : Meets (· = .impossible) Inv (s.step e) := by
  cases e with
  | startPush t record =>
      exact h.start rfl
  | startRead t nonblock =>
      exact h.start rfl
  | advance t result =>
      simp only [FifoSys.step]
      cases htask : s.task t with
      | outside =>
          rfl
      | pushing record point =>
          exact h.pushStep htask
      | reading nonblock point =>
          exact h.readStep htask
  | signal t =>
      have hqueue := h.queue
      exact ⟨h.holder, ⟨hqueue.fifo, hqueue.taken, hqueue.stored, hqueue.capacity⟩, h.filled, h.empty,
        listed_awake h⟩

theorem Inv.step_ok (h : s.Inv) {e : FifoEvent} (hs : s.step e = .ok s') : s'.Inv :=
  (h.step e).of_ok hs

/-! ## Waiting -/

/-- The points of `read_proc` at which a task neither has the mutex nor takes it. -/
def waits : ReadPoint → Bool
  | .addWaitQueue => true
  | .testNonblock => true
  | .prepareToWait => true
  | .schedule => true
  | .asleep => true
  | .testSignal => true
  | _ => false

/-- At these the task goes on without the mutex and leaves the FIFO alone. -/
theorem readStep_waits {nonblock : Bool} {point : ReadPoint} {result : DumpResult}
    (hwaits : waits point = true) (hs : s.readStep t nonblock result point = .ok s') :
    ∃ point', (Task.reading nonblock point').critical = false ∧
      s'.task = Function.update s.task t (.reading nonblock point') ∧ s'.mutex = s.mutex ∧
      s'.fifo = s.fifo ∧ s'.pushed = s.pushed ∧ s'.taken = s.taken := by
  cases point with
  | addWaitQueue =>
      cases hs
      exact ⟨.lock, rfl, rfl, rfl, rfl, rfl, rfl⟩
  | testNonblock =>
      simp only [FifoSys.readStep] at hs
      split at hs
      · cases hs
        exact ⟨.cleanup, rfl, rfl, rfl, rfl, rfl, rfl⟩
      · cases hs
        exact ⟨.prepareToWait, rfl, rfl, rfl, rfl, rfl, rfl⟩
  | prepareToWait =>
      cases hs
      exact ⟨.schedule, rfl, rfl, rfl, rfl, rfl, rfl⟩
  | schedule =>
      simp only [FifoSys.readStep] at hs
      split at hs
      · cases hs
        exact ⟨.testSignal, rfl, rfl, rfl, rfl, rfl, rfl⟩
      · split at hs
        · cases hs
          exact ⟨.asleep, rfl, rfl, rfl, rfl, rfl, rfl⟩
        · cases hs
          exact ⟨.testSignal, rfl, rfl, rfl, rfl, rfl, rfl⟩
  | asleep =>
      simp only [FifoSys.readStep] at hs
      split at hs
      · cases hs
      · cases hs
        exact ⟨.testSignal, rfl, rfl, rfl, rfl, rfl, rfl⟩
  | testSignal =>
      simp only [FifoSys.readStep] at hs
      split at hs
      · cases hs
        exact ⟨.cleanup, rfl, rfl, rfl, rfl, rfl, rfl⟩
      · cases hs
        exact ⟨.lock, rfl, rfl, rfl, rfl, rfl, rfl⟩
  | _ =>
      cases hwaits

/-! ## Every run -/

structure Integrity (s : FifoSys) : Prop where
  aligned : sizeofPtr ∣ s.fifo.length
  /-- Every `kfifo_in` has stored a whole pointer or nothing. -/
  allOrNothing : ∀ n ∈ s.stored, n = 0 ∨ n = sizeofPtr
  /-- Every `kfifo_out` has returned all bytes of a pushed pointer: of the first, then of the second,
  and so on. -/
  inOrder : ∀ (i : Nat) (bytes : List Byte), s.taken[i]? = some bytes → ∃ p, s.pushed[i]? = some p ∧ bytes = wordBytes p
  /-- What has been pushed and not taken is still there. -/
  rest : s.fifo = (s.pushed.drop s.taken.length).flatMap wordBytes

theorem Queue.integrity (h : s.Queue) : s.Integrity := by
  refine ⟨?_, h.stored, fun i bytes hbytes => ?_, h.fifo⟩
  · rw [h.fifo, fixedWidth_wordBytes.length_flatMap]
    exact Nat.dvd_mul_right ..
  · rw [h.taken, List.getElem?_map, Option.map_eq_some_iff] at hbytes
    obtain ⟨p, hp, rfl⟩ := hbytes
    rw [List.getElem?_take] at hp
    split_ifs at hp
    exact ⟨p, hp, rfl⟩

/-- Every reachable state meets `Integrity`, and no run stops because `dump_single_record` freed a
record that it had not taken. -/
theorem integrity_reachable (es : List FifoEvent) :
    Meets (· = .impossible) Integrity (run step init es) :=
  (Meets.run (fun _ e h => h.step e) inv_init es).mono (fun _ hf => hf) fun _ h => h.queue.integrity

end FifoSys

end RrPython
