import RrPython.Foundation.Linearization
import RrPython.Recorder.FifoIntegrity
import RrPython.Recorder.Refinement

/-!
# Serialized — the tasks use the FIFO one whole section after the other

`post_syscall` and `read_proc` take many steps, and those of different tasks are interleaved.  What they
do to the FIFO is what a machine does that performs each `kfifo_in`, each look at an empty FIFO and each
whole call of `dump_records` at once, in the order in which the mutex was held.  It is the machine that
the events of `System` are events of.
-/

namespace RrPython

open Foundation

/-- What a task does to the FIFO while it holds the mutex. -/
inductive Section (α : Type)
  | push (t : Pid) (record : α)
  /-- `read_proc` finds the FIFO empty. -/
  | look (t : Pid)
  /-- A call of `dump_records`, and how each turn of its loop went. -/
  | dump (t : Pid) (results : List DumpResult)

structure AtomicFifo (α : Type) where
  queue : List α
  /-- History: everything that was put into the FIFO. -/
  pushed : List α
  /-- History: everything that was taken out of it. -/
  taken : List α

/-- The records that a call of `dump_records` takes, and those that it leaves. -/
def dumpSection {α : Type} : List α → List DumpResult → Option (List α × List α)
  | R :: rest, result :: results =>
      match result, rest with
      | .dumped, _ :: _ => (dumpSection rest results).map fun x => (R :: x.1, x.2)
      | _, _ => if results.isEmpty then some ([R], rest) else none
  | _, _ => none

namespace AtomicFifo

variable {α : Type}

def init : AtomicFifo α where
  queue := []
  pushed := []
  taken := []

def step (a : AtomicFifo α) : Section α → Except Fault (AtomicFifo α)
  | .push _ record =>
      if sizeofPtr * a.queue.length + sizeofPtr ≤ syscallFifoSize then
        .ok { a with queue := a.queue ++ [record], pushed := a.pushed ++ [record] }
      else .ok a
  | .look _ => if a.queue.isEmpty then .ok a else .error .impossible
  | .dump _ results =>
      match dumpSection a.queue results with
      | some (taken, left) => .ok { a with queue := left, taken := a.taken ++ taken }
      | none => .error .impossible

end AtomicFifo

/-! ## The call of `dump_records` -/

section DumpSection

variable {α : Type}

/-- One more turn of a loop that has stored all records so far and not emptied the FIFO. -/
theorem dumpSection_dumped (taken : List α) {left : List α} (hleft : left ≠ [])
    (results : List DumpResult) :
    dumpSection (taken ++ left) (List.replicate taken.length .dumped ++ results) =
      (dumpSection left results).map fun x => (taken ++ x.1, x.2) := by
  induction taken with
  | nil =>
      simp
  | cons R taken ih =>
      obtain ⟨R', rest, hrest⟩ : ∃ R' rest, taken ++ left = R' :: rest := by
        cases htail : taken ++ left with
        | nil =>
            exact absurd (List.append_eq_nil_iff.1 htail).2 hleft
        | cons R' rest =>
            exact ⟨R', rest, rfl⟩
      rw [List.cons_append, List.length_cons, List.replicate_succ, List.cons_append, hrest, dumpSection,
        ← hrest, ih, Option.map_map]
      rfl

/-- The last turn. -/
theorem dumpSection_last {R : α} {rest : List α} {result : DumpResult}
    (hlast : result = .dumped → rest = []) : dumpSection (R :: rest) [result] = some ([R], rest) := by
  cases result with
  | dumped =>
      rw [hlast rfl]
      rfl
  | shortWrite =>
      rfl
  | failed =>
      rfl

end DumpSection

/-! ## The tasks -/

/-- The task is not within a call of `dump_records`. -/
def Task.idle : Task → Bool
  | .reading _ point => point != .dump && point != .unlock
  | _ => true

theorem Task.idle_of_not_critical {task : Task} (h : task.critical = false) : task.idle = true := by
  cases task with
  | reading nonblock point =>
      cases point with
      | dump =>
          cases h
      | unlock =>
          cases h
      | _ =>
          rfl
  | _ =>
      rfl

namespace FifoSys

/-- How the turns of the call of `dump_records` that is under way have gone. -/
def remember (s : FifoSys) (results : List DumpResult) : FifoEvent → List DumpResult
  | .advance t result =>
      match s.task t with
      | .reading _ .finishWait => []
      | .reading _ .dump => results ++ [result]
      | _ => results
  | _ => results

/-- The section that takes effect with an event: a push at its `kfifo_in`, a look at its
`kfifo_is_empty`, a call of `dump_records` when it is over. -/
def commits (s : FifoSys) (results : List DumpResult) : FifoEvent → Option (Section Ptr)
  | .advance t _ =>
      match s.task t with
      | .pushing record .push => some (.push t record)
      | .reading _ .testEmpty => if s.fifo.isEmpty then some (.look t) else none
      | .reading _ .unlock => some (.dump t results)
      | _ => none
  | _ => none

def sections (es : List FifoEvent) : List (Section Ptr) :=
  committed step remember commits init [] es

/-- How far the holder of the mutex has come with a FIFO that was `queue` at the start of its section:
`taken` is what it has taken out, `left` the rest. -/
def Midway (task : Task) (results : List DumpResult) (queue taken left : List Ptr) : Prop :=
  match task with
  | .reading _ .dump => results = List.replicate taken.length .dumped
  | .reading _ .unlock => dumpSection queue results = some (taken, left)
  | _ => taken = []

/-- The atomic machine is in the state in which the holder of the mutex has found the FIFO. -/
structure Serial (s : FifoSys) (results : List DumpResult) (a : AtomicFifo Ptr)
    (taken left : List Ptr) : Prop where
  inv : s.Inv
  pushed : s.pushed = a.pushed
  queue : a.queue = taken ++ left
  fifo : s.fifo = left.flatMap wordBytes
  history : s.taken = (a.taken ++ taken).map wordBytes
  free : s.mutex = none → taken = []
  midway : ∀ t, s.mutex = some t → Midway (s.task t) results a.queue taken left

variable {s s' : FifoSys} {results : List DumpResult} {a : AtomicFifo Ptr} {taken left : List Ptr}
  {t : Pid}

/-- What the atomic machine does with a step. -/
def Answers (s : FifoSys) (results : List DumpResult) (e : FifoEvent) (s' : FifoSys)
    (a : AtomicFifo Ptr) : Prop :=
  ∃ a' taken' left', run AtomicFifo.step a (s.commits results e).toList = .ok a' ∧
    s'.Serial (s.remember results e) a' taken' left'

theorem serial_init : init.Serial [] AtomicFifo.init [] [] where
  inv := inv_init
  pushed := rfl
  queue := rfl
  fifo := rfl
  history := rfl
  free := fun _ => rfl
  midway := by
    intro t ht
    cases ht

theorem midway_idle {task : Task} (hidle : task.idle = true) {queue : List Ptr} :
    Midway task results queue taken left ↔ taken = [] := by
  cases task with
  | outside =>
      rfl
  | pushing record point =>
      rfl
  | reading nonblock point =>
      cases point with
      | dump =>
          cases hidle
      | unlock =>
          cases hidle
      | _ =>
          rfl

namespace Serial

theorem holder_idle (h : s.Serial results a taken left) (hcritical : (s.task t).critical = true)
    (hidle : (s.task t).idle = true) : s.mutex = some t ∧ taken = [] := by
  have hheld := (h.inv.holder t).1 hcritical
  exact ⟨hheld, (midway_idle hidle).1 (h.midway t hheld)⟩

/-- A step of a task that is not within `dump_records`, before and after. -/
theorem keep (h : s.Serial results a taken left) (hinv : s'.Inv) (task : Task)
    (htask : s'.task = Function.update s.task t task) (hmutex : s'.mutex = s.mutex)
    (hfifo : s'.fifo = s.fifo) (hpushed : s'.pushed = s.pushed) (htaken : s'.taken = s.taken)
    (hidle : (s.task t).idle = true) (hidle' : task.idle = true) :
    s'.Serial results a taken left where
  inv := hinv
  pushed := hpushed.trans h.pushed
  queue := h.queue
  fifo := hfifo.trans h.fifo
  history := htaken.trans h.history
  free := by
    rw [hmutex]
    exact h.free
  midway := by
    intro u hu
    rw [hmutex] at hu
    have hmidway := h.midway u hu
    rw [htask]
    by_cases hut : u = t
    · subst hut
      rw [Function.update_self, midway_idle hidle']
      exact (midway_idle hidle).1 hmidway
    · rwa [Function.update_of_ne hut]

/-- Taking the mutex, and giving it back without having taken anything. -/
theorem switch (h : s.Serial results a taken left) (hinv : s'.Inv) (task : Task)
    (htask : s'.task = Function.update s.task t task)
    (hmutex : s'.mutex = none ∨ s'.mutex = some t) (hfifo : s'.fifo = s.fifo)
    (hpushed : s'.pushed = s.pushed) (htaken : s'.taken = s.taken) (hnil : taken = [])
    (hidle' : task.idle = true) : s'.Serial results a taken left where
  inv := hinv
  pushed := hpushed.trans h.pushed
  queue := h.queue
  fifo := hfifo.trans h.fifo
  history := htaken.trans h.history
  free := fun _ => hnil
  midway := by
    intro u hu
    rcases hmutex with hnone | hheld
    · rw [hnone] at hu
      cases hu
    · rw [hheld] at hu
      obtain rfl : t = u := Option.some.inj hu
      rw [htask, Function.update_self, midway_idle hidle']
      exact hnil

theorem lock (h : s.Serial results a taken left) {task : Task} (hinv : s'.Inv)
    (hs : (do
      let s ← s.mutexLock t
      pure (s.goto t task)) = Except.ok s') (hidle : task.idle = true) :
    s'.Serial results a taken left := by
  unfold mutexLock at hs
  split at hs
  · rename_i hfree
    cases hs
    exact h.switch hinv task rfl (Or.inr rfl) rfl rfl rfl (h.free hfree) hidle
  · cases hs

/-- `kfifo_in` is the push of the atomic machine. -/
theorem push (h : s.Serial results a taken left) {record : Ptr}
    (htask : s.task t = .pushing record .push) (hinv : s'.Inv)
    (hs : s.pushStep t record .push = .ok s') :
    ∃ a', a.step (.push t record) = .ok a' ∧ s'.Serial results a' [] a'.queue := by
  obtain ⟨hheld, hnil⟩ := h.holder_idle (t := t) (by rw [htask]; rfl) (by rw [htask]; rfl)
  have hqueue : a.queue = left := by
    rw [h.queue, hnil, List.nil_append]
  have hin := fixedWidth_wordBytes.enqueue_block sizeofPtr_dvd left record
  rw [← h.fifo] at hin
  have htaken := h.history
  rw [hnil, List.append_nil] at htaken
  by_cases hroom : sizeofPtr * left.length + sizeofPtr ≤ syscallFifoSize
  · rw [if_pos hroom] at hin
    simp only [FifoSys.pushStep, FifoSys.kfifoIn, hin, if_true] at hs
    cases hs
    refine ⟨{ a with queue := a.queue ++ [record], pushed := a.pushed ++ [record] }, ?_, ?_⟩
    · rw [AtomicFifo.step, hqueue, if_pos hroom]
    · refine ⟨hinv, ?_, rfl, ?_, ?_, fun _ => rfl, ?_⟩
      · exact congrArg (· ++ [record]) h.pushed
      · rw [hqueue]
        rfl
      · simpa [goto] using htaken
      · intro u hu
        obtain rfl : t = u := Option.some.inj (hheld.symm.trans hu)
        simp [goto, Midway]
  · rw [if_neg hroom] at hin
    have hzero : ¬(0 : Nat) = sizeofPtr := by
      decide
    simp only [FifoSys.pushStep, FifoSys.kfifoIn, hin, if_neg hzero] at hs
    cases hs
    refine ⟨a, ?_, ?_⟩
    · rw [AtomicFifo.step, hqueue, if_neg hroom]
    · refine ⟨hinv, h.pushed, rfl, ?_, ?_, fun _ => rfl, ?_⟩
      · rw [hqueue]
        exact h.fifo
      · simpa [goto] using htaken
      · intro u hu
        obtain rfl : t = u := Option.some.inj (hheld.symm.trans hu)
        simp [goto, Midway]

/-- A turn of the loop of `dump_records`. -/
theorem dump (h : s.Serial results a taken left) {nonblock : Bool} {result : DumpResult}
    (htask : s.task t = .reading nonblock .dump) (hinv : s'.Inv)
    (hs : s.dumpStep t nonblock result = .ok s') :
    ∃ taken' left', s'.Serial (results ++ [result]) a taken' left' := by
  have hheld : s.mutex = some t := (h.inv.holder t).1 (by rw [htask]; rfl)
  have hfilled := h.inv.filled t (by rw [htask]; rfl)
  have hresults := h.midway t hheld
  rw [htask] at hresults
  change results = List.replicate taken.length .dumped at hresults
  cases left with
  | nil =>
      exact absurd h.fifo hfilled
  | cons p rest =>
      have hout := fixedWidth_wordBytes.dequeue_block p rest
      rw [← h.fifo] at hout
      have hwhole : ¬(wordBytes p).length ≠ sizeofPtr := not_not.2 (length_wordBytes p)
      -- the state after the turn, wherever the loop goes on
      have hserial : ∀ point : ReadPoint,
          s' = (s.kfifoOut.1.goto t (.reading nonblock point)) →
          Midway (.reading nonblock point) (results ++ [result]) a.queue (taken ++ [p]) rest →
          s'.Serial (results ++ [result]) a (taken ++ [p]) rest := by
        rintro point rfl hmidway
        refine ⟨hinv, h.pushed, ?_, ?_, ?_, ?_, ?_⟩
        · rw [h.queue, List.append_assoc]
          rfl
        · simp [goto, FifoSys.kfifoOut, hout]
        · simp [goto, FifoSys.kfifoOut, hout, h.history]
        · intro hnone
          have hnone' : s.mutex = none := hnone
          rw [hheld] at hnone'
          cases hnone'
        · intro u hu
          obtain rfl : t = u := Option.some.inj (hheld.symm.trans hu)
          simpa [goto] using hmidway
      have hlast : (result = .dumped → rest = []) →
          Midway (.reading nonblock .unlock) (results ++ [result]) a.queue (taken ++ [p]) rest := by
        intro hstops
        change dumpSection a.queue (results ++ [result]) = some (taken ++ [p], rest)
        rw [h.queue, hresults, dumpSection_dumped taken (by simp), dumpSection_last hstops]
        rfl
      simp only [FifoSys.dumpStep, FifoSys.kfifoOut, hout, if_neg hwhole] at hs
      cases result with
      | dumped =>
          cases rest with
          | nil =>
              simp only [List.flatMap_nil, List.isEmpty_nil, if_true, Except.ok.injEq] at hs
              refine ⟨taken ++ [p], [], hserial .unlock ?_ (hlast fun _ => rfl)⟩
              rw [← hs]
              simp [FifoSys.kfifoOut, hout]
          | cons p' rest =>
              have hmore : ((p' :: rest).flatMap wordBytes).isEmpty = false := by
                rw [List.isEmpty_eq_false_iff, Ne, fixedWidth_wordBytes.flatMap_eq_nil]
                simp
              simp only [hmore, Bool.false_eq_true, if_false, Except.ok.injEq] at hs
              refine ⟨taken ++ [p], p' :: rest, hserial .dump ?_ ?_⟩
              · rw [← hs]
                simp [FifoSys.kfifoOut, hout]
              · change results ++ [.dumped] = List.replicate (taken ++ [p]).length .dumped
                rw [hresults, List.length_append, List.length_singleton, List.replicate_succ']
      | shortWrite =>
          simp only [Except.ok.injEq] at hs
          refine ⟨taken ++ [p], rest, hserial .unlock ?_ (hlast fun heq => by cases heq)⟩
          rw [← hs]
          simp [FifoSys.kfifoOut, hout]
      | failed =>
          simp only [Except.ok.injEq] at hs
          refine ⟨taken ++ [p], rest, hserial .unlock ?_ (hlast fun heq => by cases heq)⟩
          rw [← hs]
          simp [FifoSys.kfifoOut, hout]

/-- The end of a call of `dump_records`. -/
theorem endDump (h : s.Serial results a taken left) {nonblock : Bool}
    (htask : s.task t = .reading nonblock .unlock) (hinv : (s.mutexUnlock.leave t).Inv) :
    ∃ a', a.step (.dump t results) = .ok a' ∧
      (s.mutexUnlock.leave t).Serial results a' [] a'.queue := by
  have hheld : s.mutex = some t := (h.inv.holder t).1 (by rw [htask]; rfl)
  have hdump := h.midway t hheld
  rw [htask] at hdump
  change dumpSection a.queue results = some (taken, left) at hdump
  refine ⟨{ a with queue := left, taken := a.taken ++ taken }, ?_, hinv, h.pushed, rfl, h.fifo, ?_,
    fun _ => rfl, ?_⟩
  · simp only [AtomicFifo.step, hdump]
  · rw [List.append_nil]
    exact h.history
  · intro u hu
    cases hu

/-- A step that commits nothing. -/
theorem silent {e : FifoEvent} (hcommits : s.commits results e = none)
    (hremember : s.remember results e = results) (h : s'.Serial results a taken left) :
    s.Answers results e s' a := by
  refine ⟨a, taken, left, ?_, ?_⟩
  · rw [hcommits]
    rfl
  · rw [hremember]
    exact h

/-- A step that commits `op`. -/
theorem commit {e : FifoEvent} {op : Section Ptr} {a' : AtomicFifo Ptr}
    (hcommits : s.commits results e = some op) (hremember : s.remember results e = results)
    (hop : a.step op = .ok a') (h : s'.Serial results a' taken left) : s.Answers results e s' a := by
  refine ⟨a', taken, left, ?_, ?_⟩
  · rw [hcommits]
    exact run_cons_ok.2 ⟨a', hop, rfl⟩
  · rw [hremember]
    exact h

theorem pushStep (h : s.Serial results a taken left) {record : Ptr} {point : PushPoint}
    {result : DumpResult} (htask : s.task t = .pushing record point) (hinv : s'.Inv)
    (hs : s.pushStep t record point = .ok s') : s.Answers results (.advance t result) s' a := by
  have hremember : s.remember results (.advance t result) = results := by
    simp only [remember, htask]
  have hidle : (s.task t).idle = true := by
    rw [htask]
    rfl
  cases point with
  | lock =>
      exact silent (by simp only [commits, htask]) hremember (h.lock hinv hs rfl)
  | push =>
      obtain ⟨a', hop, h'⟩ := h.push htask hinv hs
      exact commit (by simp only [commits, htask]) hremember hop h'
  | wakeUp =>
      cases hs
      exact silent (by simp only [commits, htask]) hremember
        (h.keep hinv (.pushing record .unlock) rfl rfl rfl rfl rfl hidle rfl)
  | freeRecord =>
      cases hs
      exact silent (by simp only [commits, htask]) hremember
        (h.keep hinv (.pushing record .unlock) rfl rfl rfl rfl rfl hidle rfl)
  | unlock =>
      obtain ⟨_, hnil⟩ := h.holder_idle (t := t) (by rw [htask]; rfl) hidle
      cases hs
      exact silent (by simp only [commits, htask]) hremember
        (h.switch (t := t) hinv .outside rfl (Or.inl rfl) rfl rfl rfl hnil rfl)

/-- The look at a FIFO that is empty. -/
theorem look (h : s.Serial results a taken left) (hcritical : (s.task t).critical = true)
    (hidle : (s.task t).idle = true) (hempty : s.fifo = []) : a.step (.look t) = .ok a := by
  obtain ⟨_, hnil⟩ := h.holder_idle hcritical hidle
  have hleft : left = [] := fixedWidth_wordBytes.flatMap_eq_nil.1 (h.fifo.symm.trans hempty)
  have hqueue : a.queue = [] := by
    rw [h.queue, hnil, hleft]
    rfl
  simp only [AtomicFifo.step, hqueue, List.isEmpty_nil, if_true]

/-- A step of a task that waits for records. -/
theorem wait (h : s.Serial results a taken left) {nonblock : Bool} {point : ReadPoint}
    {result : DumpResult} (htask : s.task t = .reading nonblock point) (hwaits : waits point = true)
    (hinv : s'.Inv) (hs : s.readStep t nonblock result point = .ok s') :
    s.Answers results (.advance t result) s' a := by
  obtain ⟨point', hnot, hmove, hmutex, hfifo, hpushed, htaken⟩ := readStep_waits hwaits hs
  have hnot' : (s.task t).critical = false := by
    rw [htask]
    cases point with
    | addWaitQueue | testNonblock | prepareToWait | schedule | asleep | testSignal =>
        rfl
    | _ =>
        cases hwaits
  have hquiet : s.commits results (.advance t result) = none ∧
      s.remember results (.advance t result) = results := by
    simp only [commits, remember, htask]
    cases point with
    | addWaitQueue | testNonblock | prepareToWait | schedule | asleep | testSignal =>
        exact ⟨rfl, rfl⟩
    | _ =>
        cases hwaits
  exact silent hquiet.1 hquiet.2 (h.keep hinv _ hmove hmutex hfifo hpushed htaken
    (Task.idle_of_not_critical hnot') (Task.idle_of_not_critical hnot))

/-- The test of the FIFO is a look if it is empty. -/
theorem testEmpty (h : s.Serial results a taken left) {nonblock : Bool} {result : DumpResult}
    (htask : s.task t = .reading nonblock .testEmpty) (hinv : s'.Inv)
    (hs : s.readStep t nonblock result .testEmpty = .ok s') :
    s.Answers results (.advance t result) s' a := by
  have hidle : (s.task t).idle = true := by
    rw [htask]
    rfl
  have hremember : s.remember results (.advance t result) = results := by
    simp only [remember, htask]
  cases hfifo : s.fifo with
  | nil =>
      simp only [FifoSys.readStep, hfifo, List.isEmpty_nil, if_true, Except.ok.injEq] at hs
      subst hs
      have hlook : s.commits results (.advance t result) = some (.look t) := by
        simp only [commits, htask, hfifo, List.isEmpty_nil, if_true]
      exact commit hlook hremember (h.look (by rw [htask]; rfl) hidle hfifo)
        (h.keep hinv (.reading nonblock .unlockEmpty) rfl rfl rfl rfl rfl hidle rfl)
  | cons b bytes =>
      simp only [FifoSys.readStep, hfifo, List.isEmpty_cons, Bool.false_eq_true, if_false,
        Except.ok.injEq] at hs
      subst hs
      refine silent ?_ hremember
        (h.keep hinv (.reading nonblock .finishWait) rfl rfl rfl rfl rfl hidle rfl)
      simp only [commits, htask, hfifo, List.isEmpty_cons, Bool.false_eq_true, if_false]

theorem readStep (h : s.Serial results a taken left) {nonblock : Bool} {point : ReadPoint}
    {result : DumpResult} (htask : s.task t = .reading nonblock point) (hinv : s'.Inv)
    (hs : s.readStep t nonblock result point = .ok s') :
    s.Answers results (.advance t result) s' a := by
  cases point with
  | addWaitQueue | testNonblock | prepareToWait | schedule | asleep | testSignal =>
      exact h.wait htask rfl hinv hs
  | lock =>
      exact silent (by simp only [commits, htask]) (by simp only [remember, htask])
        (h.lock hinv hs rfl)
  | testEmpty =>
      exact h.testEmpty htask hinv hs
  | unlockEmpty =>
      obtain ⟨_, hnil⟩ := h.holder_idle (t := t) (by rw [htask]; rfl) (by rw [htask]; rfl)
      cases hs
      exact silent (by simp only [commits, htask]) (by simp only [remember, htask])
        (h.switch (t := t) hinv (.reading nonblock .testNonblock) rfl (Or.inl rfl) rfl rfl rfl hnil rfl)
  | finishWait =>
      -- the call of `dump_records` begins
      obtain ⟨hheld, hnil⟩ := h.holder_idle (t := t) (by rw [htask]; rfl) (by rw [htask]; rfl)
      cases hs
      refine ⟨a, taken, left, ?_, hinv, h.pushed, h.queue, h.fifo, h.history, fun _ => hnil, ?_⟩
      · simp only [commits, htask]
        rfl
      · intro u hu
        obtain rfl : t = u := Option.some.inj (hheld.symm.trans hu)
        simp [goto, remember, htask, Midway, hnil]
  | dump =>
      obtain ⟨taken', left', h'⟩ := h.dump htask hinv hs
      refine ⟨a, taken', left', ?_, ?_⟩
      · simp only [commits, htask]
        rfl
      · simpa only [remember, htask] using h'
  | unlock =>
      cases hs
      obtain ⟨a', hop, h'⟩ := h.endDump htask hinv
      exact commit (by simp only [commits, htask]) (by simp only [remember, htask]) hop h'
  | cleanup =>
      cases hs
      exact silent (by simp only [commits, htask]) (by simp only [remember, htask])
        (h.keep (t := t) hinv .outside rfl rfl rfl rfl rfl (by rw [htask]; rfl) rfl)

theorem start (h : s.Serial results a taken left) {task : Task} (hinv : s'.Inv)
    (hidle : task.idle = true) (hs : s.start t task = .ok s') : s'.Serial results a taken left := by
  unfold FifoSys.start at hs
  split at hs
  · rename_i houtside
    cases hs
    exact h.keep (t := t) hinv task rfl rfl rfl rfl rfl (by rw [houtside]; rfl) hidle
  · cases hs

theorem step (h : s.Serial results a taken left) {e : FifoEvent} (hs : s.step e = .ok s') :
    s.Answers results e s' a := by
  have hinv := h.inv.step_ok hs
  cases e with
  | startPush t record =>
      exact silent rfl rfl (h.start hinv rfl hs)
  | startRead t nonblock =>
      exact silent rfl rfl (h.start hinv rfl hs)
  | advance t result =>
      simp only [FifoSys.step] at hs
      split at hs
      · cases hs
      · rename_i record point htask
        exact h.pushStep htask hinv hs
      · rename_i nonblock point htask
        exact h.readStep htask hinv hs
  | signal t =>
      cases hs
      exact silent rfl rfl ⟨hinv, h.pushed, h.queue, h.fifo, h.history, h.free, h.midway⟩

end Serial

/-! ## Every run -/

/-- Whatever the interleaving, the tasks have used the FIFO one section after the other: pushes, looks
and whole calls of `dump_records`, each at a moment at which its task held the mutex. -/
theorem serialized {es : List FifoEvent} {s : FifoSys} (hrun : run step init es = .ok s) :
    ∃ a, run AtomicFifo.step AtomicFifo.init (sections es) = .ok a ∧ s.pushed = a.pushed ∧
      (s.mutex = none → s.fifo = a.queue.flatMap wordBytes ∧ s.taken = a.taken.map wordBytes) := by
  obtain ⟨results, a, ha, taken, left, h⟩ := run_committed remember commits AtomicFifo.step
    (R := fun s results a => ∃ taken left, s.Serial results a taken left)
    (fun s results a e s' hR hs => by
      obtain ⟨taken, left, h⟩ := hR
      obtain ⟨a', taken', left', ha', h'⟩ := h.step hs
      exact ⟨a', ha', taken', left', h'⟩) ⟨[], [], serial_init⟩ hrun
  refine ⟨a, ha, h.pushed, fun hfree => ?_⟩
  have hnil := h.free hfree
  constructor
  · rw [h.fifo, h.queue, hnil]
    rfl
  · rw [h.history, hnil, List.append_nil]

/-- A reader looks at the empty FIFO while task 1 waits for the mutex; task 1 then pushes a record. -/
def readerBeforePusher : List FifoEvent :=
  [.startRead 2 true, .startPush 1 7, .advance 2 .dumped, .advance 2 .dumped, .signal 1,
    .advance 2 .dumped, .advance 2 .dumped, .advance 1 .dumped, .advance 2 .dumped,
    .advance 1 .dumped, .advance 2 .dumped, .advance 1 .dumped, .advance 1 .dumped]

theorem serialized_readerBeforePusher :
    ∃ s a, run step init readerBeforePusher = .ok s ∧
      run AtomicFifo.step AtomicFifo.init [.look 2, .push 1 7] = .ok a ∧
      s.fifo = a.queue.flatMap wordBytes := by
  obtain ⟨s, hrun⟩ : ∃ s, run step init readerBeforePusher = .ok s := ⟨_, rfl⟩
  obtain ⟨a, ha, _, hfree⟩ := serialized hrun
  have hmutex : s.mutex = none := by
    cases hrun
    rfl
  exact ⟨s, a, hrun, ha, (hfree hmutex).1⟩

end FifoSys

/-! ## The events of the module -/

/-- The result of the turn in which a record meets its fate. -/
def Fate.result : Fate → DumpResult
  | .stored => .dumped
  | .failed => .failed
  | .lost => .shortWrite

/-- The loop of `dump_records` over values is a call of the atomic machine. -/
theorem dumpValues_section (R : Record) (rest : List Record) :
    ∀ (buf size : Word) (u : UserSpace) (sizeWritten : Int) (didDoFirstWrite : Bool),
      dumpSection (R :: rest) ((dumpValues R rest buf size u sizeWritten didDoFirstWrite).taken.map
          fun x => x.2.result) =
        some ((dumpValues R rest buf size u sizeWritten didDoFirstWrite).taken.map Prod.fst,
          (dumpValues R rest buf size u sizeWritten didDoFirstWrite).left) := by
  induction rest generalizing R with
  | nil =>
      intro buf size u sizeWritten didDoFirstWrite
      rcases hone : dumpOne R buf size u with ⟨fate, u'⟩
      cases fate <;> simp [dumpValues, hone, Fate.result, dumpSection]
  | cons R' rest ih =>
      intro buf size u sizeWritten didDoFirstWrite
      rcases hone : dumpOne R buf size u with ⟨fate, u'⟩
      cases fate with
      | lost =>
          simp [dumpValues, hone, Fate.result, dumpSection]
      | failed =>
          simp [dumpValues, hone, Fate.result, dumpSection]
      | stored =>
          have hnext := ih R' (buf + getRecordLen R) (size - getRecordLen R) u'
            (sizeWritten + (getRecordLen R).toNat) true
          have hresult : Fate.stored.result = .dumped := rfl
          simp [dumpValues, hone, hresult, dumpSection, hnext]

namespace ValueSys

/-- What an event of the module does to the FIFO. -/
def sectionOf (v : ValueSys) : Event → Option (Section Record)
  | .exitSyscall p regs =>
      match v.frames p, v.currentSyscallRecord with
      | .syscall true :: _, some R =>
          some (.push p { R with ret := (v.saveRegs p regs).taskPtRegs R.userspaceRegsPtr .rax })
      | _, _ => none
  | .read r =>
      match v.recordedSyscalls with
      | [] => some (.look 0)
      | R :: rest =>
          some (.dump 0 ((dumpValues R rest r.buf r.size r.user 0 false).taken.map
            fun x => x.2.result))
  | _ => none

def fifo (v : ValueSys) : AtomicFifo Record where
  queue := v.recordedSyscalls
  pushed := v.appended
  taken := v.taken.map Prod.fst

variable {v v' : ValueSys}

theorem fifo_finishRecord (v : ValueSys) (p : Pid) (R : Record) :
    v.fifo.step (.push p { R with ret := v.taskPtRegs R.userspaceRegsPtr .rax }) =
      .ok (v.finishRecord R).fifo := by
  by_cases hroom : sizeofPtr * v.recordedSyscalls.length + sizeofPtr ≤ syscallFifoSize
  · simp only [AtomicFifo.step, fifo, finishRecord, appended, hroom, if_true, List.append_assoc]
  · simp only [AtomicFifo.step, fifo, finishRecord, appended, hroom, if_false]

theorem section_exitSyscall {p : Pid} {regs : PtRegs} (hs : v.exitSyscall p regs = .ok v') :
    run AtomicFifo.step v.fifo (v.sectionOf (.exitSyscall p regs)).toList = .ok v'.fifo := by
  simp only [exitSyscall] at hs
  split at hs
  · rename_i rest hframes
    split at hs
    · rename_i hnone
      have hnone' : v.currentSyscallRecord = none := hnone
      cases hs
      simp only [sectionOf, hframes, hnone']
      rfl
    · rename_i R hrecord
      have hrecord' : v.currentSyscallRecord = some R := hrecord
      cases hs
      have hpush : v.sectionOf (.exitSyscall p regs) = some (.push p { R with
          ret := (v.saveRegs p regs).taskPtRegs R.userspaceRegsPtr .rax }) := by
        simp only [sectionOf, hframes, hrecord']
      rw [hpush]
      refine run_cons_ok.2 ⟨_, ?_, rfl⟩
      exact fifo_finishRecord ((v.saveRegs p regs).setFrames p rest) p R
  · rename_i rest hframes
    cases hs
    simp only [sectionOf, hframes]
    rfl
  · cases hs

theorem section_read {r : ReadArgs} (hs : v.read r = .ok v') :
    run AtomicFifo.step v.fifo (v.sectionOf (.read r)).toList = .ok v'.fifo := by
  unfold read at hs
  split at hs
  · cases hs
  · split at hs
    · rename_i hempty
      have hlook : v.sectionOf (.read r) = some (.look 0) := by
        simp only [sectionOf, hempty]
      have hstep : v.fifo.step (.look 0) = .ok v.fifo := by
        simp only [AtomicFifo.step, fifo, hempty, List.isEmpty_nil, if_true]
      rw [hlook]
      split at hs
      · cases hs
        exact run_cons_ok.2 ⟨_, hstep, rfl⟩
      · split at hs
        · cases hs
          exact run_cons_ok.2 ⟨_, hstep, rfl⟩
        · cases hs
    · rename_i R rest hcons
      cases hs
      have hdump : v.sectionOf (.read r) = some (.dump 0
          ((dumpValues R rest r.buf r.size r.user 0 false).taken.map fun x => x.2.result)) := by
        simp only [sectionOf, hcons]
      have hsplit := Stands.dumpValues_queue R rest r.buf r.size r.user 0 false
      rw [hdump]
      refine run_cons_ok.2 ⟨_, ?_, rfl⟩
      simp only [AtomicFifo.step, fifo, hcons, dumpValues_section]
      simp only [appended, hcons, ← hsplit, List.map_append, List.append_assoc]

theorem section_step {e : Event} (hs : v.step e = .ok v') :
    run AtomicFifo.step v.fifo (v.sectionOf e).toList = .ok v'.fifo := by
  cases e with
  | enterSyscall p regs a =>
      simp only [step, enterSyscall] at hs
      split at hs
      · split at hs <;>
          · cases hs
            rfl
      · cases hs
  | exitSyscall p regs =>
      exact section_exitSyscall hs
  | enterWrite p fn regs a =>
      cases hs
      unfold enterWrite
      split <;> rfl
  | exitWrite p returnValue mem =>
      simp only [step, exitWrite] at hs
      split at hs
      · split at hs
        · cases hs
          rfl
        · split at hs
          · cases hs
            rfl
          · cases hs
      · cases hs
        rfl
      · cases hs
  | enterWrap p w regs mem allocated =>
      cases hs
      rfl
  | exitWrap p mem allocated allocs =>
      simp only [step, exitWrap] at hs
      split at hs
      · split at hs
        · cases hs
          rfl
        · split at hs
          · cases hs
            rfl
          · cases hs
      · cases hs
  | writeProc ppos count parsed =>
      cases hs
      unfold writePid
      split <;> rfl
  | read r =>
      exact section_read hs

end ValueSys

/-- Every run of the module, whose reads and pushes are single events, is a run of the atomic machine
on the records that its FIFO stands for. -/
theorem Sys.runs_atomicFifo {pid : Int} {taskPtRegs : Pid → PtRegs} {es : List Event} {s : Sys}
    (hrun : run step (init pid taskPtRegs) es = .ok s) :
    ∃ sections a, run AtomicFifo.step AtomicFifo.init sections = .ok a ∧
      a.queue = s.kernel.queued ∧ a.pushed = s.appended := by
  obtain ⟨v, hv, hrefines⟩ := RefinesValues.of_run hrun
  obtain ⟨lost, hstands⟩ := hrefines.stands
  obtain ⟨_, a, ha, rfl⟩ := run_committed (fun _ c _ => c) (fun v (_ : Unit) e => v.sectionOf e)
    AtomicFifo.step (R := fun v _ a => a = v.fifo)
    (fun v _ a e v' hR hs => ⟨v'.fifo, hR ▸ ValueSys.section_step hs, rfl⟩) (c := ()) rfl hv
  exact ⟨_, _, ha, hstands.queued_eq.symm, hrefines.appended.symm⟩

end RrPython
