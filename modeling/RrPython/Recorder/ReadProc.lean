import RrPython.Foundation.BlockQueue
import RrPython.Foundation.Outcome
import RrPython.Recorder.Hooks

/-!
# ReadProc — `read_proc` and `post_syscall` step by step

The FIFO as the byte queue that `kfifo` is, and the tasks that use it.  A task in `post_syscall` pushes
the pointer of its record, a task in `read_proc` waits until there is one and dumps.  Both do so under
the mutex `recorded_syscalls_mutex`; a reader gives it back while it waits.  The tasks take their steps
in any order, so a whole read or push is not one event here.
-/

namespace RrPython

open Foundation

/-- The statements of `post_syscall` from its `mutex_lock` on. -/
inductive PushPoint
  | lock
  | push
  | wakeUp
  /-- `kfifo_in` stored nothing. -/
  | freeRecord
  | unlock
  deriving DecidableEq, Repr

/-- The statements of `read_proc`. -/
inductive ReadPoint
  | addWaitQueue
  | lock
  | testEmpty
  | unlockEmpty
  | testNonblock
  | prepareToWait
  | schedule
  /-- Inside `schedule()`. -/
  | asleep
  | testSignal
  | finishWait
  /-- In the loop of `dump_records`, about to take a record. -/
  | dump
  | unlock
  /-- The labels `cleanup_signal` and `cleanup_noblock`. -/
  | cleanup
  deriving DecidableEq, Repr

inductive Task
  | outside
  | pushing (record : Ptr) (point : PushPoint)
  | reading (nonblock : Bool) (point : ReadPoint)
  deriving DecidableEq, Repr

/-- How `dump_single_record` goes on once it has taken a record. -/
inductive DumpResult
  | dumped
  | shortWrite
  | failed
  deriving DecidableEq, Repr

structure FifoSys where
  /-- `recorded_syscalls_mutex` and the task that holds it. -/
  mutex : Option Pid
  /-- `recorded_syscalls`. -/
  fifo : List Byte
  /-- Which tasks `recorded_syscalls_wait` lists. -/
  waiting : Pid → Bool
  /-- Which tasks are in the state `TASK_INTERRUPTIBLE`. -/
  sleeping : Pid → Bool
  /-- `signal_pending`. -/
  signalled : Pid → Bool
  task : Pid → Task
  /-- History: the pointers that `kfifo_in` has stored. -/
  pushed : List Ptr
  /-- History: what each `kfifo_in` returned. -/
  stored : List Nat
  /-- History: the bytes that each `kfifo_out` returned. -/
  taken : List (List Byte)

inductive FifoEvent
  /-- `t` runs `post_syscall` with `record` as the current record. -/
  | startPush (t : Pid) (record : Ptr)
  | startRead (t : Pid) (nonblock : Bool)
  /-- `t` takes its next step; `result` is for the steps that dump. -/
  | advance (t : Pid) (result : DumpResult)
  /-- A signal is sent to `t`, which wakes it up. -/
  | signal (t : Pid)

namespace FifoSys

/-- The FIFO is empty and no task is in one of the two functions. -/
def init : FifoSys where
  mutex := none
  fifo := []
  waiting := fun _ => false
  sleeping := fun _ => false
  signalled := fun _ => false
  task := fun _ => .outside
  pushed := []
  stored := []
  taken := []

def goto (s : FifoSys) (t : Pid) (task : Task) : FifoSys :=
  { s with task := Function.update s.task t task }

/-- Back to user mode, where pending signals are delivered. -/
def leave (s : FifoSys) (t : Pid) : FifoSys :=
  { s.goto t .outside with signalled := Function.update s.signalled t false }

/-- A task at a held mutex takes no step. -/
def mutexLock (s : FifoSys) (t : Pid) : Except Fault FifoSys :=
  match s.mutex with
  | none => .ok { s with mutex := some t }
  | some _ => .error .impossible

def mutexUnlock (s : FifoSys) : FifoSys :=
  { s with mutex := none }

/-- `wake_up`: the listed tasks that sleep run again, and leave the list. -/
def wakeUp (s : FifoSys) : FifoSys :=
  { s with
    waiting := fun r => s.waiting r && !s.sleeping r
    sleeping := fun r => s.sleeping r && !s.waiting r }

def addWaitQueue (s : FifoSys) (t : Pid) : FifoSys :=
  { s with waiting := Function.update s.waiting t true }

def prepareToWait (s : FifoSys) (t : Pid) : FifoSys :=
  { s with
    waiting := Function.update s.waiting t true
    sleeping := Function.update s.sleeping t true }

def setRunning (s : FifoSys) (t : Pid) : FifoSys :=
  { s with sleeping := Function.update s.sleeping t false }

def finishWait (s : FifoSys) (t : Pid) : FifoSys :=
  { s.setRunning t with waiting := Function.update s.waiting t false }

/-- `kfifo_in(&recorded_syscalls, &current_syscall_record, sizeof(void *))`. -/
def kfifoIn (s : FifoSys) (record : Ptr) : FifoSys × Nat :=
  let (fifo, n) := enqueue syscallFifoSize s.fifo (wordBytes record)
  ({ s with
    fifo
    pushed := if n = sizeofPtr then s.pushed ++ [record] else s.pushed
    stored := s.stored ++ [n] }, n)

/-- `kfifo_out(&recorded_syscalls, &syscall_record, sizeof(syscall_record))`. -/
def kfifoOut (s : FifoSys) : FifoSys × List Byte :=
  let (bytes, fifo) := dequeue s.fifo sizeofPtr
  ({ s with fifo, taken := s.taken ++ [bytes] }, bytes)

def pushStep (s : FifoSys) (t : Pid) (record : Ptr) : PushPoint → Except Fault FifoSys
  | .lock => do
      let s ← s.mutexLock t
      pure (s.goto t (.pushing record .push))
  | .push =>
      let (s, n) := s.kfifoIn record
      if n = sizeofPtr then .ok (s.goto t (.pushing record .wakeUp))
      else .ok (s.goto t (.pushing record .freeRecord))
  | .wakeUp => .ok (s.wakeUp.goto t (.pushing record .unlock))
  | .freeRecord => .ok (s.goto t (.pushing record .unlock))
  | .unlock => .ok (s.mutexUnlock.leave t)

/-- One turn of the loop of `dump_records`. -/
def dumpStep (s : FifoSys) (t : Pid) (nonblock : Bool) (result : DumpResult) :
    Except Fault FifoSys :=
  let (s, bytes) := s.kfifoOut
  -- cleanup frees the uninitialised `syscall_record`
  if bytes.length ≠ sizeofPtr then .error .badFree
  else
    match result with
    | .dumped =>
        if s.fifo.isEmpty then .ok (s.goto t (.reading nonblock .unlock))
        else .ok (s.goto t (.reading nonblock .dump))
    | .shortWrite => .ok (s.goto t (.reading nonblock .unlock))
    | .failed => .ok (s.goto t (.reading nonblock .unlock))

def readStep (s : FifoSys) (t : Pid) (nonblock : Bool) (result : DumpResult) :
    ReadPoint → Except Fault FifoSys
  | .addWaitQueue => .ok ((s.addWaitQueue t).goto t (.reading nonblock .lock))
  | .lock => do
      let s ← s.mutexLock t
      pure (s.goto t (.reading nonblock .testEmpty))
  | .testEmpty =>
      if s.fifo.isEmpty then .ok (s.goto t (.reading nonblock .unlockEmpty))
      else .ok (s.goto t (.reading nonblock .finishWait))
  | .unlockEmpty => .ok (s.mutexUnlock.goto t (.reading nonblock .testNonblock))
  | .testNonblock =>
      if nonblock then .ok (s.goto t (.reading nonblock .cleanup))
      else .ok (s.goto t (.reading nonblock .prepareToWait))
  | .prepareToWait => .ok ((s.prepareToWait t).goto t (.reading nonblock .schedule))
  | .schedule =>
      -- a task with a pending signal does not go to sleep
      if s.signalled t then .ok ((s.setRunning t).goto t (.reading nonblock .testSignal))
      else if s.sleeping t then .ok (s.goto t (.reading nonblock .asleep))
      else .ok (s.goto t (.reading nonblock .testSignal))
  | .asleep =>
      if s.sleeping t then .error .impossible else .ok (s.goto t (.reading nonblock .testSignal))
  | .testSignal =>
      if s.signalled t then .ok (s.goto t (.reading nonblock .cleanup))
      else .ok (s.goto t (.reading nonblock .lock))
  | .finishWait => .ok ((s.finishWait t).goto t (.reading nonblock .dump))
  | .dump => s.dumpStep t nonblock result
  | .unlock => .ok (s.mutexUnlock.leave t)
  | .cleanup => .ok ((s.finishWait t).leave t)

def start (s : FifoSys) (t : Pid) (task : Task) : Except Fault FifoSys :=
  match s.task t with
  | .outside => .ok (s.goto t task)
  | _ => .error .impossible

def step (s : FifoSys) : FifoEvent → Except Fault FifoSys
  | .startPush t record => s.start t (.pushing record .lock)
  | .startRead t nonblock => s.start t (.reading nonblock .addWaitQueue)
  | .advance t result =>
      match s.task t with
      | .outside => .error .impossible
      | .pushing record point => s.pushStep t record point
      | .reading nonblock point => s.readStep t nonblock result point
  | .signal t => .ok { s.setRunning t with signalled := Function.update s.signalled t true }

end FifoSys

end RrPython
