import RrPython.Recorder.Seen

/-!
# Window — recording that is started and stopped

`start_recording` writes the pid of a process to `/proc/recorded_process`, `stop_recording` writes 0, and
both may happen at any time, also while the process is inside a syscall.  What is recorded are the
syscalls that the process entered while its pid was set: the one in which recording is started is not
among them, the one in which it is stopped is.  A syscall that finds the FIFO full when it returns is
missing; all others are there, complete and in order.
-/

namespace RrPython

open Foundation

/-- What a process did, and which of its syscalls it entered while its pid was set. -/
structure Window where
  trace : Trace
  /-- `recorded_process_pid`. -/
  pid : Int
  /-- The last syscall was entered while the pid was set. -/
  entered : Bool
  /-- The syscalls that have returned, of those that were entered while the pid was set. -/
  log : List TracedSyscall

namespace Window

def init (pid : Int) (regs : PtRegs) : Window where
  trace := Trace.init regs
  pid
  entered := false
  log := []

def observe (p : Pid) (w : Window) (e : Event) : Window :=
  let trace := w.trace.observe p e
  match e with
  | .writeProc ppos count parsed =>
      if ppos > 0 ∨ count > bufferSize then { w with trace }
      else { w with trace, pid := parsed.getD w.pid }
  | .enterSyscall q _ _ => if q = p then { w with trace, entered := w.pid = p } else { w with trace }
  | .exitSyscall _ _ =>
      if w.entered then { w with trace, log := w.log ++ trace.log.drop w.trace.log.length }
      else { w with trace }
  | _ => { w with trace }

end Window

namespace Sys

/-- Nothing that the hooks of `p` ask for is refused, only `p` is ever recorded, and while `p` is inside a
recorded syscall its writes come before recording is stopped. -/
def Unhindered (p : Pid) (s : Sys) : Event → Prop
  | .enterSyscall q _ a => q = p → a.isSome
  | .exitSyscall _ _ => True
  | .enterWrite q _ _ a => q = p → a.isSome ∧ (s.Recording p → s.kernel.recordedProcessPid = p)
  | .exitWrite _ _ _ => True
  | .enterWrap q _ _ _ allocated =>
      q = p → allocated = true ∧ (s.Recording p → s.kernel.recordedProcessPid = p)
  | .exitWrap q mem allocated allocs => q = p → allocated = true ∧
      ∀ m rest, s.frames p = .wrap (some m) :: rest →
        (regionDiffs (some m) mem).length ≤ granted allocs
  | .writeProc _ _ parsed => ∀ pid, parsed = some pid → pid = 0 ∨ pid = p
  | .read _ => True

/-- A recorded syscall of `p` returns and finds the FIFO full. -/
def DropsRecord (p : Pid) (s : Sys) : Event → Prop
  | .exitSyscall q _ => q = p ∧ .syscall true ∈ s.frames p ∧ ¬s.kernel.hasRoom
  | _ => False

instance (p : Pid) (s : Sys) : ∀ e, Decidable (DropsRecord p s e)
  | .exitSyscall q _ =>
      inferInstanceAs (Decidable (q = p ∧ Frame.syscall true ∈ s.frames p ∧ ¬s.kernel.hasRoom))
  | .enterSyscall _ _ _ => inferInstanceAs (Decidable False)
  | .enterWrite _ _ _ _ => inferInstanceAs (Decidable False)
  | .exitWrite _ _ _ => inferInstanceAs (Decidable False)
  | .enterWrap _ _ _ _ _ => inferInstanceAs (Decidable False)
  | .exitWrap _ _ _ _ => inferInstanceAs (Decidable False)
  | .writeProc _ _ _ => inferInstanceAs (Decidable False)
  | .read _ => inferInstanceAs (Decidable False)

end Sys

/-- The value state and what has been recorded of `p`, `n` records having been dropped. -/
structure Window.Tells (p : Pid) (n : Nat) (w : Window) (v : ValueSys) : Prop where
  confined : ValueSys.Confined (· = p) v
  pid : v.recordedProcessPid = w.pid
  sees : Sees p v w.trace w.entered
  sublist : v.appended.Sublist (w.log.map (TracedSyscall.record p))
  count : v.appended.length + n = w.log.length

namespace Window

variable {p : Pid} {n : Nat} {w : Window} {v v' : ValueSys}

theorem tells_init {pid : Int} (hpid : pid = 0 ∨ pid = p) (taskPtRegs : Pid → PtRegs) :
    Tells p 0 (init pid (taskPtRegs p)) (ValueSys.init pid taskPtRegs) where
  confined := ValueSys.confined_init hpid taskPtRegs
  pid := rfl
  sees := Sees.init pid taskPtRegs
  sublist := .slnil
  count := rfl

/-- An event after which no syscall of the process has returned. -/
theorem Tells.quiet (h : Tells p n w v) (hconfined : ValueSys.Confined (· = p) v') {w' : Window}
    (hlog : w'.log = w.log) (hpid : v'.recordedProcessPid = w'.pid)
    (hsees : Sees p v' w'.trace w'.entered) (happended : v'.appended = v.appended) :
    Tells p n w' v' where
  confined := hconfined
  pid := hpid
  sees := hsees
  sublist := by
    rw [happended, hlog]
    exact h.sublist
  count := by
    rw [happended, hlog]
    exact h.count

/-- The return of a syscall of the process. -/
theorem Tells.exitSyscall (h : Tells p n w v) (hconfined : ValueSys.Confined (· = p) v')
    {regs : PtRegs} (hs : v.exitSyscall p regs = .ok v') {drops : Prop} [Decidable drops]
    (hdrops : drops ↔ .syscall true ∈ v.frames p ∧
      ¬sizeofPtr * v.recordedSyscalls.length + sizeofPtr ≤ syscallFifoSize) :
    Tells p (n + if drops then 1 else 0) (w.observe p (.exitSyscall p regs)) v' := by
  have htrace : w.trace.observe p (.exitSyscall p regs) = w.trace.advance (.exitSyscall p regs) :=
    if_pos rfl
  -- what the window logs is what the record is compared with
  have hobserve : w.observe p (.exitSyscall p regs) = { w with
      trace := w.trace.advance (.exitSyscall p regs)
      log := w.log ++ Sees.newlyLogged w.trace w.entered regs } := by
    rw [← Sees.newlyLogged_eq w.trace w.entered p regs]
    simp only [observe, htrace]
    split
    · rfl
    · rw [List.append_nil]
  obtain ⟨hsublist, hcount⟩ := h.sees.exitSyscall_tally hs h.sublist
    (h.count.trans (List.length_map _).symm) hdrops
  rw [hobserve]
  refine ⟨hconfined, (Sees.exitSyscall_pid hs).trans h.pid, (h.sees.exitSyscall hs).1, ?_, ?_⟩
  · rw [List.map_append]
    exact hsublist
  · simpa using hcount

/-- Events of other processes change nothing in the window. -/
theorem observe_other (w : Window) {e : Event} {q : Pid} (he : e.process = some q) (hq : q ≠ p) :
    w.observe p e = w := by
  have htrace : w.trace.observe p e = w.trace := by
    rw [Trace.observe, if_neg]
    rw [he]
    simpa using hq
  cases e with
  | enterSyscall q' regs a =>
      obtain rfl : q' = q := by simpa [Event.process] using he
      simp only [observe, htrace, if_neg hq]
  | exitSyscall q' regs =>
      simp only [observe, htrace, List.drop_length, List.append_nil, ite_self]
  | writeProc ppos count parsed =>
      cases he
  | read r =>
      cases he
  | _ =>
      simp only [observe, htrace]

theorem Tells.other (h : Tells p n w v) (hconfined : ValueSys.Confined (· = p) v') {s : Sys} {e : Event}
    {q : Pid} (hprocess : e.process = some q) (hq : q ≠ p) (hs : v.step e = .ok v') :
    Tells p (n + if s.DropsRecord p e then 1 else 0) (w.observe p e) v' := by
  have hkept : ¬s.DropsRecord p e := by
    cases e with
    | exitSyscall q' regs =>
        obtain rfl : q' = q := by simpa [Event.process] using hprocess
        exact fun hdrops => hq hdrops.1
    | _ =>
        exact id
  obtain ⟨hsees, happended, hpid⟩ := h.sees.other h.confined hprocess hq hs
  rw [if_neg hkept, observe_other w hprocess hq]
  exact h.quiet hconfined rfl (hpid.trans h.pid) hsees happended

theorem Tells.writePid (h : Tells p n w v) {ppos : Int} {count : Nat} {parsed : Option Int}
    (hconfined : ValueSys.Confined (· = p) (v.writePid ppos count parsed)) :
    Tells p n (w.observe p (.writeProc ppos count parsed)) (v.writePid ppos count parsed) := by
  have htrace : w.trace.observe p (.writeProc ppos count parsed) = w.trace :=
    if_neg (by simp [Event.process])
  by_cases hrejected : ppos > 0 ∨ count > bufferSize
  · have hsame : v.writePid ppos count parsed = v := if_pos hrejected
    simp only [observe, if_pos hrejected, htrace, hsame]
    exact h
  · have hwritten : v.writePid ppos count parsed =
        { v with recordedProcessPid := parsed.getD v.recordedProcessPid } := if_neg hrejected
    rw [hwritten] at hconfined ⊢
    simp only [observe, if_neg hrejected, htrace, ← h.pid]
    exact h.quiet hconfined rfl rfl (h.sees.congr rfl rfl rfl rfl) rfl

theorem granted_of_unhindered {s : Sys} {e : Event} (he : s.Unhindered p e)
    (hprocess : e.process = some p) : s.Granted p e := by
  cases e with
  | enterSyscall q regs a =>
      exact fun _ => he (Option.some.inj hprocess)
  | enterWrite q fn regs a =>
      obtain ⟨hgranted, hpid⟩ := he (Option.some.inj hprocess)
      exact fun hrecording => ⟨hgranted, hpid hrecording⟩
  | enterWrap q wr regs mem allocated =>
      obtain ⟨hgranted, hpid⟩ := he (Option.some.inj hprocess)
      exact fun hrecording => ⟨hgranted, hpid hrecording⟩
  | exitWrap q mem allocated allocs =>
      obtain ⟨hgranted, hroom⟩ := he (Option.some.inj hprocess)
      exact fun m rest hframes => ⟨hgranted, hroom m rest hframes⟩
  | _ =>
      trivial

theorem Tells.own (h : Tells p n w v) (hp : p ≠ 0) (hconfined : ValueSys.Confined (· = p) v') {e : Event}
    (hprocess : e.process = some p) (hgranted : v.Granted p e)
    (hexit : ∀ q regs, e ≠ .exitSyscall q regs) (hs : v.step e = .ok v') :
    Tells p n (w.observe p e) v' := by
  obtain ⟨hsees, happended, hpid⟩ := h.sees.own_step hp hprocess hgranted hexit hs
  have htrace : w.trace.observe p e = w.trace.advance e := if_pos hprocess
  cases e with
  | enterSyscall q regs a =>
      obtain rfl : q = p := Option.some.inj hprocess
      refine h.quiet hconfined ?_ ?_ ?_ happended
      · simp [observe]
      · simpa [observe] using hpid.trans h.pid
      · simpa [observe, htrace, ValueSys.enteredAfter, h.pid] using hsees
  | exitSyscall q regs =>
      exact absurd rfl (hexit q regs)
  | writeProc ppos count parsed =>
      cases hprocess
  | read r =>
      cases hprocess
  | _ =>
      refine h.quiet hconfined rfl (hpid.trans h.pid) ?_ happended
      simpa [observe, htrace, ValueSys.enteredAfter] using hsees

theorem Tells.step (hp : p ≠ 0) {s : Sys} (hR : RefinesValues s v) (h : Tells p n w v) {e : Event}
    (he : s.Unhindered p e) (hs : v.step e = .ok v') :
    Tells p (n + if s.DropsRecord p e then 1 else 0) (w.observe p e) v' := by
  obtain ⟨lost, hstands⟩ := hR.stands
  have hnames : e.NamesWatched (· = p) := by
    cases e with
    | writeProc ppos count parsed =>
        exact he
    | _ =>
        trivial
  have hconfined := ValueSys.confined_step h.confined hnames hs
  by_cases hother : ∃ q, e.process = some q ∧ q ≠ p
  · obtain ⟨q, hprocess, hq⟩ := hother
    exact h.other hconfined hprocess hq hs
  · have hown : ∀ q, e.process = some q → q = p := by
      intro q hprocess
      by_contra hq
      exact hother ⟨q, hprocess, hq⟩
    cases e with
    | exitSyscall q regs =>
        obtain rfl := hown q rfl
        apply h.exitSyscall hconfined hs
        simp only [Sys.DropsRecord, true_and, hR.frames, hstands.hasRoom_iff]
    | writeProc ppos count parsed =>
        cases hs
        exact h.writePid hconfined
    | read r =>
        have htrace' : w.trace.observe p (.read r) = w.trace := if_neg (by simp [Event.process])
        obtain ⟨hframes, hregs, hrecord, hcopy, hpid, happended⟩ := Sees.read_frame hs
        refine h.quiet hconfined rfl (hpid.trans h.pid) ?_ happended
        simp only [observe, htrace']
        exact h.sees.congr (congrFun hframes p) (congrFun hregs p) hrecord hcopy
    | enterSyscall q regs a | enterWrite q fn regs a | exitWrite q returnValue mem
    | enterWrap q wr regs mem allocated | exitWrap q mem allocated allocs =>
        obtain rfl := hown q rfl
        exact h.own hp hconfined rfl (h.sees.granted hR (granted_of_unhindered he rfl)) (by simp) hs

end Window

/-! ## Every run -/

namespace Sys

end Sys

end RrPython
