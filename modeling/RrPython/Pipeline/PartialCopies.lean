import RrPython.Pipeline.WrappedCall

/-!
# PartialCopies — writes of the kernel that do not reach the end of their buffer

A copy to user memory reports how many bytes it has not copied, and those before them have reached
memory.  The return handlers keep a copy that is complete and free any other, so what a partial copy
has written is missing from the record.
-/

namespace RrPython

open Foundation

/-- How many bytes the return value of a probed function reports as not copied; a `put_user` that
fails has stored nothing. -/
def ProbedFn.notCopied (fn : ProbedFn) (returnValue : Word) : Nat :=
  match fn.dataSize with
  | none => returnValue.toNat
  | some n => if returnValue = 0 then 0 else n

theorem ProbedFn.notCopied_eq_zero_iff (fn : ProbedFn) (returnValue : Word) :
    fn.notCopied returnValue = 0 ↔ returnValue = 0 := by
  have hword : returnValue.toNat = 0 ↔ returnValue = 0 :=
    ⟨fun h => BitVec.eq_of_toNat_eq h, fun h => by rw [h]; rfl⟩
  cases fn <;> simp [notCopied, dataSize, hword]

/-- A write of a probed function. -/
structure ReportedWrite where
  /-- Where it writes to, and the bytes it is given. -/
  copy : CopyRecord
  notCopied : Nat
  /-- The entry handler has prepared a copy for it. -/
  accepted : Bool

namespace ReportedWrite

/-- The bytes that reach user memory. -/
def reached (w : ReportedWrite) : List Byte :=
  w.copy.bytes.take (w.copy.bytes.length - w.notCopied)

def apply (mem : ByteMemory) (w : ReportedWrite) : ByteMemory :=
  mem.store w.copy.toAddr w.reached

/-- One of them reaches `x`. -/
def Reaches (w : ReportedWrite) (x : Word) : Prop :=
  ∃ i < w.reached.length, x = w.copy.toAddr + BitVec.ofNat 64 i

/-- Accepted and complete. -/
def Recorded (w : ReportedWrite) : Prop :=
  w.accepted = true ∧ w.notCopied = 0

instance (w : ReportedWrite) : Decidable w.Recorded :=
  inferInstanceAs (Decidable (_ ∧ _))

variable {w : ReportedWrite}

theorem reached_of_recorded (h : w.Recorded) : w.reached = w.copy.bytes := by
  rw [reached, h.2, Nat.sub_zero, List.take_length]

theorem apply_of_recorded (h : w.Recorded) (mem : ByteMemory) : w.apply mem = w.copy.apply mem := by
  rw [apply, reached_of_recorded h]
  rfl

theorem apply_frame {x : Word} (h : ¬w.Reaches x) (mem : ByteMemory) : w.apply mem x = mem x :=
  ByteMemory.store_frame _ fun i hi heq => h ⟨i, hi, heq⟩

theorem apply_reached {x : Word} (h : w.Reaches x) (mem mem' : ByteMemory) :
    w.apply mem x = w.apply mem' x :=
  ByteMemory.store_reached mem mem' h

end ReportedWrite

/-- User memory after the writes. -/
def applyReported (mem : ByteMemory) (ws : List ReportedWrite) : ByteMemory :=
  ws.foldl ReportedWrite.apply mem

/-- What is recorded of them. -/
def recordedCopies (ws : List ReportedWrite) : List CopyRecord :=
  (ws.filter fun w => w.Recorded).map ReportedWrite.copy

/-- User memory as the recorded copies alone leave it. -/
def applyRecorded (mem : ByteMemory) (ws : List ReportedWrite) : ByteMemory :=
  (recordedCopies ws).foldl CopyRecord.apply mem

/-- Where the last write to reach a byte is not recorded, it has put there what the recorded ones
before it leave there. -/
def LastReachedKnown (mem : ByteMemory) (ws : List ReportedWrite) : Prop :=
  ∀ (front : List ReportedWrite) (w : ReportedWrite) (behind : List ReportedWrite) (x : Word),
    ws = front ++ w :: behind → ¬w.Recorded → w.Reaches x → (∀ w' ∈ behind, ¬w'.Reaches x) →
      w.apply mem x = applyRecorded mem front x

/-! ## Byte by byte -/

theorem applyReported_append (mem : ByteMemory) (ws ws' : List ReportedWrite) :
    applyReported mem (ws ++ ws') = applyReported (applyReported mem ws) ws' :=
  List.foldl_append

theorem applyRecorded_append (mem : ByteMemory) (ws ws' : List ReportedWrite) :
    applyRecorded mem (ws ++ ws') = applyRecorded (applyRecorded mem ws) ws' := by
  rw [applyRecorded, recordedCopies, List.filter_append, List.map_append, List.foldl_append]
  rfl

theorem recordedCopies_cons (w : ReportedWrite) (ws : List ReportedWrite) :
    recordedCopies (w :: ws) =
      if w.Recorded then w.copy :: recordedCopies ws else recordedCopies ws := by
  by_cases hw : w.Recorded <;> simp [recordedCopies, hw]

theorem applyRecorded_cons (mem : ByteMemory) (w : ReportedWrite) (ws : List ReportedWrite) :
    applyRecorded mem (w :: ws) = applyRecorded (if w.Recorded then w.apply mem else mem) ws := by
  rw [applyRecorded, recordedCopies_cons]
  split_ifs with hw
  · rw [List.foldl_cons, ReportedWrite.apply_of_recorded hw]
    rfl
  · rfl

theorem applyReported_frame {ws : List ReportedWrite} {x : Word} (h : ∀ w ∈ ws, ¬w.Reaches x)
    (mem : ByteMemory) : applyReported mem ws x = mem x := by
  induction ws generalizing mem with
  | nil =>
      rfl
  | cons w ws ih =>
      have hw := h w List.mem_cons_self
      rw [applyReported, List.foldl_cons, ← applyReported,
        ih (fun w' hw' => h w' (List.mem_cons_of_mem w hw')), ReportedWrite.apply_frame hw]

theorem applyRecorded_frame {ws : List ReportedWrite} {x : Word} (h : ∀ w ∈ ws, ¬w.Reaches x)
    (mem : ByteMemory) : applyRecorded mem ws x = mem x := by
  induction ws generalizing mem with
  | nil =>
      rfl
  | cons w ws ih =>
      have hw := h w List.mem_cons_self
      rw [applyRecorded_cons, ih fun w' hw' => h w' (List.mem_cons_of_mem w hw')]
      split_ifs
      · exact ReportedWrite.apply_frame hw mem
      · rfl

/-- Behind the last element with a property there is none. -/
theorem exists_last {α : Type} {P : α → Prop} {xs : List α} (h : ∃ x ∈ xs, P x) :
    ∃ front x behind, xs = front ++ x :: behind ∧ P x ∧ ∀ y ∈ behind, ¬P y := by
  induction xs with
  | nil =>
      obtain ⟨x, hx, _⟩ := h
      cases hx
  | cons a xs ih =>
      by_cases hrest : ∃ x ∈ xs, P x
      · obtain ⟨front, x, behind, rfl, hx, hbehind⟩ := ih hrest
        exact ⟨a :: front, x, behind, rfl, hx, hbehind⟩
      · obtain ⟨x, hx, hP⟩ := h
        rcases List.mem_cons.1 hx with rfl | hx
        · exact ⟨[], x, xs, rfl, hP, fun y hy hPy => hrest ⟨y, hy, hPy⟩⟩
        · exact absurd ⟨x, hx, hP⟩ hrest

/-- The writes up to the last one to reach a byte decide what it holds. -/
theorem applyReported_last {front behind : List ReportedWrite} {w : ReportedWrite} {x : Word}
    (hw : w.Reaches x) (hbehind : ∀ w' ∈ behind, ¬w'.Reaches x) (mem : ByteMemory) :
    applyReported mem (front ++ w :: behind) x = w.apply mem x := by
  calc applyReported mem (front ++ w :: behind) x
      = applyReported (w.apply (applyReported mem front)) behind x := by
        rw [applyReported_append]
        rfl
    _ = w.apply (applyReported mem front) x := applyReported_frame hbehind _
    _ = w.apply mem x := ReportedWrite.apply_reached hw _ _

theorem applyRecorded_last {front behind : List ReportedWrite} {w : ReportedWrite} {x : Word}
    (hw : w.Reaches x) (hbehind : ∀ w' ∈ behind, ¬w'.Reaches x) (mem : ByteMemory) :
    applyRecorded mem (front ++ w :: behind) x =
      if w.Recorded then w.apply mem x else applyRecorded mem front x := by
  rw [applyRecorded_append, applyRecorded_cons, applyRecorded_frame hbehind]
  split_ifs
  · exact ReportedWrite.apply_reached hw _ _
  · rfl

theorem applyRecorded_eq_iff (mem : ByteMemory) (ws : List ReportedWrite) :
    applyRecorded mem ws = applyReported mem ws ↔ LastReachedKnown mem ws := by
  constructor
  · rintro heq front w behind x rfl hunrecorded hw hbehind
    have hx := congrFun heq x
    rw [applyRecorded_last hw hbehind, if_neg hunrecorded, applyReported_last hw hbehind] at hx
    exact hx.symm
  · intro hknown
    funext x
    by_cases hreached : ∃ w ∈ ws, w.Reaches x
    · obtain ⟨front, w, behind, rfl, hw, hbehind⟩ := exists_last hreached
      -- what the last write to reach `x` has put there stays
      rw [applyRecorded_last hw hbehind, applyReported_last hw hbehind]
      split_ifs with hrecorded
      · rfl
      · exact (hknown front w behind x rfl hrecorded hw hbehind).symm
    · have hnone : ∀ w ∈ ws, ¬w.Reaches x := fun w hw hx => hreached ⟨w, hw, hx⟩
      rw [applyRecorded_frame hnone, applyReported_frame hnone]

/-! ## The hooks -/

namespace Sys

variable {p : Pid} {s s' : Sys} {q : Ptr} {R R' : Record}

/-- From `s` to `s'` the process `p` makes the writes `ws` within one call; other processes take their
steps in between and leave the open record alone. -/
inductive ReportedWrites (p : Pid) : Sys → List ReportedWrite → Sys → Prop
  | done (s : Sys) : ReportedWrites p s [] s
  | write {s s₁ s₂ s' : Sys} {fn : ProbedFn} {regs : PtRegs} {a : Option Ptr} {ret : Word}
      {mem : KernelMem} {accepted : Bool} {ws : List ReportedWrite}
      (henter : s.step (.enterWrite p fn regs a) = .ok s₁)
      (hframes : s₁.frames p = .write fn accepted :: s.frames p)
      (hreported : fn.notCopied ret ≤ (fn.written regs mem).bytes.length)
      (hexit : s₁.step (.exitWrite p ret mem) = .ok s₂) (hrest : ReportedWrites p s₂ ws s') :
      ReportedWrites p s (⟨fn.written regs mem, fn.notCopied ret, accepted⟩ :: ws) s'
  | other {s s₁ s' : Sys} {ws : List ReportedWrite} {e : Event} (he : e.process ≠ some p)
      (hs : s.step e = .ok s₁) (hkeeps : s.kernel.KeepsRecord s₁.kernel)
      (hrest : ReportedWrites p s₁ ws s') : ReportedWrites p s ws s'

/-- The hooks append the complete copies and no others. -/
theorem ReportedWrites.appends {ws : List ReportedWrite} (hws : ReportedWrites p s ws s') :
    ∀ {R : Record}, s.Inv → s.OpenAt q R → s'.OpenAt q (addCopies R (recordedCopies ws)) := by
  induction hws with
  | done s =>
      intro R _ h
      exact h
  | @write s s₁ s₂ s' fn regs a ret mem accepted ws henter hframes _ hexit _ ih =>
      intro R hinv h
      have hinv₂ := (hinv.step_ok henter).step_ok hexit
      rw [recordedCopies_cons]
      cases accepted with
      | false =>
          rw [if_neg fun hrecorded => Bool.noConfusion hrecorded.1]
          exact ih hinv₂ (openAt_passed hinv h henter hframes hexit).1
      | true =>
          by_cases hret : ret = 0
          · subst hret
            rw [if_pos ⟨rfl, (fn.notCopied_eq_zero_iff 0).2 rfl⟩]
            exact ih hinv₂ (openAt_hooked hinv h henter hframes hexit).1
          · rw [if_neg fun hrecorded => hret ((fn.notCopied_eq_zero_iff ret).1 hrecorded.2)]
            exact ih hinv₂ (openAt_dropped hinv h henter hframes hret hexit).1
  | other _ hs hkeeps _ ih =>
      intro R hinv h
      exact ih (hinv.step_ok hs) (openAt_keeps h hkeeps)

/-- Applied in order, what is recorded of the writes of a syscall turns user memory as it was before
into what it is after exactly if no byte has been reached last by an unrecorded write that made it
something else than the recorded ones do. -/
theorem recordsReached_iff {pid : Int} {taskPtRegs : Pid → PtRegs} {es : List Event}
    (hrun : run step (init pid taskPtRegs) es = .ok s) {ws : List ReportedWrite}
    (hws : ReportedWrites p s ws s') (hR : s.OpenAt q R) (hR' : s'.OpenAt q R') (before : ByteMemory) :
    (R'.copiesToUser.drop R.copiesToUser.length).foldl CopyRecord.apply before =
        applyReported before ws ↔
      LastReachedKnown before ws := by
  have hinv : s.Inv := (inv_run pid taskPtRegs es).of_ok hrun
  have hcopies : R'.copiesToUser.drop R.copiesToUser.length = recordedCopies ws := by
    have hvalue := (hws.appends hinv hR).2
    rw [hR'.2] at hvalue
    rw [Option.some.inj hvalue, addCopies_copies, List.drop_left]
  rw [hcopies]
  exact applyRecorded_eq_iff before ws

/-! ## A copy of two bytes -/

/-- From 0 to 16. -/
def copyRegs : PtRegs := fun r => match r with
  | .rdi => 16
  | .rdx => 2
  | _ => 0

/-- The copy that is made, `notCopied` bytes short. -/
def copyOfTwo (notCopied : Nat) : ReportedWrite :=
  ⟨ProbedFn.copyToUser.written copyRegs (fun _ => 7), notCopied, true⟩

def zeroes : ByteMemory := fun _ => some 0

/-- After one such copy for each of the return values. -/
def afterCopies (rets : List Word) : Sys :=
  after inSyscall (rets.flatMap fun ret =>
    [.enterWrite 1 .copyToUser copyRegs (some 32), .exitWrite 1 ret fun _ => 7])

/-- The first of two copies, or the only one. -/
theorem reportedWrites_copyOfTwo {ws : List ReportedWrite} {s' : Sys}
    (hrest : ReportedWrites 1 (afterCopies [1]) ws s') :
    ReportedWrites 1 inSyscall (copyOfTwo 1 :: ws) s' :=
  @ReportedWrites.write 1 _ _ _ _ .copyToUser copyRegs (some 32) 1 (fun _ => 7) true _ rfl rfl
    (by decide) rfl hrest

theorem lastReachedKnown_retried (mem : ByteMemory) :
    LastReachedKnown mem [copyOfTwo 1, copyOfTwo 0] := by
  rintro front w behind x heq hunrecorded ⟨i, hi, rfl⟩ hbehind
  match front, heq with
  | [], heq =>
      -- the copy that stopped: the next one reaches what it has reached
      obtain ⟨rfl, rfl⟩ : copyOfTwo 1 = w ∧ [copyOfTwo 0] = behind := by simpa using heq
      have hlen : (copyOfTwo 1).reached.length ≤ (copyOfTwo 0).reached.length := by decide
      exact absurd ⟨i, hi.trans_le hlen, rfl⟩ (hbehind _ (List.mem_singleton.2 rfl))
  | [_], heq =>
      obtain ⟨_, rfl, rfl⟩ : copyOfTwo 1 = _ ∧ copyOfTwo 0 = w ∧ [] = behind := by simpa using heq
      exact absurd ⟨rfl, rfl⟩ hunrecorded
  | _ :: _ :: _, heq =>
      simp at heq

/-- A copy that stops after a byte and is made again. -/
theorem recordsReached_iff_retried :
    ∃ R R', inSyscall.OpenAt 16 R ∧ (afterCopies [1, 0]).OpenAt 16 R' ∧
      (R'.copiesToUser.drop R.copiesToUser.length).foldl CopyRecord.apply zeroes =
        applyReported zeroes [copyOfTwo 1, copyOfTwo 0] := by
  have hrun : run step (init 1 fun _ _ => 0) [.enterSyscall 1 (fun _ => 1) (some 16)] =
      .ok inSyscall := rfl
  have hws : ReportedWrites 1 inSyscall [copyOfTwo 1, copyOfTwo 0] (afterCopies [1, 0]) :=
    reportedWrites_copyOfTwo
      (@ReportedWrites.write 1 _ _ _ _ .copyToUser copyRegs (some 32) 0 (fun _ => 7) true _ rfl rfl
        (by decide) rfl (.done _))
  exact ⟨_, _, ⟨rfl, rfl⟩, ⟨rfl, rfl⟩,
    (recordsReached_iff hrun hws ⟨rfl, rfl⟩ ⟨rfl, rfl⟩ zeroes).2 (lastReachedKnown_retried zeroes)⟩

/-- The copy that stops after a byte, which is not recorded. -/
theorem not_recordsReached_partial :
    ReportedWrites 1 inSyscall [copyOfTwo 1] (afterCopies [1]) ∧
      ∃ R R', inSyscall.OpenAt 16 R ∧ (afterCopies [1]).OpenAt 16 R' ∧
        (R'.copiesToUser.drop R.copiesToUser.length).foldl CopyRecord.apply zeroes ≠
          applyReported zeroes [copyOfTwo 1] := by
  refine ⟨reportedWrites_copyOfTwo (.done _), _, _, ⟨rfl, rfl⟩, ⟨rfl, rfl⟩, fun heq => ?_⟩
  have hbyte := congrFun heq 16
  exact absurd hbyte (by decide)

end Sys

end RrPython
