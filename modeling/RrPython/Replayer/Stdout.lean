import Mathlib.Algebra.Order.BigOperators.Group.List
import RrPython.Replayer.Accepted
import RrPython.Replayer.Lockstep
import RrPython.Replayer.Passage
import RrPython.Replayer.TraceeMemory

/-!
# Stdout — what a replay prints and what the recorded process wrote

The callback is given as many bytes as the recorded write asked for, read from the tracee when it
enters the call.  What the recorded process wrote is as many of them as the call returned.
-/

namespace RrPython

open Foundation Creplayer Replayer

/-! ## Lists -/

section Lists

variable {α β γ : Type}

/-- Pieces that are no longer than others join to the same list only where they are the same. -/
theorem flatMap_eq_flatMap_iff {f g : α → List β} {xs : List α}
    (hle : ∀ x ∈ xs, (g x).length ≤ (f x).length) :
    xs.flatMap f = xs.flatMap g ↔ ∀ x ∈ xs, f x = g x := by
  constructor
  · induction xs with
    | nil =>
        simp
    | cons x xs ih =>
        intro heq
        have hle' := fun y hy => hle y (List.mem_cons_of_mem x hy)
        have hhead := hle x List.mem_cons_self
        rw [List.flatMap_cons, List.flatMap_cons] at heq
        -- the rest is no longer either, so the heads are of one length
        have hrest : (xs.flatMap g).length ≤ (xs.flatMap f).length := by
          rw [List.length_flatMap, List.length_flatMap]
          exact List.sum_le_sum hle'
        have hlen := congrArg List.length heq
        simp only [List.length_append] at hlen
        obtain ⟨hx, hxs⟩ := List.append_inj heq (by omega)
        simpa using ⟨hx, ih hle' hxs⟩
  · exact List.flatMap_congr

theorem zip_concat {xs : List α} {ys : List β} {x : α} (hx : xs[ys.length]? = some x) (y : β) :
    xs.zip (ys ++ [y]) = xs.zip ys ++ [(x, y)] := by
  induction ys generalizing xs with
  | nil =>
      cases xs with
      | nil =>
          simp at hx
      | cons a xs =>
          simp at hx
          simp [hx]
  | cons b ys ih =>
      cases xs with
      | nil =>
          simp at hx
      | cons a xs =>
          simp [ih (by simpa using hx)]

/-- What comes behind the elements that there is a partner for does not matter. -/
theorem zip_append_right {xs : List α} {ys : List β} (hlen : ys.length = xs.length) (zs : List β) :
    xs.zip (ys ++ zs) = xs.zip ys := by
  induction ys generalizing xs with
  | nil =>
      obtain rfl := List.length_eq_zero_iff.1 hlen.symm
      rfl
  | cons b ys ih =>
      cases xs with
      | nil =>
          cases hlen
      | cons a xs =>
          simp [ih (by simpa using hlen)]

theorem flatMap_zip_eq_flatMap_zipIdx {f : α → β → List γ} {g : α → Nat → List γ} {xs : List α}
    {ys : List β} (hlen : xs.length ≤ ys.length)
    (h : ∀ i x y, xs[i]? = some x → ys[i]? = some y → f x y = g x i) :
    (xs.zip ys).flatMap (fun p => f p.1 p.2) = xs.zipIdx.flatMap fun p => g p.1 p.2 := by
  rw [List.flatMap_def, List.flatMap_def]
  congr 1
  apply List.ext_getElem
  · simpa using hlen
  · intro i hi hi'
    simp only [List.length_map, List.length_zip] at hi
    have hx : i < xs.length := by omega
    have hy : i < ys.length := by omega
    simpa using h i xs[i] ys[i] (List.getElem?_eq_getElem hx) (List.getElem?_eq_getElem hy)

end Lists

/-! ## What is printed -/

/-- The buffers that the callback is given. -/
def stdoutBuffers (history : List TraceeEvent) : List (Option (List Byte)) :=
  history.filterMap fun
    | .stdout buffer => some buffer
    | _ => none

/-- One behind the other. -/
def printedOutput (history : List TraceeEvent) : List Byte :=
  (stdoutBuffers history).flatMap fun buffer => buffer.getD []

@[simp] theorem stdoutBuffers_append (h h' : List TraceeEvent) :
    stdoutBuffers (h ++ h') = stdoutBuffers h ++ stdoutBuffers h' :=
  List.filterMap_append

theorem GoesBack.stdoutBuffers {stop : Stop} {back : List TraceeEvent} (h : GoesBack stop back) :
    RrPython.stdoutBuffers back = [] := by
  cases h <;> rfl

theorem Passes.stdoutBuffers {calls : List SystemCall} {i : Nat} {call : SystemCall} {nr : Word}
    {pass : TraceeEvent} (h : Passes calls i call nr pass) (v : UserState) :
    RrPython.stdoutBuffers [pass, .left v] = [] := by
  cases h <;> rfl

/-- The bytes that a write asks for, where the tracee enters it in the state `u`. -/
def asked (call : SystemCall) (u : UserState) : Option (List Byte) :=
  u.mem.load (BitVec.ofInt 64 (call.registers .rsi)) (call.registers .rdx).toNat

/-- What is printed for one call. -/
def printedFor (call : SystemCall) (u : UserState) : List (Option (List Byte)) :=
  if call.WritesStdout then [asked call u] else []

variable {self : Replayer} {w : World} {i : Nat} {call : SystemCall} {u : UserState} {t t' : Tracee}

theorem HandedOver.stdoutBuffers (hcallback : self.stdoutCallback.isSome)
    (hrdx : 0 ≤ call.registers .rdx) {printed : List TraceeEvent}
    (h : HandedOver self call u printed) :
    RrPython.stdoutBuffers printed = printedFor call u ∧
      (call.WritesStdout → (asked call u).isSome) := by
  unfold HandedOver at h
  unfold printedFor
  by_cases hwrites : call.WritesStdout
  · rw [if_pos ⟨hcallback, hwrites⟩] at h
    obtain ⟨s, buffer, rfl, hread, rfl⟩ := h
    have hlen : (((call.registers .rdx).toNat : Nat) : Int) = call.registers .rdx :=
      Int.toNat_of_nonneg hrdx
    rw [← hlen] at hread
    obtain ⟨bytes, rfl, hload⟩ := readFromTracee_inv hread
    rw [if_pos hwrites, asked, hload]
    exact ⟨rfl, fun _ => rfl⟩
  · rw [if_neg fun h => hwrites h.2] at h
    subst h
    rw [if_neg hwrites]
    exact ⟨rfl, fun hw => absurd hw hwrites⟩

/-- In the replay so far, the call at each index has printed what it asked for. -/
structure PrintedUpTo (calls : List SystemCall) (n : Nat) (history : List TraceeEvent) : Prop where
  length : (entries history).length = n
  buffers : stdoutBuffers history = (calls.zip (entries history)).flatMap fun (call, u) => printedFor call u
  asked : ∀ p ∈ calls.zip (entries history), p.1.WritesStdout → (asked p.1 p.2).isSome

/-- One turn prints what its call asks for. -/
theorem PrintedUpTo.turn (h : PrintedUpTo self.systemCalls i t.history) (hready : t.ReadyFor i)
    (hw : w.NoSigtrap) (hcall : self.systemCalls[i]? = some call)
    (hcallback : self.stdoutCallback.isSome) (hrdx : 0 ≤ call.registers .rdx) :
    Ends (self.replaySystemCall w i call) t
      (fun _ t' => PrintedUpTo self.systemCalls (i + 1) t'.history) (fun _ _ => True) := by
  refine hready.enter hw call.num (fun _ _ _ => trivial) fun u _ => ?_
  have hpassage := runTraceeThroughSystemCall_passage (w := w) (t := t.entering u) hcall rfl
  unfold Ends at hpassage
  rw [runTraceeThroughSystemCall, bind_of_ok (getRegisters_ok (Tracee.stopped_syscallEntry rfl))]
    at hpassage
  refine Ends.mono hpassage ?_ fun _ _ => id
  -- the history grows by the way back to user mode, the entry, what is printed and the passage
  rintro _ t' ⟨⟨printed, pass, v, hprinted, hpass, hhistory⟩, _⟩
  obtain ⟨hbuffers, hasked⟩ := hprinted.stdoutBuffers hcallback hrdx
  have hback := hready.goesBack
  have hentries : entries t'.history = entries t.history ++ [u] := by
    have hleft : entries [pass, .left v] = [] := by
      cases hpass <;> rfl
    rw [hhistory]
    simp [Tracee.entering, Tracee.arrive, hback.entries, hprinted.printed.entries, hleft,
      entries_cons_other]
  have hzip : self.systemCalls.zip (entries t'.history) =
      self.systemCalls.zip (entries t.history) ++ [(call, u)] := by
    rw [hentries]
    exact zip_concat (by rw [h.length]; exact hcall) u
  refine ⟨?_, ?_, ?_⟩
  · rw [hentries, List.length_append, h.length]
    rfl
  · have hentered : stdoutBuffers [.entered u] = [] := rfl
    have hconsumed : stdoutBuffers (.consumed call :: (printed ++ [pass, .left v])) =
        stdoutBuffers printed := by
      show stdoutBuffers (printed ++ [pass, .left v]) = _
      rw [stdoutBuffers_append, hpass.stdoutBuffers v, List.append_nil]
    rw [hzip, List.flatMap_append, ← h.buffers, hhistory, stdoutBuffers_append, hconsumed, hbuffers]
    simp [Tracee.entering, Tracee.arrive, hback.stdoutBuffers, hentered]
  · rw [hzip]
    intro p hp
    rcases List.mem_append.1 hp with hp | hp
    · exact h.asked p hp
    · obtain rfl := List.mem_singleton.1 hp
      exact hasked

/-- The last syscall, which is no recorded one, prints nothing. -/
theorem Tracee.ReadyFor.lastTurn_silent (hready : t.ReadyFor i) (hw : w.NoSigtrap) :
    Ends (getExitStatus w) t
      (fun _ t' => stdoutBuffers t'.history = stdoutBuffers t.history ∧
        ∃ u, entries t'.history = entries t.history ++ [u])
      (fun _ _ => True) := by
  refine (hready.lastTurn hw).mono ?_ fun _ _ _ => trivial
  rintro status t' ⟨u, _, _, _, rest, hrest, hhistory⟩
  have hback := hready.goesBack
  have hsilent : stdoutBuffers (.entered u :: .executed u.nr u.nr :: rest) = [] ∧
      entries (.entered u :: .executed u.nr u.nr :: rest) = [u] := by
    rcases hrest with rfl | ⟨v, rfl⟩ <;> exact ⟨rfl, rfl⟩
  rw [hhistory]
  refine ⟨?_, u, ?_⟩
  · rw [stdoutBuffers_append, stdoutBuffers_append, hback.stdoutBuffers, hsilent.1]
    simp
  · rw [entries_append, entries_append, hback.entries, hsilent.2, List.nil_append]

/-- A whole replay prints what its calls ask for. -/
theorem startReplaying_printed {self : Replayer} {w : World} {before : UserState}
    (hfree : SigtrapFree self w before) (hcallback : self.stdoutCallback.isSome)
    (hrdx : ∀ call ∈ self.systemCalls, 0 ≤ call.registers .rdx) :
    Ends (self.startReplaying w) (Tracee.init before)
      (fun _ t => stdoutBuffers t.history =
          (self.systemCalls.zip (entries t.history)).flatMap (fun (call, u) => printedFor call u) ∧
        self.systemCalls.length ≤ (entries t.history).length ∧
          ∀ p ∈ self.systemCalls.zip (entries t.history), p.1.WritesStdout → (asked p.1 p.2).isSome)
      (fun _ _ => True) := by
  have hw := untrapped_noSigtrap w
  refine hfree.ends (startReplaying_loop self w.untrapped before
    (I := fun n t => PrintedUpTo self.systemCalls n t.history) (fun _ _ => trivial) ?_ ?_ ?_)
  · intro t ht
    cases ht <;> exact ⟨rfl, by simp [Tracee.init, stdoutBuffers], by simp [Tracee.init]⟩
  · intro i call t hcall hready h
    have hready' := (hready.turn hw hcall).mono (fun _ _ => id) fun _ _ _ => (trivial : True)
    have hprints := h.turn hready hw hcall hcallback (hrdx call (List.mem_of_getElem? hcall))
    refine (hready'.and hprints).mono ?_ fun _ _ _ => trivial
    rintro _ t' ⟨⟨u, hturn⟩, hprinted⟩
    exact ⟨hturn.readyFor, hprinted⟩
  · intro t hready h
    refine (hready.lastTurn_silent hw).mono ?_ fun _ _ => id
    rintro status t' ⟨hbuffers, u, hentries⟩
    -- one entry more than there are calls
    have hzip : self.systemCalls.zip (entries t'.history) = self.systemCalls.zip (entries t.history) := by
      rw [hentries]
      exact zip_append_right h.length [u]
    rw [hzip, hbuffers]
    refine ⟨h.buffers, ?_, h.asked⟩
    rw [hentries, List.length_append, h.length]
    omega

/-! ## What was written -/

/-- The bytes that a write of `n` bytes takes from the memory `mem`. -/
def outputOf (mem : ByteMemory) (call : SystemCall) (n : Int) : List Byte :=
  (mem.load (BitVec.ofInt 64 (call.registers .rsi)) n.toNat).getD []

/-- What the recorded process wrote, `mem i` being its memory when it entered the call at `i`. -/
def recordedOutput (calls : List SystemCall) (mem : Nat → ByteMemory) : List Byte :=
  calls.zipIdx.flatMap fun (call, i) =>
    if call.WritesStdout then outputOf (mem i) call call.returnValue else []

/-- When the tracee enters a write to descriptor 1, its memory is that of the recorded process. -/
def SameMemoryAtWrites (calls : List SystemCall) (history : List TraceeEvent)
    (mem : Nat → ByteMemory) : Prop :=
  ∀ (i : Nat) (call : SystemCall) (u : UserState), calls[i]? = some call → call.WritesStdout →
    (entries history)[i]? = some u → u.mem = mem i

/-- What the recording can hold: a register is never negative. -/
theorem loaded_rdx {buffer rest : List Byte} {calls : List SystemCall}
    (hload : Loader.loadSystemCalls buffer = .ok (calls, rest)) :
    ∀ call ∈ calls, 0 ≤ call.registers .rdx := by
  obtain ⟨_, rs, _, rfl, _⟩ := Loader.loadSystemCalls_eq_ok.1 hload
  intro call hcall
  obtain ⟨r, _, rfl⟩ := List.mem_map.1 hcall
  exact Int.natCast_nonneg _

/-- What was asked for can be read, and a write of fewer bytes takes the first of them. -/
theorem outputOf_of_asked {mem : ByteMemory} {bytes : List Byte}
    (hasked : mem.load (BitVec.ofInt 64 (call.registers .rsi)) (call.registers .rdx).toNat =
      some bytes) (n : Int) (hn : n ≤ call.registers .rdx) :
    outputOf mem call n = bytes.take n.toNat := by
  rw [outputOf, ByteMemory.load_take hasked (Int.toNat_le_toNat hn), Option.getD_some]

/-- What the recorded process would have written, had every write done all that it was asked to. -/
def askedOutput (calls : List SystemCall) (mem : Nat → ByteMemory) : List Byte :=
  calls.zipIdx.flatMap fun (call, i) =>
    if call.WritesStdout then outputOf (mem i) call (call.registers .rdx) else []

section Replay

variable {before : UserState} {status : Int} {buffer rest : List Byte} {mem : Nat → ByteMemory}
  (hload : Loader.loadSystemCalls buffer = .ok (self.systemCalls, rest))
  (hcallback : self.stdoutCallback.isSome) (hfree : SigtrapFree self w before)
  (hreturns : self.startReplaying w (Tracee.init before) = .ok status t)
  (hmem : SameMemoryAtWrites self.systemCalls t.history mem)

include hload hcallback hfree hreturns hmem

/-- Each recorded write has been entered, with readable bytes in the memory of the recorded process. -/
theorem readable_of_returns (hcall : self.systemCalls[i]? = some call) (hwrites : call.WritesStdout) :
    ∃ bytes, (mem i).load (BitVec.ofInt 64 (call.registers .rsi)) (call.registers .rdx).toNat =
      some bytes := by
  obtain ⟨_, hlen, hasked⟩ :=
    (startReplaying_printed hfree hcallback (loaded_rdx hload)).of_ok hreturns
  have hi : i < (entries t.history).length :=
    Nat.lt_of_lt_of_le (List.getElem?_eq_some_iff.1 hcall).1 hlen
  have hu := List.getElem?_eq_getElem hi
  have hpair : (call, (entries t.history)[i]) ∈ self.systemCalls.zip (entries t.history) :=
    List.mem_of_getElem? (List.getElem?_zip_eq_some.2 ⟨hcall, hu⟩)
  have hsome := hasked _ hpair hwrites
  rw [asked, hmem i call _ hcall hwrites hu] at hsome
  exact Option.isSome_iff_exists.1 hsome

theorem printedOutput_eq_askedOutput :
    printedOutput t.history = askedOutput self.systemCalls mem := by
  obtain ⟨hbuffers, hlen, _⟩ :=
    (startReplaying_printed hfree hcallback (loaded_rdx hload)).of_ok hreturns
  rw [printedOutput, hbuffers, List.flatMap_assoc]
  have hpieces := flatMap_zip_eq_flatMap_zipIdx
    (f := fun call u => (printedFor call u).flatMap fun b => b.getD [])
    (g := fun call i =>
      if call.WritesStdout then outputOf (mem i) call (call.registers .rdx) else []) hlen
    fun i call u hcall hu => by
      by_cases hwrites : call.WritesStdout
      · simp [printedFor, hwrites, asked, outputOf, hmem i call u hcall hwrites hu]
      · simp [printedFor, hwrites]
  exact hpieces

end Replay

/-- A replay prints what the recorded process wrote to stdout exactly if every recorded write to it
wrote all that it was asked to. -/
theorem printedOutput_eq_recordedOutput_iff (self : Replayer) (w : World) (before : UserState)
    (status : Int) (t : Tracee) (buffer rest : List Byte) (mem : Nat → ByteMemory)
    (hload : Loader.loadSystemCalls buffer = .ok (self.systemCalls, rest))
    (hcallback : self.stdoutCallback.isSome) (hfree : SigtrapFree self w before)
    (hreturns : self.startReplaying w (Tracee.init before) = .ok status t)
    (hmem : SameMemoryAtWrites self.systemCalls t.history mem)
    (hcount : ∀ call ∈ self.systemCalls, call.WritesStdout →
      call.returnValue ≤ call.registers .rdx) :
    printedOutput t.history = recordedOutput self.systemCalls mem ↔
      ∀ call ∈ self.systemCalls, call.WritesStdout →
        max call.returnValue 0 = call.registers .rdx := by
  rw [printedOutput_eq_askedOutput hload hcallback hfree hreturns hmem, askedOutput, recordedOutput,
    flatMap_eq_flatMap_iff]
  · constructor
    · -- equal pieces have equal lengths
      intro hsame call hcall hwrites
      obtain ⟨i, hi⟩ := List.mem_iff_getElem?.1 hcall
      obtain ⟨bytes, hbytes⟩ := readable_of_returns hload hcallback hfree hreturns hmem hi hwrites
      have heq := hsame (call, i) (List.mem_zipIdx_iff_getElem?.2 hi)
      have hnonneg := loaded_rdx hload call hcall
      have hle := hcount call hcall hwrites
      simp only [hwrites, if_true, outputOf_of_asked hbytes _ le_rfl, outputOf_of_asked hbytes _ hle]
        at heq
      have hlength := congrArg List.length heq
      have hall := ByteMemory.length_of_load hbytes
      simp only [List.length_take] at hlength
      omega
    · rintro hfull ⟨call, i⟩ hp
      have hi := List.mem_zipIdx_iff_getElem?.1 hp
      by_cases hwrites : call.WritesStdout
      · have hmax := hfull call (List.mem_of_getElem? hi) hwrites
        have hsame : (call.registers .rdx).toNat = call.returnValue.toNat := by omega
        simp only [hwrites, if_true, outputOf, hsame]
      · simp only [hwrites, if_false]
  · -- no write has taken more bytes than it was asked to
    rintro ⟨call, i⟩ hp
    have hi := List.mem_zipIdx_iff_getElem?.1 hp
    by_cases hwrites : call.WritesStdout
    · obtain ⟨bytes, hbytes⟩ := readable_of_returns hload hcallback hfree hreturns hmem hi hwrites
      have hle := hcount call (List.mem_of_getElem? hi) hwrites
      simp only [hwrites, if_true, outputOf_of_asked hbytes _ le_rfl, outputOf_of_asked hbytes _ hle,
        List.length_take]
      omega
    · simp only [hwrites, if_false, le_refl]

/-! ## One write of two bytes -/

/-- A write of two bytes that returned `ret`. -/
def writeRecord (ret : Word) : Record where
  userspaceRegs := fun r => match r with
    | .origRax => 1
    | .rdi => 1
    | .rsi => 0x1000
    | .rdx => 2
    | _ => 0
  ret := ret
  userspaceRegsPtr := 1
  amountOfCopies := 0
  copiesToUser := []

def writeReplayer (ret : Word) : Replayer where
  systemCalls := [Record.toSystemCall (writeRecord ret)]
  stdoutCallback := some fun _ _ => true

def sevens : ByteMemory := fun _ => some 7

/-- The tracee calls write and then `exit_group`. -/
def writeWorld : World where
  attach := .stopped bareUser
  user := fun n _ => .syscall
    { regs := fun r => if r = .origRax then if n = 0 then 1 else 231 else 0
      mem := sevens }
  kernel := fun _ _ => .exits

theorem noSigtrap_writeWorld : writeWorld.NoSigtrap :=
  fun _ _ _ heq => UserOutcome.noConfusion heq

theorem loads_writeReplayer (ret : Word) :
    Loader.loadSystemCalls ([writeRecord ret].flatMap Record.dump) =
      .ok ((writeReplayer ret).systemCalls, []) :=
  Loader.loadSystemCalls_dumps fun r hr => by
    obtain rfl := List.mem_singleton.1 hr
    exact ⟨rfl, fun c hc => by cases hc⟩

set_option maxRecDepth 20000 in
theorem returns_writeReplayer {ret : Word} (hret : ret = 2 ∨ ret = -11) : ∃ status t,
    (writeReplayer ret).startReplaying writeWorld (Tracee.init bareUser) = .ok status t ∧
      printedOutput t.history = [7, 7] ∧ (entries t.history).map UserState.mem = [sevens, sevens] := by
  rcases hret with rfl | rfl
  · exact ⟨_, _, rfl, rfl, rfl⟩
  · exact ⟨_, _, rfl, rfl, rfl⟩

theorem sameMemoryAtWrites_sevens {calls : List SystemCall} {history : List TraceeEvent}
    (hentries : (entries history).map UserState.mem = [sevens, sevens]) :
    SameMemoryAtWrites calls history fun _ => sevens := by
  intro i call u _ _ hu
  have hmem : u.mem ∈ (entries history).map UserState.mem :=
    List.mem_map_of_mem (List.mem_of_getElem? hu)
  simpa [hentries] using hmem

/-- Both bytes were written. -/
theorem printedOutput_eq_recordedOutput_iff_whole : ∃ status t,
    (writeReplayer 2).startReplaying writeWorld (Tracee.init bareUser) = .ok status t ∧
      printedOutput t.history = recordedOutput (writeReplayer 2).systemCalls fun _ => sevens := by
  obtain ⟨status, t, hreturns, _, hentries⟩ := returns_writeReplayer (Or.inl rfl)
  refine ⟨status, t, hreturns, (printedOutput_eq_recordedOutput_iff (writeReplayer 2) writeWorld
    bareUser status t _ [] (fun _ => sevens) (loads_writeReplayer 2) rfl
    (noSigtrap_writeWorld.sigtrapFree _ bareUser) hreturns (sameMemoryAtWrites_sevens hentries) ?_).2 ?_⟩
  · intro call hcall _
    obtain rfl := List.mem_singleton.1 hcall
    decide
  · intro call hcall _
    obtain rfl := List.mem_singleton.1 hcall
    decide

/-- The write has failed with `-EAGAIN`, and its bytes are printed all the same. -/
theorem not_printedOutput_eq_recordedOutput :
    ¬∀ (self : Replayer) (w : World) (before : UserState) (status : Int) (t : Tracee)
      (buffer rest : List Byte) (mem : Nat → ByteMemory),
      Loader.loadSystemCalls buffer = .ok (self.systemCalls, rest) → self.stdoutCallback.isSome →
        self.startReplaying w (Tracee.init before) = .ok status t →
          SameMemoryAtWrites self.systemCalls t.history mem →
            printedOutput t.history = recordedOutput self.systemCalls mem := by
  intro h
  obtain ⟨status, t, hreturns, hprinted, hentries⟩ := returns_writeReplayer (Or.inr rfl)
  have hsame := h (writeReplayer (-11)) writeWorld bareUser status t _ [] (fun _ => sevens)
    (loads_writeReplayer (-11)) rfl hreturns (sameMemoryAtWrites_sevens hentries)
  rw [hprinted] at hsame
  exact absurd hsame (by decide)

end RrPython
