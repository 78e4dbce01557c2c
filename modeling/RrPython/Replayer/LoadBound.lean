import RrPython.Foundation.LoggedParser
import RrPython.Replayer.Accepted

/-!
# LoadBound — how much is loaded before loading ends

The counters of a recording are read from the buffer and may say anything up to `2 ^ 64 - 1`, and a
slice that is too long is no error.  What ends the loops is that every copy and every call has a header
that must be there in full.  The loader is written down once more with a log of the copies and calls
that it completes, so that the bound also speaks of the runs that raise.
-/

namespace RrPython

open Foundation Foundation.Parser

/-- What a load has completed. -/
inductive Loaded
  | memoryCopy
  | systemCall
  deriving DecidableEq, Repr

/-- The header of each, in bytes: what the loader reads of it whatever the counters say. -/
def Loaded.header : Loaded → Nat
  | .memoryCopy => 24
  | .systemCall => 184

/-! ## What each reader takes -/

namespace BinaryUnpacker

theorem UnpacksWord.takes {α : Type} {p : Unpack α} {f : Word → α} (hp : UnpacksWord p f) :
    Takes (· = .structError) 8 p := by
  intro bs
  rw [hp bs]
  split
  · rename_i hlen
    rw [unsignedLongSize, List.length_take] at hlen
    rw [meets_ok, unsignedLongSize, List.length_drop]
    omega
  · rfl

theorem takes_unpackUnsignedLong : Takes (· = .structError) 8 unpackUnsignedLong :=
  unpacksWord_unsigned.takes

theorem takes_unpackSignedLong : Takes (· = .structError) 8 unpackSignedLong :=
  unpacksWord_signed.takes

/-- A slice may be empty. -/
theorem takes_unpackStr (n : Nat) : Takes (· = .structError) 0 (unpackStr n) := by
  intro bs
  have hrun : (unpackStr n).run bs = .ok (bs.take n, bs.drop n) := rfl
  rw [hrun, meets_ok, List.length_drop]
  omega

end BinaryUnpacker

namespace Loader

open BinaryUnpacker

theorem takes_loadMemoryCopy : Takes (· = .structError) 24 loadMemoryCopy :=
  takes_unpackUnsignedLong.bind fun _ _ _ _ => takes_unpackUnsignedLong.bind fun _ _ _ _ =>
    takes_unpackUnsignedLong.bind fun _ n _ _ => (takes_unpackStr n).bind fun _ _ _ _ => Takes.pure _

theorem takes_loadRegisterValues : Takes (· = .structError) 168 loadRegisterValues := by
  have hwords : Takes (· = .structError) 168 (times unpackUnsignedLong registersFields.length) :=
    takes_unpackUnsignedLong.times registersFields.length
  refine Takes.bind (n := 0) hwords fun bs values rest hvalues => ?_
  -- there is one value for each field, so `Registers(*values)` is no TypeError
  have hlen : (values.map Int.ofNat).length = registersFields.length := by
    rw [List.length_map, length_of_times hvalues]
  simp only [Registers.ofList, if_pos hlen]
  exact Takes.pure _

theorem takes_loadMemoryCopies : Takes (· = .structError) 8 loadMemoryCopies :=
  takes_unpackUnsignedLong.bind fun _ n _ _ => (takes_loadMemoryCopy.times n).mono (Nat.zero_le _)

theorem takes_loadSystemCall : Takes (· = .structError) 184 loadSystemCall :=
  takes_loadRegisterValues.bind fun _ _ _ _ => takes_unpackSignedLong.bind fun _ _ _ _ =>
    takes_loadMemoryCopies.bind fun _ _ _ _ => Takes.pure _

/-! ## The loader with a log -/

abbrev LoggedUnpack (α : Type) := Logged LoadError Loaded α

def loadMemoryCopyLogged : LoggedUnpack MemoryCopy :=
  .completes .memoryCopy (.lift loadMemoryCopy)

def loadMemoryCopiesLogged : LoggedUnpack (List MemoryCopy) := do
  let numberOfCopies ← Logged.lift unpackUnsignedLong
  Logged.times loadMemoryCopyLogged numberOfCopies

def loadSystemCallLogged : LoggedUnpack SystemCall :=
  .completes .systemCall do
    let registers ← Logged.lift loadRegisterValues
    let returnValue ← Logged.lift unpackSignedLong
    let memoryCopies ← loadMemoryCopiesLogged
    pure { registers, returnValue, memoryCopies }

/-- How `load_system_calls` ends, and what it has loaded until then. -/
def loadSystemCallsLogged (buffer : List Byte) :
    Except LoadError (List SystemCall × List Byte) × List Loaded :=
  Logged.untilEmpty .outOfFuel loadSystemCallLogged buffer.length buffer

theorem erase_loadSystemCallLogged : loadSystemCallLogged.erase = loadSystemCall := by
  simp only [loadSystemCallLogged, loadMemoryCopiesLogged, loadMemoryCopyLogged,
    Logged.erase_completes, Logged.erase_bind, Logged.erase_lift, Logged.erase_times, Logged.erase_pure]
  rfl

/-- The log changes nothing in how loading ends. -/
theorem loadSystemCallsLogged_fst (buffer : List Byte) :
    (loadSystemCallsLogged buffer).1 = loadSystemCalls buffer := by
  have herase := Logged.erase_untilEmpty .outOfFuel loadSystemCallLogged buffer.length
  rw [erase_loadSystemCallLogged] at herase
  exact congrFun herase buffer

/-- The log of one call: its copies, then the call itself. -/
def callLog (call : SystemCall) : List Loaded :=
  List.replicate call.memoryCopies.length .memoryCopy ++ [.systemCall]

/-- A load that returns has loaded what it returns, and nothing else. -/
theorem loadSystemCallsLogged_log {buffer rest : List Byte} {calls : List SystemCall}
    {log : List Loaded} (h : loadSystemCallsLogged buffer = (.ok (calls, rest), log)) :
    log = calls.flatMap callLog := by
  have hcopy : Logged.Returns (fun _ log => log = [.memoryCopy]) loadMemoryCopyLogged :=
    Logged.Returns.completes (Logged.Returns.lift fun _ => rfl)
  have hcopies : Logged.Returns (fun cs log => log = List.replicate cs.length .memoryCopy)
      loadMemoryCopiesLogged := by
    refine Logged.Returns.bind (Logged.Returns.lift fun n bs cs rest log hrun => ?_)
    rw [hcopy.times n bs cs rest log hrun]
    show cs.flatMap (fun _ => [Loaded.memoryCopy]) = List.replicate cs.length Loaded.memoryCopy
    rw [← List.map_eq_flatMap, List.map_const']
  have hcall : Logged.Returns (fun call log => log = callLog call) loadSystemCallLogged := by
    refine Logged.Returns.completes (Logged.Returns.bind (Logged.Returns.lift fun registers => ?_))
    refine Logged.Returns.bind (Logged.Returns.lift fun returnValue => ?_)
    refine Logged.Returns.bind fun bs cs rest log hrun => ?_
    obtain rfl := hcopies bs cs rest log hrun
    exact Logged.Returns.pure (by simp [callLog])
  exact hcall.untilEmpty buffer.length buffer calls rest log h

/-! ## The bound -/

theorem pays_loadSystemCallLogged : Logged.Pays Loaded.header 0 loadSystemCallLogged := by
  have hcopy : Logged.Pays Loaded.header 0 loadMemoryCopyLogged :=
    Logged.Pays.completes (Logged.Pays.lift takes_loadMemoryCopy)
  have hcopies : Logged.Pays Loaded.header 8 loadMemoryCopiesLogged :=
    (Logged.Pays.lift takes_unpackUnsignedLong).bind fun n => hcopy.times n
  exact Logged.Pays.completes ((Logged.Pays.lift takes_loadRegisterValues).bind fun _ =>
    (Logged.Pays.lift takes_unpackSignedLong).bind fun _ => hcopies.bind fun _ => Logged.Pays.pure _)

/-- Loading ends on every buffer: with a list that leaves nothing over or with `struct.error`, and
having loaded no more calls and copies than there is room for their headers, each of which has
shortened the buffer. -/
theorem loadSystemCalls_ends (buffer : List Byte) :
    ((∃ calls, loadSystemCalls buffer = .ok (calls, [])) ∨
        loadSystemCalls buffer = .error .structError) ∧
      (loadSystemCallsLogged buffer).1 = loadSystemCalls buffer ∧
      (loadSystemCallsLogged buffer).2.count .systemCall ≤ buffer.length / 184 ∧
      (loadSystemCallsLogged buffer).2.count .memoryCopy ≤ buffer.length / 24 ∧
      (∀ bs call rest, loadSystemCall.run bs = .ok (call, rest) → rest.length + 184 ≤ bs.length) ∧
      ∀ bs copy rest, loadMemoryCopy.run bs = .ok (copy, rest) → rest.length + 24 ≤ bs.length := by
  have hpays : Logged.Pays Loaded.header 0 (Logged.untilEmpty .outOfFuel loadSystemCallLogged buffer.length) :=
    pays_loadSystemCallLogged.untilEmpty buffer.length
  have hends : Meets (· = .structError) (fun r => r.2 = []) (loadSystemCalls buffer) :=
    takes_loadSystemCall.untilEmpty (by decide) le_rfl
  refine ⟨?_, loadSystemCallsLogged_fst buffer, hpays.count_le (by decide) buffer,
    hpays.count_le (by decide) buffer, ?_, ?_⟩
  · cases hload : loadSystemCalls buffer with
    | ok result =>
        obtain ⟨calls, rest⟩ := result
        obtain rfl : rest = [] := hends.of_ok hload
        exact Or.inl ⟨calls, rfl⟩
    | error e =>
        exact Or.inr (congrArg Except.error (hends.of_error hload))
  · intro bs call rest hrun
    have htaken := takes_loadSystemCall.of_ok hrun
    omega
  · intro bs copy rest hrun
    have htaken := takes_loadMemoryCopy.of_ok hrun
    omega

end Loader
end RrPython
