import Mathlib.Data.List.Basic
import RrPython.Recorder.Dump
import RrPython.Replayer.Loader

/-!
# LoadDump — the loader reads back what the dumper writes

The encoder is C structs handed to `copy_to_user`, the decoder is Python over a consumed buffer.
Here they meet: on whole records the loader inverts the dumper.
-/

namespace RrPython

open Foundation

/-- The bytes that `dump_syscall_record` followed by `dump_copy_records` store for `r` when the
reader's buffer is at `buf`. -/
def writtenBytes (buf : Word) (r : Record) : List Byte :=
  let (u, _) := dumpSyscallRecord r buf {}
  let (u, _) := dumpCopyRecords r.copiesToUser (buf + sizeofSyscallDump) u
  u.stored

theorem writtenBytes_eq_dump (buf : Word) {r : Record} (hcopies : ∀ c ∈ r.copiesToUser, c.Sized) :
    writtenBytes buf r = Record.dump r := by
  obtain ⟨u₁, hheader, hf₁, hw₁⟩ := dumpSyscallRecord_serves r buf (UserSpace.reliable_empty.serves 1)
  have hu₁ : u₁.Reliable := by
    rw [UserSpace.Reliable, hf₁]
    exact UserSpace.reliable_empty
  obtain ⟨u₂, hrest, _, hw₂⟩ :=
    dumpCopyRecords_serves hcopies (buf + sizeofSyscallDump) (hu₁.serves _)
  have hstored : u₂.stored =
      r.dumpHeader ++ (r.copiesToUser.map CopyRecord.toBytes).flatten := by
    simp [UserSpace.stored, hw₂, hw₁, flatMap_snd_layOut]
  simp only [writtenBytes, hheader, hrest, hstored]
  rw [Record.dump, List.flatMap_def]

theorem flatMap_writtenBytes (buf : Record → Word) {rs : List Record}
    (hsized : ∀ r ∈ rs, Record.Sized r) :
    (rs.flatMap fun r => writtenBytes (buf r) r) = rs.flatMap Record.dump :=
  List.flatMap_congr fun r hr => writtenBytes_eq_dump (buf r) (hsized r hr).copies

/-- Loading undoes dumping: the bytes written for any records, wherever the buffers are, load to
those records in order, and nothing of the buffer is left. -/
theorem loadSystemCalls_writtenBytes (buf : Record → Word) (rs : List Record)
    (hsized : ∀ r ∈ rs, Record.Sized r) :
    Loader.loadSystemCalls (rs.flatMap fun r => writtenBytes (buf r) r) =
      .ok (rs.map Record.toSystemCall, []) := by
  rw [flatMap_writtenBytes buf hsized]
  exact Loader.loadSystemCalls_dumps fun r hr =>
    ⟨(hsized r hr).amount_eq, fun c hc => ((hsized r hr).copies c hc).len_eq⟩

/-- A `write` that returned -9 and whose record has an empty copy followed by a two-byte one. -/
def sampleRecord : Record where
  userspaceRegs := fun r => if r = .origRax then 1 else 7
  ret := -9
  userspaceRegsPtr := 1
  amountOfCopies := 2
  copiesToUser := [⟨16, 32, 0, []⟩, ⟨0, -1, 2, [5, 6]⟩]

theorem loadSystemCalls_sampleRecord :
    Loader.loadSystemCalls ([sampleRecord, sampleRecord].flatMap fun r => writtenBytes 4096 r) =
      .ok ([sampleRecord, sampleRecord].map Record.toSystemCall, []) :=
  loadSystemCalls_writtenBytes (fun _ => 4096) [sampleRecord, sampleRecord] (by
    have hsample : Record.Sized sampleRecord := by
      refine ⟨rfl, ?_⟩
      intro c hc
      simp only [sampleRecord, List.mem_cons, List.not_mem_nil, or_false] at hc
      rcases hc with rfl | rfl
      · exact ⟨rfl, by decide⟩
      · exact ⟨rfl, by decide⟩
    intro r hr
    simp only [List.mem_cons, List.not_mem_nil, or_false, or_self] at hr
    exact hr ▸ hsample)

end RrPython
