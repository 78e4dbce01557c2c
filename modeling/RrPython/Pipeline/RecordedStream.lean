import RrPython.Recorder.Accounting
import RrPython.Replayer.Loader

/-!
# RecordedStream — what the loader makes of what was read

The bytes that the readers got from `/proc/syscall_dumper` are whole dumps, whatever the sizes of the
buffers were: the loader takes them for a recording, which lacks one call for each read that had no room
for all queued records.
-/

namespace RrPython

open Foundation

/-- The records of a fate, oldest first. -/
def ofFate (fate : Fate) (taken : List (Record × Fate)) : List Record :=
  (taken.filter fun x => x.2 = fate).map Prod.fst

theorem mem_of_mem_ofFate {fate : Fate} {taken : List (Record × Fate)} {R : Record}
    (h : R ∈ ofFate fate taken) : R ∈ taken.map Prod.fst := by
  obtain ⟨x, hx, rfl⟩ := List.mem_map.1 h
  exact List.mem_map_of_mem (List.mem_of_mem_filter hx)

namespace Sys

variable {pid : Int} {taskPtRegs : Pid → PtRegs} {es : List Event} {s : Sys}

/-- Of the records that were pushed some are still queued and some were taken, in this order; the loader
gets exactly the taken ones that were not lost, and one was lost for each read whose buffer was too small
for all that was queued. -/
theorem delivered_loads (hrun : run step (init pid taskPtRegs) es = .ok s)
    (hclean : AllSteps step CleanRead (init pid taskPtRegs) es) :
    ∃ taken : List (Record × Fate),
      s.appended = taken.map Prod.fst ++ s.kernel.queued ∧
      (∀ x ∈ taken, x.2 = .stored ∨ x.2 = .lost) ∧
      (ofFate .lost taken).length =
        countSteps step (fun s e => ¬s.ReadsAll e) (init pid taskPtRegs) es ∧
      s.delivered = dumps (ofFate .stored taken) ∧
      Loader.loadSystemCalls s.delivered = .ok ((ofFate .stored taken).map Record.toSystemCall, []) := by
  obtain ⟨v, _, hrefines, hacc⟩ := accounted_run hrun hclean
  obtain ⟨lost, hstands⟩ := hrefines.stands
  have happended : s.appended = v.taken.map Prod.fst ++ s.kernel.queued := by
    rw [hrefines.appended, ValueSys.appended, hstands.queued_eq]
  have hdelivered : s.delivered = dumps (ofFate .stored v.taken) := by
    rw [delivered, hrefines.reads]
    exact hacc.delivered
  refine ⟨v.taken, happended, ?_, hacc.lost, hdelivered, ?_⟩
  · intro x hx
    have hne := hacc.noFailed x hx
    rcases x with ⟨R, fate⟩
    cases fate with
    | stored =>
        exact Or.inl rfl
    | failed =>
        exact absurd rfl hne
    | lost =>
        exact Or.inr rfl
  · rw [hdelivered]
    refine Loader.loadSystemCalls_dumps fun R hR => ?_
    have hmem : R ∈ s.appended := by
      rw [happended]
      exact List.mem_append_left _ (mem_of_mem_ofFate hR)
    have hsized := appended_sized hrun R hmem
    exact ⟨hsized.amount_eq, fun c hc => (hsized.copies c hc).len_eq⟩

set_option maxRecDepth 20000 in
/-- Of two records a buffer for one of them delivers the first, and the second is lost. -/
theorem delivered_loads_twoRecords :
    ∃ s, run step (init 1 fun _ _ => 0) twoRecords = .ok s ∧
      ∃ taken : List (Record × Fate), s.appended = taken.map Prod.fst ++ s.kernel.queued ∧
        (ofFate .lost taken).length = 1 ∧
        Loader.loadSystemCalls s.delivered =
          .ok ((ofFate .stored taken).map Record.toSystemCall, []) := by
  obtain ⟨s, hrun⟩ : ∃ s, run step (init 1 fun _ _ => 0) twoRecords = .ok s := ⟨_, rfl⟩
  have hclean : AllSteps step CleanRead (init 1 fun _ _ => 0) twoRecords := by
    refine ⟨trivial, fun s₁ h₁ => ⟨trivial, fun s₂ h₂ => ⟨trivial, fun s₃ h₃ => ⟨trivial,
      fun s₄ h₄ => ⟨?_, fun _ _ => trivial⟩⟩⟩⟩⟩
    cases h₁
    cases h₂
    cases h₃
    cases h₄
    refine ⟨by simp [UserSpace.Reliable, ReadArgs.user, shortRead], ?_⟩
    intro R hR
    rcases List.mem_cons.1 hR with rfl | hR
    · decide
    · rw [List.mem_singleton.1 hR]
      decide
  obtain ⟨taken, happended, _, hlost, _, hloads⟩ := delivered_loads hrun hclean
  refine ⟨s, hrun, taken, happended, ?_, hloads⟩
  rw [hlost]
  decide

end Sys

end RrPython
