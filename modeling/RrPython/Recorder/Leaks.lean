import RrPython.Recorder.Ownership

/-!
# Leaks — the blocks that are allocated and those that can still be reached

A record that a read takes out of the FIFO without storing it stays allocated, and nothing points to it
any more.  `withLost` is the module as if the FIFO still held such records, in front of the others: every
hook treats them as it treats queued records.  `Covered` says that every allocated block can be reached,
so `Covered` of the module with its lost records says that nothing else has leaked.
-/

namespace RrPython

open Foundation

namespace Kernel

/-- A record the module points to, the pending copy, or a copy in the list of such a record. -/
def Reached (k : Kernel) (x : Ptr) : Prop :=
  x ∈ k.owned ∨ k.currentCopy = some x ∨
    ∃ p r, p ∈ k.owned ∧ k.heap p = some (.syscallRecord r) ∧ x ∈ r.copiesToUser

def Covered (k : Kernel) : Prop :=
  ∀ x, (k.heap x).isSome → k.Reached x

/-- The module as if its FIFO still had the records `ps`, in front. -/
def withLost (k : Kernel) (ps : List Ptr) : Kernel :=
  { k with recordedSyscalls := ps ++ k.recordedSyscalls }

section Covered

variable {k k' : Kernel} {p c : Ptr} {r : SyscallRecord Ptr} {d : CopyRecord}

/-- Newly allocated blocks can be reached, and what could be reached still can unless it was freed. -/
theorem Covered.step (hc : k.Covered)
    (hnew : ∀ x, (k'.heap x).isSome → k.heap x = none → k'.Reached x)
    (hold : ∀ x, k.Reached x → (k'.heap x).isSome → k'.Reached x) : k'.Covered := by
  intro x hx
  by_cases hfree : k.heap x = none
  · exact hnew x hx hfree
  · exact hold x (hc x (Option.isSome_iff_ne_none.2 hfree)) hx

theorem not_isSome_of_none {b : Option Block} (h : b = none) : ¬b.isSome := by
  simp [h]

/-! ## Allocation -/

theorem Covered.openRecord (hc : k.Covered) (hopen : k.currentSyscallRecord = none)
    (hp : k.heap p = none) (q : Pid) : (k.openRecord p (k.newRecord q)).Covered := by
  have howned : (k.openRecord p (k.newRecord q)).owned = k.owned ++ [p] := by
    simp [owned, Kernel.openRecord, hopen]
  refine hc.step ?_ ?_
  · -- the new block is the open record
    intro x hx hfree
    left
    rw [howned, List.mem_append, List.mem_singleton]
    right
    by_contra hne
    exact not_isSome_of_none ((Function.update_of_ne hne ..).trans hfree) hx
  · rintro x (hx | hx | ⟨y, s, hy, hs, hx⟩) _
    · exact Or.inl (howned ▸ List.mem_append_left [p] hx)
    · exact Or.inr (Or.inl hx)
    · have hyp : y ≠ p := ne_of_free hs hp
      exact Or.inr (Or.inr ⟨y, s, howned ▸ List.mem_append_left [p] hy,
        (Function.update_of_ne hyp ..).trans hs, hx⟩)

theorem Covered.openCopy (hc : k.Covered) (hnone : k.currentCopy = none) (hfree : k.heap c = none) :
    (k.openCopy c d).Covered := by
  refine hc.step ?_ ?_
  · -- the new block is the pending copy
    intro x hx hx'
    right
    left
    have hxc : x = c := by
      by_contra hne
      exact not_isSome_of_none ((Function.update_of_ne hne ..).trans hx') hx
    rw [hxc]
    rfl
  · rintro x (hx | hx | ⟨y, s, hy, hs, hx⟩) _
    · exact Or.inl hx
    · rw [hnone] at hx
      cases hx
    · have hyc : y ≠ c := ne_of_free hs hfree
      exact Or.inr (Or.inr ⟨y, s, hy, (Function.update_of_ne hyc ..).trans hs, hx⟩)

/-! ## Copies -/

theorem Covered.dropCopy (hc : k.Covered) (hinv : k.Inv) (hcopy : k.currentCopy = some c) :
    (k.dropCopy c).Covered := by
  obtain ⟨⟨e, he⟩, _⟩ := hinv.copy c hcopy
  refine hc.step ?_ ?_
  · intro x hx hfree
    have hxc : x ≠ c := by
      rintro rfl
      rw [he] at hfree
      cases hfree
    exact absurd hx (not_isSome_of_none ((Function.update_of_ne hxc ..).trans hfree))
  · rintro x (hx | hx | ⟨y, s, hy, hs, hx⟩) hx'
    · exact Or.inl hx
    · -- the pending copy is the block that was freed
      have hxc : c = x := by
        rw [hcopy] at hx
        exact Option.some.inj hx
      subst hxc
      exact absurd hx' (not_isSome_of_none (Function.update_self ..))
    · have hyc : y ≠ c := (copy_ne_record he hs).symm
      exact Or.inr (Or.inr ⟨y, s, hy, (Function.update_of_ne hyc ..).trans hs, hx⟩)

/-- What the open record lists once `c` has been appended. -/
theorem appendCopy_block : (k.appendCopy p r c d).heap p = some (.syscallRecord (r.addTail c)) :=
  Function.update_self ..

theorem reached_appendCopy (hopen : k.currentSyscallRecord = some p)
    (hr : k.heap p = some (.syscallRecord r)) (hold : ∀ s, k.heap c ≠ some (.syscallRecord s)) {x : Ptr}
    (hx : x ∈ k.owned ∨ x = c ∨
      ∃ y s, y ∈ k.owned ∧ k.heap y = some (.syscallRecord s) ∧ x ∈ s.copiesToUser) :
    x ∈ k.owned ∨ ∃ y s, y ∈ k.owned ∧
      (k.appendCopy p r c d).heap y = some (.syscallRecord s) ∧ x ∈ s.copiesToUser := by
  have hp : p ∈ k.owned := Inv.current_owned hopen
  rcases hx with hx | rfl | ⟨y, s, hy, hs, hx⟩
  · exact Or.inl hx
  · exact Or.inr ⟨p, r.addTail x, hp, appendCopy_block, by simp [SyscallRecord.addTail]⟩
  · by_cases hyp : y = p
    · subst hyp
      rw [hr] at hs
      cases hs
      exact Or.inr ⟨y, r.addTail c, hy, appendCopy_block, by simp [SyscallRecord.addTail, hx]⟩
    · have hyc : y ≠ c := by
        rintro rfl
        exact hold s hs
      exact Or.inr ⟨y, s, hy,
        (Function.update_of_ne hyp ..).trans ((Function.update_of_ne hyc ..).trans hs), hx⟩

theorem appendCopy_new {x : Ptr} (hr : k.heap p = some (.syscallRecord r))
    (hx : ((k.appendCopy p r c d).heap x).isSome) (hfree : k.heap x = none) : x = c := by
  have hxp : x ≠ p := by
    rintro rfl
    rw [hr] at hfree
    cases hfree
  by_contra hne
  exact not_isSome_of_none
    ((Function.update_of_ne hxp ..).trans ((Function.update_of_ne hne ..).trans hfree)) hx

/-- `post_put` and `post_copy`: the pending copy goes into the list of the open record. -/
theorem Covered.takeCopy (hc : k.Covered) (hinv : k.Inv) (hopen : k.currentSyscallRecord = some p)
    (hr : k.heap p = some (.syscallRecord r)) (hcopy : k.currentCopy = some c) :
    Covered { k.appendCopy p r c d with currentCopy := none } := by
  obtain ⟨⟨e, he⟩, _⟩ := hinv.copy c hcopy
  have hold : ∀ s, k.heap c ≠ some (.syscallRecord s) := by
    simp [he]
  refine hc.step ?_ ?_
  · intro x hx hfree
    have hxc : x = c := appendCopy_new hr hx hfree
    rw [hxc, he] at hfree
    cases hfree
  · intro x hx _
    have hx' : x ∈ k.owned ∨ x = c ∨
        ∃ y s, y ∈ k.owned ∧ k.heap y = some (.syscallRecord s) ∧ x ∈ s.copiesToUser := by
      rcases hx with hx | hx | hx
      · exact Or.inl hx
      · rw [hcopy] at hx
        exact Or.inr (Or.inl (Option.some.inj hx).symm)
      · exact Or.inr (Or.inr hx)
    rcases reached_appendCopy (d := d) hopen hr hold hx' with hx | hx
    · exact Or.inl hx
    · exact Or.inr (Or.inr hx)

/-- `post_wrap_syscall`: a new copy in the list of the open record. -/
theorem Covered.appendFresh (hc : k.Covered) (hopen : k.currentSyscallRecord = some p)
    (hr : k.heap p = some (.syscallRecord r)) (hfree : k.heap c = none) :
    (k.appendCopy p r c d).Covered := by
  have hold : ∀ s, k.heap c ≠ some (.syscallRecord s) := by
    simp [hfree]
  refine hc.step ?_ ?_
  · intro x hx hx'
    have hxc : x = c := appendCopy_new hr hx hx'
    rcases reached_appendCopy (d := d) hopen hr hold (Or.inr (Or.inl hxc)) with hx | hx
    · exact Or.inl hx
    · exact Or.inr (Or.inr hx)
  · rintro x (hx | hx | hx) _
    · exact Or.inl hx
    · exact Or.inr (Or.inl hx)
    · rcases reached_appendCopy (d := d) hopen hr hold (Or.inr (Or.inr hx)) with hx | hx
      · exact Or.inl hx
      · exact Or.inr (Or.inr hx)

/-! ## Records -/

theorem Covered.pushRecord (hc : k.Covered) (hopen : k.currentSyscallRecord = some p)
    (hr : k.heap p = some (.syscallRecord r)) : (k.pushRecord p r).Covered := by
  have howned : (k.pushRecord p r).owned = k.owned := by
    simp [owned, Kernel.pushRecord, hopen]
  refine hc.step ?_ ?_
  · intro x hx hfree
    have hxp : x ≠ p := by
      rintro rfl
      rw [hr] at hfree
      cases hfree
    exact absurd hx (not_isSome_of_none ((Function.update_of_ne hxp ..).trans hfree))
  · rintro x (hx | hx | ⟨y, s, hy, hs, hx⟩) _
    · exact Or.inl (howned ▸ hx)
    · exact Or.inr (Or.inl hx)
    · right
      right
      by_cases hyp : y = p
      · subst hyp
        rw [hr] at hs
        cases hs
        exact ⟨y, k.completed r, howned ▸ hy, Function.update_self .., hx⟩
      · exact ⟨y, s, howned ▸ hy, (Function.update_of_ne hyp ..).trans hs, hx⟩

/-- `free_syscall_record` of a record that is taken out of what the module points to. -/
theorem Covered.freed (hc : k.Covered) (hinv : k.Inv) (hr : k.heap p = some (.syscallRecord r))
    (hcopy : k'.currentCopy = k.currentCopy) (hheap : k'.heap = freedHeap k.heap p r)
    (howned : ∀ x ∈ k.owned, x ≠ p → x ∈ k'.owned) : k'.Covered := by
  refine hc.step ?_ ?_
  · intro x hx hfree
    rw [hheap, freedHeap, hfree, ite_self] at hx
    cases hx
  · intro x hx hx'
    have hlive : x ≠ p ∧ x ∉ r.copiesToUser := by
      rw [hheap, freedHeap] at hx'
      split at hx'
      · cases hx'
      · rename_i hnot
        exact not_or.1 hnot
    rcases hx with hx | hx | ⟨y, s, hy, hs, hx⟩
    · exact Or.inl (howned x hx hlive.1)
    · exact Or.inr (Or.inl (hcopy.trans hx))
    · -- the record that lists `x` is another one
      have hyp : y ≠ p := by
        rintro rfl
        rw [hr] at hs
        cases hs
        exact hlive.2 hx
      refine Or.inr (Or.inr ⟨y, s, howned y hy hyp, ?_, hx⟩)
      rw [hheap]
      exact (hinv.heap.freedHeap_record hr hs hyp).trans hs

theorem Covered.discardRecord (hc : k.Covered) (hinv : k.Inv) (hopen : k.currentSyscallRecord = some p)
    (hr : k.heap p = some (.syscallRecord r)) : (k.discardRecord p r).Covered := by
  have hheap : (k.discardRecord p r).heap = freedHeap k.heap p r := by
    funext x
    by_cases hx : x = p
    · simp [Kernel.discardRecord, freedHeap, hx]
    · simp [Kernel.discardRecord, freedHeap, hx, completed]
  refine hc.freed hinv hr rfl hheap ?_
  intro x hx hxp
  simp only [owned, hopen, Option.toList_some, List.mem_append, List.mem_singleton] at hx
  rcases hx with hx | hx
  · exact Inv.mem_owned hx
  · exact absurd hx hxp

end Covered

/-! ## The order of the FIFO -/

section Perm

variable {k : Kernel} {ps : List Ptr}

theorem owned_perm (hperm : k.recordedSyscalls.Perm ps) :
    k.owned.Perm { k with recordedSyscalls := ps }.owned :=
  hperm.append_right k.currentSyscallRecord.toList

theorem Inv.perm (h : k.Inv) (hperm : k.recordedSyscalls.Perm ps) :
    Inv { k with recordedSyscalls := ps } where
  heap := h.heap
  nodup := (owned_perm hperm).nodup_iff.1 h.nodup
  live := fun p hp => h.live p ((owned_perm hperm).mem_iff.2 hp)
  copy := h.copy

end Perm

/-- Whatever the module does to its own records it does with the lost ones in front. -/
theorem Inv.of_withLost {k : Kernel} {lost : List Ptr} (h : (k.withLost lost).Inv) : k.Inv := by
  have hsub : k.owned.Sublist (k.withLost lost).owned :=
    (List.sublist_append_right lost k.recordedSyscalls).append_right _
  exact ⟨h.heap, h.nodup.sublist hsub, fun p hp => h.live p (hsub.subset hp), h.copy⟩

end Kernel

end RrPython
