import Mathlib.Order.Bounds.Basic

/-!
# LowestFree — allocators that hand out the lowest number that is free

Two allocators that agree on what is taken hand out the same number.  One that takes some of the taken
numbers to be free, and others that are free to be taken, hands out the same number as long as all of
the former are higher and none of the latter is due.  Else it hands out one of the former, which is
then handed out twice, or one that the other does not.  A step of only one of them is what makes the two
tables drift apart.
-/

namespace RrPython
namespace Foundation

variable {α : Type*} [LinearOrder α] {taken hidden stale : Set α} {m n : α}

/-- `n` is the lowest number that is not in `taken`. -/
def LowestFree (taken : Set α) (n : α) : Prop :=
  IsLeast takenᶜ n

theorem LowestFree.not_mem (h : LowestFree taken n) : n ∉ taken :=
  h.1

theorem LowestFree.mem_of_lt (h : LowestFree taken n) (hm : m < n) : m ∈ taken := by
  by_contra hfree
  exact absurd (h.2 hfree) (not_le.2 hm)

/-- What an allocator does that takes the numbers in `hidden` to be free and those in `stale` to be
taken. -/
theorem LowestFree.drift_cases (hn : LowestFree taken n) (hm : LowestFree (taken \ hidden ∪ stale) m)
    (hsub : hidden ⊆ taken) :
    (m = n ∧ n ∉ stale ∧ ∀ d ∈ hidden, d ∉ stale → n < d) ∨ (m ∈ hidden ∧ m ∉ stale ∧ m < n) ∨
      (m ≠ n ∧ n ∈ stale) := by
  have hfresh : m ∉ stale := fun hstale => hm.not_mem (Or.inr hstale)
  rcases lt_trichotomy m n with hlt | rfl | hgt
  · -- `n` is the lowest free number, so `m` is taken, and thought to be free only if it is hidden
    have htaken := hn.mem_of_lt hlt
    refine Or.inr (Or.inl ⟨?_, hfresh, hlt⟩)
    by_contra hknown
    exact hm.not_mem (Or.inl ⟨htaken, hknown⟩)
  · refine Or.inl ⟨rfl, hfresh, fun d hd hnot => ?_⟩
    by_contra hge
    rcases lt_or_eq_of_le (not_lt.1 hge) with hlt | rfl
    · exact (hm.mem_of_lt hlt).elim (fun h => h.2 hd) hnot
    · exact hn.not_mem (hsub hd)
  · -- `n` is free, and thought to be taken only if it is stale
    refine Or.inr (Or.inr ⟨hgt.ne', ?_⟩)
    exact (hm.mem_of_lt hgt).resolve_left fun h => hn.not_mem h.1

section Step

variable {β : Type*} {taken hidden stale opened closed : Set β}

/-- Both allocators hand out `opened` and get `closed` back. -/
theorem drift_step_both (hsub : hidden ⊆ taken) (hnew : ∀ d ∈ opened, d ∉ taken) :
    (taken \ hidden ∪ stale) \ closed ∪ opened =
      (taken \ closed ∪ opened) \ (hidden \ closed) ∪ stale \ closed := by
  ext d
  have hold : d ∈ hidden → d ∈ taken := @hsub d
  have hfresh := hnew d
  simp only [Set.mem_union, Set.mem_sdiff]
  tauto

/-- Where only the first one does, the other takes `opened` to be free and `closed` to be taken still. -/
theorem drift_step_one (hnew : ∀ d ∈ opened, d ∉ taken) :
    taken \ hidden ∪ stale =
      (taken \ closed ∪ opened) \ (hidden \ closed ∪ opened) ∪ (stale ∪ closed ∩ (taken \ hidden)) := by
  ext d
  have hfresh := hnew d
  simp only [Set.mem_union, Set.mem_sdiff, Set.mem_inter_iff]
  tauto

end Step

end Foundation
end RrPython
