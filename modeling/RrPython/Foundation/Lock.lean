import Mathlib.Logic.Function.Basic

/-!
# Lock — a flag that stands for exactly one holder

`Exclusive held count` ties a flag to the numbers of holds of all participants: when the flag is set
exactly one participant has exactly one hold, and when it is clear nobody has any.
-/

namespace RrPython
namespace Foundation

variable {ι : Type}

structure Exclusive (held : Prop) (count : ι → Nat) : Prop where
  holder : held → ∃ i, count i = 1 ∧ ∀ j, j ≠ i → count j = 0
  free : ¬held → ∀ i, count i = 0

namespace Exclusive

variable {held held' : Prop} {count : ι → Nat}

theorem congr (h : Exclusive held count) (hheld : held ↔ held') {count' : ι → Nat}
    (hcount : ∀ i, count' i = count i) : Exclusive held' count' := by
  have hfun : count' = count := funext hcount
  rw [hfun]
  exact ⟨fun h' => h.holder (hheld.2 h'), fun h' => h.free (fun h'' => h' (hheld.1 h''))⟩

theorem held_of_pos (h : Exclusive held count) {i : ι} (hi : 0 < count i) : held := by
  by_contra hfree
  have h0 := h.free hfree i
  omega

theorem le_one (h : Exclusive held count) (i : ι) : count i ≤ 1 := by
  by_cases hheld : held
  · obtain ⟨j, hj, hother⟩ := h.holder hheld
    by_cases hij : i = j
    · exact hij ▸ Nat.le_of_eq hj
    · have hzero := hother i hij
      omega
  · have hzero := h.free hheld i
    omega

theorem unique (h : Exclusive held count) {i j : ι} (hi : 0 < count i) (hj : 0 < count j) :
    i = j := by
  obtain ⟨k, _, hother⟩ := h.holder (h.held_of_pos hi)
  have hik : i = k := by
    by_contra hne
    have h0 := hother i hne
    omega
  have hjk : j = k := by
    by_contra hne
    have h0 := hother j hne
    omega
  rw [hik, hjk]

/-- Taking the free lock. -/
theorem acquire (h : Exclusive held count) (hfree : ¬held) (hheld' : held') (i : ι)
    {count' : ι → Nat} (hi : count' i = count i + 1) (hother : ∀ j, j ≠ i → count' j = count j) :
    Exclusive held' count' := by
  refine ⟨fun _ => ⟨i, ?_, ?_⟩, fun h' => absurd hheld' h'⟩
  · rw [hi, h.free hfree i]
  · intro j hj
    rw [hother j hj, h.free hfree j]

/-- Giving the lock back. -/
theorem release (h : Exclusive held count) (hheld' : ¬held') (i : ι)
    {count' : ι → Nat} (hi : count i = count' i + 1) (hother : ∀ j, j ≠ i → count' j = count j) :
    Exclusive held' count' := by
  refine ⟨fun h' => absurd h' hheld', fun _ j => ?_⟩
  have hone := h.le_one i
  by_cases hj : j = i
  · subst hj
    omega
  · rw [hother j hj]
    by_contra hpos
    exact hj (h.unique (Nat.pos_of_ne_zero hpos) (by omega))

end Exclusive

end Foundation
end RrPython
