import Mathlib.Data.List.Basic
import Mathlib.Tactic.TypeStar

/-!
# BlockQueue — a bounded queue of units that carries blocks of a fixed width

`enqueue` stores as many units as there is room for and `dequeue` takes as many as there are, so either
may be partial.  While only whole blocks are put in and taken out, and the capacity is a number of
whole blocks, neither ever is.
-/

namespace RrPython
namespace Foundation

variable {α β : Type*}

/-- The queue with as many of the units `xs` behind it as there is room for, and their number. -/
def enqueue (capacity : Nat) (q xs : List α) : List α × Nat :=
  let n := min xs.length (capacity - q.length)
  (q ++ xs.take n, n)

/-- The first `n` units, or all there are, and the rest of the queue. -/
def dequeue (q : List α) (n : Nat) : List α × List α :=
  (q.take n, q.drop n)

/-- Every block is written as `width` units. -/
structure FixedWidth (enc : β → List α) (width : Nat) : Prop where
  length : ∀ b, (enc b).length = width
  pos : 0 < width

namespace FixedWidth

variable {enc : β → List α} {width : Nat} (h : FixedWidth enc width)
include h

theorem length_flatMap (bs : List β) : (bs.flatMap enc).length = width * bs.length := by
  induction bs with
  | nil =>
      rfl
  | cons b bs ih =>
      rw [List.flatMap_cons, List.length_append, h.length, ih, List.length_cons, Nat.mul_succ,
        Nat.add_comm]

theorem flatMap_eq_nil {bs : List β} : bs.flatMap enc = [] ↔ bs = [] := by
  rw [← List.length_eq_zero_iff, h.length_flatMap, Nat.mul_eq_zero, List.length_eq_zero_iff]
  exact or_iff_right (Nat.pos_iff_ne_zero.1 h.pos)

/-- A block is stored whole or not at all. -/
theorem enqueue_block {capacity : Nat} (hcap : width ∣ capacity) (bs : List β) (b : β) :
    enqueue capacity (bs.flatMap enc) (enc b) =
      if width * bs.length + width ≤ capacity then ((bs ++ [b]).flatMap enc, width)
      else (bs.flatMap enc, 0) := by
  obtain ⟨blocks, rfl⟩ := hcap
  have hlen := h.length_flatMap bs
  have hb := h.length b
  simp only [enqueue]
  split_ifs with hroom
  · have hall : min (enc b).length (width * blocks - (bs.flatMap enc).length) = width := by
      omega
    rw [hall, List.take_of_length_le (Nat.le_of_eq hb), List.flatMap_append, List.flatMap_singleton]
  · -- there is less room than a block, so there is none
    have hblocks : blocks ≤ bs.length := by
      by_contra hlt
      have hle : width * (bs.length + 1) ≤ width * blocks := Nat.mul_le_mul_left _ (by omega)
      rw [Nat.mul_add] at hle
      omega
    have hle : width * blocks ≤ width * bs.length := Nat.mul_le_mul_left _ hblocks
    have hnone : min (enc b).length (width * blocks - (bs.flatMap enc).length) = 0 := by
      omega
    rw [hnone, List.take_zero, List.append_nil]

/-- The oldest block comes out whole. -/
theorem dequeue_block (b : β) (bs : List β) :
    dequeue ((b :: bs).flatMap enc) width = (enc b, bs.flatMap enc) := by
  simp only [dequeue, List.flatMap_cons]
  rw [List.take_left' (h.length b), List.drop_left' (h.length b)]

end FixedWidth

end Foundation
end RrPython
