import Mathlib.Algebra.GroupWithZero.Nat
import Mathlib.Data.List.Basic

/-!
# FittingPrefix — taking from the front of a list as long as there is room

Each element takes up some room.  Taking elements from the front until the next one does not fit gives
the longest of the prefixes that fit.
-/

namespace RrPython
namespace Foundation

variable {α : Type*} {size size' : α → Nat} {room : Nat} {x : α} {xs ys zs : List α}

def totalSize (size : α → Nat) (xs : List α) : Nat :=
  (xs.map size).sum

/-- Elements from the front as long as they fit. -/
def fittingPrefix (size : α → Nat) : Nat → List α → List α
  | _, [] => []
  | room, x :: xs => if size x ≤ room then x :: fittingPrefix size (room - size x) xs else []

/-- `ys` is the longest prefix of `xs` that fits. -/
structure LongestFitting (size : α → Nat) (room : Nat) (xs ys : List α) : Prop where
  isPrefix : ys <+: xs
  fits : totalSize size ys ≤ room
  longest : ∀ {zs}, zs <+: xs → totalSize size zs ≤ room → zs <+: ys

@[simp] theorem totalSize_nil : totalSize size [] = 0 := rfl

@[simp] theorem totalSize_cons : totalSize size (x :: xs) = size x + totalSize size xs := by
  simp [totalSize]

theorem totalSize_congr (h : ∀ x ∈ xs, size x = size' x) : totalSize size xs = totalSize size' xs :=
  congrArg List.sum (List.map_congr_left h)

@[simp] theorem fittingPrefix_nil : fittingPrefix size room [] = [] := rfl

theorem fittingPrefix_of_le (h : size x ≤ room) :
    fittingPrefix size room (x :: xs) = x :: fittingPrefix size (room - size x) xs :=
  if_pos h

theorem fittingPrefix_of_lt (h : room < size x) : fittingPrefix size room (x :: xs) = [] :=
  if_neg (Nat.not_le.2 h)

theorem fittingPrefix_ne_nil_iff : fittingPrefix size room (x :: xs) ≠ [] ↔ size x ≤ room := by
  simp [fittingPrefix]

theorem fittingPrefix_congr (h : ∀ x ∈ xs, size x = size' x) :
    fittingPrefix size room xs = fittingPrefix size' room xs := by
  induction xs generalizing room with
  | nil =>
      rfl
  | cons x xs ih =>
      simp only [fittingPrefix, h x List.mem_cons_self]
      rw [ih fun y hy => h y (List.mem_cons_of_mem x hy)]

theorem fittingPrefix_longest (size : α → Nat) (room : Nat) (xs : List α) :
    LongestFitting size room xs (fittingPrefix size room xs) := by
  induction xs generalizing room with
  | nil =>
      exact ⟨List.prefix_rfl, Nat.zero_le room, fun hzs _ => hzs⟩
  | cons x xs ih =>
      by_cases hx : size x ≤ room
      · rw [fittingPrefix_of_le hx]
        obtain ⟨hfront, hfits, hlongest⟩ := ih (room - size x)
        refine ⟨List.cons_prefix_cons.2 ⟨rfl, hfront⟩, ?_, ?_⟩
        · rw [totalSize_cons]
          omega
        · intro zs hzs hroom
          -- another prefix that fits takes `x` first, too
          cases zs with
          | nil =>
              exact List.nil_prefix
          | cons z zs =>
              obtain ⟨rfl, hrest⟩ := List.cons_prefix_cons.1 hzs
              rw [totalSize_cons] at hroom
              exact List.cons_prefix_cons.2 ⟨rfl, hlongest hrest (by omega)⟩
      · rw [fittingPrefix_of_lt (Nat.not_le.1 hx)]
        refine ⟨List.nil_prefix, Nat.zero_le room, ?_⟩
        intro zs hzs hroom
        cases zs with
        | nil =>
            exact List.nil_prefix
        | cons z zs =>
            obtain ⟨rfl, _⟩ := List.cons_prefix_cons.1 hzs
            rw [totalSize_cons] at hroom
            omega

theorem mem_of_mem_fittingPrefix (h : x ∈ fittingPrefix size room xs) : x ∈ xs :=
  (fittingPrefix_longest size room xs).isPrefix.subset h

/-- Nothing is left over exactly if there is room for all. -/
theorem drop_fittingPrefix_eq_nil_iff :
    xs.drop (fittingPrefix size room xs).length = [] ↔ totalSize size xs ≤ room := by
  obtain ⟨hfront, hfits, hlongest⟩ := fittingPrefix_longest size room xs
  constructor
  · intro hdrop
    have hall : fittingPrefix size room xs = xs :=
      hfront.eq_of_length_le (List.drop_eq_nil_iff.1 hdrop)
    rwa [hall] at hfits
  · intro hroom
    exact List.drop_eq_nil_iff.2 (hlongest List.prefix_rfl hroom).length_le

end Foundation
end RrPython
