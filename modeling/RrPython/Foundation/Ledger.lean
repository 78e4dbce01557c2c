import Mathlib.Logic.Function.Basic
import Mathlib.Tactic.TypeStar

/-!
# Ledger — resources that are acquired and released

A ledger says which resources are acquired, and keeps the releases of resources that were not.
Releasing what has just been acquired gives the ledger back as it was, and operations on different
resources commute, so that acquisitions can be undone in any order.
-/

namespace RrPython
namespace Foundation

variable {R : Type*}

structure Ledger (R : Type*) where
  acquired : R → Bool
  /-- History: the releases of what was not acquired. -/
  badReleases : List R

namespace Ledger

def empty : Ledger R where
  acquired := fun _ => false
  badReleases := []

variable [DecidableEq R]

def acquire (l : Ledger R) (r : R) : Ledger R :=
  { l with acquired := Function.update l.acquired r true }

def release (l : Ledger R) (r : R) : Ledger R where
  acquired := Function.update l.acquired r false
  badReleases := if l.acquired r then l.badReleases else l.badReleases ++ [r]

variable {l : Ledger R} {r r' : R}

@[simp] theorem acquired_acquire_self : (l.acquire r).acquired r = true :=
  Function.update_self ..

@[simp] theorem badReleases_acquire : (l.acquire r).badReleases = l.badReleases := rfl

theorem acquired_acquire_of_ne (h : r' ≠ r) : (l.acquire r).acquired r' = l.acquired r' :=
  Function.update_of_ne h ..

theorem release_acquire (h : l.acquired r = false) : (l.acquire r).release r = l := by
  cases l with
  | mk acquired badReleases =>
      dsimp only at h
      simp only [acquire, release, Function.update_self, Function.update_idem, if_true]
      rw [← h, Function.update_eq_self]

theorem release_acquire_comm (h : r' ≠ r) : (l.acquire r).release r' = (l.release r').acquire r := by
  simp only [acquire, release, Function.update_of_ne h]
  rw [Function.update_comm h]

theorem badReleases_release_free (h : l.acquired r = false) :
    (l.release r).badReleases = l.badReleases ++ [r] := by
  simp [release, h]

end Ledger

end Foundation
end RrPython
