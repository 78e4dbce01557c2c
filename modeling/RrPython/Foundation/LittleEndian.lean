import Mathlib.Data.Nat.ModEq
import Mathlib.Tactic.Ring

/-!
# LittleEndian — fixed-width little-endian integers

`leBytes n v` lays the low `n` bytes of `v` out with the least significant byte first;
`ofLeBytes` reads such a byte string back.  The two are inverse to each other up to the width.
-/

namespace RrPython
namespace Foundation

abbrev Byte := BitVec 8

abbrev Word := BitVec 64

/-! ## Encoding and decoding -/

def leBytes : Nat → Nat → List Byte
  | 0, _ => []
  | n + 1, v => BitVec.ofNat 8 v :: leBytes n (v / 256)

def ofLeBytes : List Byte → Nat
  | [] => 0
  | b :: bs => b.toNat + 256 * ofLeBytes bs

@[simp] theorem length_leBytes (n v : Nat) : (leBytes n v).length = n := by
  induction n generalizing v with
  | zero =>
      rfl
  | succ n ih =>
      simp [leBytes, ih]

theorem ofLeBytes_leBytes (n v : Nat) : ofLeBytes (leBytes n v) = v % 256 ^ n := by
  induction n generalizing v with
  | zero =>
      simp [leBytes, ofLeBytes, Nat.mod_one]
  | succ n ih =>
      have hpow : 256 ^ (n + 1) = 256 * 256 ^ n := by ring
      simp only [leBytes, ofLeBytes, ih, BitVec.toNat_ofNat]
      rw [hpow, Nat.mod_mul]

theorem ofLeBytes_lt (bs : List Byte) : ofLeBytes bs < 256 ^ bs.length := by
  induction bs with
  | nil =>
      simp [ofLeBytes]
  | cons b bs ih =>
      have hb : b.toNat < 256 := b.isLt
      have hpow : 256 ^ (b :: bs).length = 256 * 256 ^ bs.length := by
        simp only [List.length_cons]
        ring
      simp only [ofLeBytes]
      omega

theorem leBytes_ofLeBytes (bs : List Byte) : leBytes bs.length (ofLeBytes bs) = bs := by
  induction bs with
  | nil =>
      rfl
  | cons b bs ih =>
      have hb : b.toNat < 256 := b.isLt
      have hlow : BitVec.ofNat 8 (b.toNat + 256 * ofLeBytes bs) = b := by
        apply BitVec.eq_of_toNat_eq
        simp only [BitVec.toNat_ofNat]
        omega
      have hhigh : (b.toNat + 256 * ofLeBytes bs) / 256 = ofLeBytes bs := by omega
      simp only [List.length_cons, leBytes, ofLeBytes, hlow, hhigh, ih]

/-! ## Eight-byte words -/

/-- The in-memory bytes of a 64-bit word. -/
def wordBytes (w : Word) : List Byte :=
  leBytes 8 w.toNat

/-- The word that eight bytes hold. -/
def wordOfBytes (bs : List Byte) : Word :=
  BitVec.ofNat 64 (ofLeBytes bs)

@[simp] theorem length_wordBytes (w : Word) : (wordBytes w).length = 8 :=
  length_leBytes 8 w.toNat

theorem ofLeBytes_wordBytes (w : Word) : ofLeBytes (wordBytes w) = w.toNat := by
  rw [wordBytes, ofLeBytes_leBytes]
  exact Nat.mod_eq_of_lt w.isLt

@[simp] theorem wordOfBytes_wordBytes (w : Word) : wordOfBytes (wordBytes w) = w := by
  simp [wordOfBytes, ofLeBytes_wordBytes]

theorem wordBytes_wordOfBytes {bs : List Byte} (hlen : bs.length = 8) :
    wordBytes (wordOfBytes bs) = bs := by
  have hlt : ofLeBytes bs < 2 ^ 64 := by
    have h := ofLeBytes_lt bs
    rw [hlen] at h
    exact h
  have hback : (wordOfBytes bs).toNat = ofLeBytes bs := by
    simp only [wordOfBytes, BitVec.toNat_ofNat]
    exact Nat.mod_eq_of_lt hlt
  rw [wordBytes, hback, ← hlen]
  exact leBytes_ofLeBytes bs

end Foundation
end RrPython
