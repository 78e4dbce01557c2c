import Mathlib.Data.BitVec

/-!
# FlexibleBlock — the size of a struct with a flexible array, in machine arithmetic

A block for a header and `len` bytes behind it is asked for with the sum of the two, computed modulo
`2 ^ w`, and `len` may itself be the residue of a longer length.  Size and length are exact if and only
if the integers stay below `2 ^ w`, and a sum that wraps leaves no room even for the header.
-/

namespace RrPython
namespace Foundation

variable {w : Nat}

/-- `header + len` as the machine computes it. -/
def blockSize (header len : BitVec w) : BitVec w :=
  header + len

/-- Header and array lie within the block. -/
def BlockFits (header len : BitVec w) : Prop :=
  header.toNat + len.toNat ≤ (blockSize header len).toNat

instance (header len : BitVec w) : Decidable (BlockFits header len) := by
  unfold BlockFits
  infer_instance

theorem blockFits_iff {header len : BitVec w} :
    BlockFits header len ↔ header.toNat + len.toNat < 2 ^ w := by
  have hsize := (blockSize header len).isLt
  constructor
  · intro hfits
    exact lt_of_le_of_lt hfits hsize
  · intro hlt
    exact (BitVec.toNat_add_of_lt hlt).ge

theorem BlockFits.toNat_blockSize {header len : BitVec w} (h : BlockFits header len) :
    (blockSize header len).toNat = header.toNat + len.toNat :=
  BitVec.toNat_add_of_lt (blockFits_iff.1 h)

/-- The sum has wrapped exactly once, and what is left of it is shorter than the header. -/
theorem toNat_blockSize_lt {header len : BitVec w} (h : ¬BlockFits header len) :
    (blockSize header len).toNat < header.toNat := by
  rw [blockFits_iff, Nat.not_lt] at h
  have hlen := len.isLt
  have hheader := header.isLt
  have hwrap : (blockSize header len).toNat = header.toNat + len.toNat - 2 ^ w := by
    rw [blockSize, BitVec.toNat_add, Nat.mod_eq_sub_mod h, Nat.mod_eq_of_lt (by omega)]
  omega

/-- Size and length computed from the integer `n` agree with it. -/
def BlockExact (header len : BitVec w) (n : Nat) : Prop :=
  (blockSize header len).toNat = header.toNat + n ∧ len.toNat = n

theorem blockExact_iff {header len : BitVec w} {n : Nat} (hlen : len = BitVec.ofNat w n) :
    BlockExact header len n ↔ header.toNat + n < 2 ^ w := by
  constructor
  · rintro ⟨hsize, _⟩
    have hlt := (blockSize header len).isLt
    omega
  · intro hlt
    have hexact : len.toNat = n := by
      rw [hlen, BitVec.toNat_ofNat, Nat.mod_eq_of_lt (by omega)]
    have hfits : BlockFits header len := by
      rw [blockFits_iff, hexact]
      exact hlt
    exact ⟨by rw [hfits.toNat_blockSize, hexact], hexact⟩

theorem BlockExact.fits {header len : BitVec w} {n : Nat} (h : BlockExact header len n) :
    BlockFits header len := by
  obtain ⟨hsize, hlen⟩ := h
  rw [BlockFits, hsize, hlen]

end Foundation
end RrPython
