import Mathlib.Data.BitVec
import Mathlib.Logic.Function.Basic
import RrPython.Foundation.LittleEndian

/-!
# ByteMemory — a byte-addressed memory with unmapped bytes

A memory is a partial map from 64-bit addresses to bytes.  `store` writes a byte string, `load` reads
one back; `storeUntilFault` is the store of a kernel that stops at the first unmapped byte.  Addresses
wrap around, so the laws of two stores ask for less than `2 ^ 64` bytes.
-/

namespace RrPython
namespace Foundation

/-- `none` is an unmapped byte. -/
abbrev ByteMemory := Word → Option Byte

namespace ByteMemory

/-! ## Operations -/

def Mapped (m : ByteMemory) (a : Word) (n : Nat) : Prop :=
  ∀ i < n, (m (a + BitVec.ofNat 64 i)).isSome

instance (m : ByteMemory) (a : Word) (n : Nat) : Decidable (m.Mapped a n) :=
  inferInstanceAs (Decidable (∀ i < n, (m (a + BitVec.ofNat 64 i)).isSome))

def store (m : ByteMemory) (a : Word) : List Byte → ByteMemory
  | [] => m
  | b :: bs => store (Function.update m a (some b)) (a + 1#64) bs

def load (m : ByteMemory) (a : Word) : Nat → Option (List Byte)
  | 0 => some []
  | n + 1 => do
      let b ← m a
      let bs ← load m (a + 1#64) n
      pure (b :: bs)

/-- Stores up to the first unmapped byte, and returns the number of bytes stored. -/
def storeUntilFault (m : ByteMemory) (a : Word) : List Byte → ByteMemory × Nat
  | [] => (m, 0)
  | b :: bs =>
      if (m a).isSome then
        let (m, n) := storeUntilFault (Function.update m a (some b)) (a + 1#64) bs
        (m, n + 1)
      else (m, 0)

variable {m : ByteMemory} {a : Word}

/-! ## Mapped ranges -/

theorem ofNat_succ_add (a : Word) (i : Nat) :
    a + BitVec.ofNat 64 (i + 1) = a + 1#64 + BitVec.ofNat 64 i := by
  rw [Nat.add_comm i 1, BitVec.ofNat_add, ← BitVec.add_assoc]

theorem mapped_zero : m.Mapped a 0 := by
  intro i hi
  omega

theorem mapped_succ {n : Nat} : m.Mapped a (n + 1) ↔ (m a).isSome ∧ m.Mapped (a + 1#64) n := by
  constructor
  · intro h
    refine ⟨by simpa using h 0 (by omega), fun i hi => ?_⟩
    rw [← ofNat_succ_add]
    exact h (i + 1) (by omega)
  · rintro ⟨hhead, htail⟩ i hi
    cases i with
    | zero =>
        simpa using hhead
    | succ i =>
        rw [ofNat_succ_add]
        exact htail i (by omega)

theorem mapped_add {n k : Nat} :
    m.Mapped a (n + k) ↔ m.Mapped a n ∧ m.Mapped (a + BitVec.ofNat 64 n) k := by
  induction n generalizing a with
  | zero =>
      simp [mapped_zero]
  | succ n ih =>
      have hsum : n + 1 + k = n + k + 1 := by omega
      rw [hsum, mapped_succ, mapped_succ, ih, ofNat_succ_add a n, and_assoc]

theorem Mapped.le {n k : Nat} (h : m.Mapped a n) (hk : k ≤ n) : m.Mapped a k :=
  fun i hi => h i (by omega)

theorem Mapped.congr {m' : ByteMemory} (hsame : ∀ x, (m' x).isSome = (m x).isSome) {n : Nat} :
    m'.Mapped a n ↔ m.Mapped a n := by
  simp only [Mapped, hsame]

theorem load_isSome {n : Nat} : (m.load a n).isSome ↔ m.Mapped a n := by
  induction n generalizing a with
  | zero =>
      simp [load, mapped_zero]
  | succ n ih =>
      rw [mapped_succ, ← ih]
      cases hb : m a with
      | none =>
          simp [load, hb]
      | some b =>
          cases hbs : m.load (a + 1#64) n with
          | none =>
              simp [load, hb, hbs]
          | some bs =>
              simp [load, hb, hbs]

theorem load_succ_eq_some {n : Nat} {bs : List Byte} :
    m.load a (n + 1) = some bs ↔
      ∃ b bs', m a = some b ∧ m.load (a + 1#64) n = some bs' ∧ bs = b :: bs' := by
  simp only [load, Option.bind_eq_bind, Option.bind_eq_some_iff]
  constructor
  · rintro ⟨b, hb, bs', hbs, hpure⟩
    cases hpure
    exact ⟨b, bs', hb, hbs, rfl⟩
  · rintro ⟨b, bs', hb, hbs, rfl⟩
    exact ⟨b, hb, bs', hbs, rfl⟩

theorem length_of_load {n : Nat} {bs : List Byte} (h : m.load a n = some bs) : bs.length = n := by
  induction n generalizing a bs with
  | zero =>
      simp only [load, Option.some.injEq] at h
      simp [← h]
  | succ n ih =>
      obtain ⟨b, bs', _, hbs, rfl⟩ := load_succ_eq_some.1 h
      rw [List.length_cons, ih hbs]

theorem load_drop {n k : Nat} {bs : List Byte} (h : m.load a (n + k) = some bs) :
    m.load (a + BitVec.ofNat 64 n) k = some (bs.drop n) := by
  induction n generalizing a bs with
  | zero =>
      simpa using h
  | succ n ih =>
      have hsum : n + 1 + k = n + k + 1 := by omega
      rw [hsum] at h
      obtain ⟨b, bs', _, hbs, rfl⟩ := load_succ_eq_some.1 h
      rw [ofNat_succ_add a n]
      exact ih hbs

theorem load_append {n k : Nat} {bs bs' : List Byte} (h : m.load a n = some bs)
    (h' : m.load (a + BitVec.ofNat 64 n) k = some bs') : m.load a (n + k) = some (bs ++ bs') := by
  induction n generalizing a bs with
  | zero =>
      simp only [load, Option.some.injEq] at h
      subst h
      simpa using h'
  | succ n ih =>
      obtain ⟨b, tail, hb, htail, rfl⟩ := load_succ_eq_some.1 h
      have hsum : n + 1 + k = n + k + 1 := by omega
      rw [ofNat_succ_add] at h'
      rw [hsum]
      exact load_succ_eq_some.2 ⟨b, tail ++ bs', hb, ih htail h', rfl⟩

theorem load_take {n k : Nat} {bs : List Byte} (h : m.load a n = some bs) (hk : k ≤ n) :
    m.load a k = some (bs.take k) := by
  induction k generalizing a n bs with
  | zero =>
      simp [load]
  | succ k ih =>
      obtain ⟨n, rfl⟩ : ∃ n', n = n' + 1 := ⟨n - 1, by omega⟩
      obtain ⟨b, tail, hb, htail, rfl⟩ := load_succ_eq_some.1 h
      exact load_succ_eq_some.2 ⟨b, tail.take k, hb, ih htail (by omega), rfl⟩

/-- Byte by byte, what was loaded is what is there. -/
theorem load_getElem? {n : Nat} {bs : List Byte} (h : m.load a n = some bs) {i : Nat} (hi : i < n) :
    m (a + BitVec.ofNat 64 i) = bs[i]? := by
  induction n generalizing a bs i with
  | zero =>
      omega
  | succ n ih =>
      obtain ⟨b, tail, hb, htail, rfl⟩ := load_succ_eq_some.1 h
      cases i with
      | zero =>
          simpa using hb
      | succ i =>
          rw [ofNat_succ_add, ih htail (by omega), List.getElem?_cons_succ]

/-! ## Stores -/

@[simp] theorem store_nil : m.store a [] = m := rfl

theorem store_append (bs bs' : List Byte) :
    m.store a (bs ++ bs') = (m.store a bs).store (a + BitVec.ofNat 64 bs.length) bs' := by
  induction bs generalizing m a with
  | nil =>
      simp
  | cons b bs ih =>
      rw [List.cons_append, store, store, ih, List.length_cons, ofNat_succ_add a bs.length]

theorem isSome_store (bs : List Byte) (hmapped : m.Mapped a bs.length) (x : Word) :
    (m.store a bs x).isSome = (m x).isSome := by
  induction bs generalizing m a with
  | nil =>
      rfl
  | cons b bs ih =>
      obtain ⟨hhead, htail⟩ := mapped_succ.1 hmapped
      -- the byte that is stored first was mapped, so storing it maps nothing new
      have hsame : ∀ y, (Function.update m a (some b) y).isSome = (m y).isSome := by
        intro y
        by_cases hy : y = a
        · subst hy
          simp [hhead]
        · simp [hy]
      rw [store, ih ((Mapped.congr hsame).2 htail), hsame]

/-- A byte that is not stored to keeps its value. -/
theorem store_frame (bs : List Byte) {x : Word} (h : ∀ i < bs.length, x ≠ a + BitVec.ofNat 64 i) :
    m.store a bs x = m x := by
  induction bs generalizing m a with
  | nil =>
      rfl
  | cons b bs ih =>
      have hne : x ≠ a := by
        simpa using h 0 (by simp)
      rw [store, ih fun i hi => ?_]
      · simp [hne]
      · rw [← ofNat_succ_add]
        exact h (i + 1) (by simpa using hi)

/-- What a stored byte holds does not depend on what was there. -/
theorem store_reached (m m' : ByteMemory) {bs : List Byte} {x : Word}
    (h : ∃ i < bs.length, x = a + BitVec.ofNat 64 i) : m.store a bs x = m'.store a bs x := by
  induction bs generalizing m m' a with
  | nil =>
      obtain ⟨i, hi, _⟩ := h
      cases hi
  | cons b bs ih =>
      rw [store, store]
      by_cases htail : ∃ i < bs.length, x = a + 1#64 + BitVec.ofNat 64 i
      · exact ih _ _ htail
      · -- only the first byte is stored at `x`
        have hnot : ∀ i < bs.length, x ≠ a + 1#64 + BitVec.ofNat 64 i :=
          fun i hi heq => htail ⟨i, hi, heq⟩
        rw [store_frame bs hnot, store_frame bs hnot]
        obtain ⟨i, hi, heq⟩ := h
        cases i with
        | zero =>
            simp [heq]
        | succ i =>
            rw [ofNat_succ_add] at heq
            exact absurd heq (hnot i (by simpa using hi))

theorem store_load {n : Nat} {bs : List Byte} (h : m.load a n = some bs) : m.store a bs = m := by
  induction n generalizing a bs with
  | zero =>
      simp only [load, Option.some.injEq] at h
      simp [← h]
  | succ n ih =>
      obtain ⟨b, bs', hb, hbs, rfl⟩ := load_succ_eq_some.1 h
      have hsame : Function.update m a (some b) = m := by
        rw [← hb]
        exact Function.update_eq_self a m
      rw [store, hsame, ih hbs]

theorem load_congr {m' : ByteMemory} {n : Nat}
    (h : ∀ i < n, m' (a + BitVec.ofNat 64 i) = m (a + BitVec.ofNat 64 i)) :
    m'.load a n = m.load a n := by
  induction n generalizing a with
  | zero =>
      rfl
  | succ n ih =>
      have hhead : m' a = m a := by
        simpa using h 0 (by omega)
      have htail : m'.load (a + 1#64) n = m.load (a + 1#64) n := by
        refine ih fun i hi => ?_
        rw [← ofNat_succ_add]
        exact h (i + 1) (by omega)
      rw [load, load, hhead, htail]

theorem ofNat_ne_ofNat {i j : Nat} (hi : i < 2 ^ 64) (hj : j < 2 ^ 64) (hij : i ≠ j) (a : Word) :
    a + BitVec.ofNat 64 i ≠ a + BitVec.ofNat 64 j := by
  intro h
  have hnat := congrArg BitVec.toNat (add_left_cancel h)
  simp only [BitVec.toNat_ofNat] at hnat
  omega

/-- What was stored can be loaded again. -/
theorem load_store {bs : List Byte} (hlen : bs.length ≤ 2 ^ 64) :
    (m.store a bs).load a bs.length = some bs := by
  induction bs generalizing m a with
  | nil =>
      rfl
  | cons b bs ih =>
      simp only [List.length_cons] at hlen
      -- the stores behind the first byte do not come round to it
      have hhead : m.store a (b :: bs) a = some b := by
        rw [store, store_frame bs fun i hi => ?_, Function.update_self]
        have hne := ofNat_ne_ofNat (i := 0) (j := i + 1) (by omega) (by omega) (by omega) a
        rw [ofNat_succ_add a i] at hne
        simpa using hne
      exact load_succ_eq_some.2 ⟨b, bs, hhead, ih (by omega), rfl⟩

/-- Storing a string together with the bytes that follow it in memory stores the string. -/
theorem store_append_load {bs rest : List Byte} {k : Nat}
    (h : m.load (a + BitVec.ofNat 64 bs.length) k = some rest) (hlen : bs.length + k ≤ 2 ^ 64) :
    m.store a (bs ++ rest) = m.store a bs := by
  -- storing `bs` does not reach the bytes behind it, which are then stored over themselves
  have hrest : (m.store a bs).load (a + BitVec.ofNat 64 bs.length) k = some rest := by
    rw [← h]
    refine load_congr fun i hi => store_frame bs fun j hj => ?_
    rw [BitVec.add_assoc, ← BitVec.ofNat_add]
    exact ofNat_ne_ofNat (by omega) (by omega) (by omega) a
  rw [store_append, store_load hrest]

/-! ## Stores that may fault -/

theorem storeUntilFault_mapped (bs : List Byte) (h : m.Mapped a bs.length) :
    m.storeUntilFault a bs = (m.store a bs, bs.length) := by
  induction bs generalizing m a with
  | nil =>
      rfl
  | cons b bs ih =>
      obtain ⟨hhead, htail⟩ := mapped_succ.1 h
      have hsame : ∀ y, (Function.update m a (some b) y).isSome = (m y).isSome :=
        isSome_store [b] (mapped_succ.2 ⟨hhead, mapped_zero⟩)
      rw [storeUntilFault, if_pos hhead, ih ((Mapped.congr hsame).2 htail)]
      rfl

theorem storeUntilFault_unmapped (bs : List Byte) (h : ¬m.Mapped a bs.length) :
    (m.storeUntilFault a bs).2 < bs.length := by
  induction bs generalizing m a with
  | nil =>
      exact absurd mapped_zero h
  | cons b bs ih =>
      -- the store stops at the first byte or at a later one
      by_cases hhead : (m a).isSome
      · have hsame : ∀ y, (Function.update m a (some b) y).isSome = (m y).isSome :=
          isSome_store [b] (mapped_succ.2 ⟨hhead, mapped_zero⟩)
        have htail : ¬Mapped (Function.update m a (some b)) (a + 1#64) bs.length := by
          intro hmapped
          exact h (mapped_succ.2 ⟨hhead, (Mapped.congr hsame).1 hmapped⟩)
        have hlt := ih htail
        simp only [storeUntilFault, hhead, if_true, List.length_cons]
        omega
      · simp [storeUntilFault, hhead]

end ByteMemory
end Foundation
end RrPython
