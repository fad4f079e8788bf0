import Mathlib

set_option autoImplicit false

/-!
32-bit words read bit by bit: the masks a C function builds from `0xffffffff` by shifts, shifts by
an amount below the width, and the tests `x & m == m` and `x & m == 0`, each as a statement about
`getLsbD`.
-/

namespace Word32

theorem eq_iff_getLsbD {x y : UInt32} : x = y ↔ ∀ j < 32, x.toBitVec.getLsbD j = y.toBitVec.getLsbD j :=
  ⟨fun h _ _ => h ▸ rfl,fun h => UInt32.toBitVec_inj.mp (BitVec.eq_of_getLsbD_eq h)⟩

theorem getLsbD_of_ge (x : UInt32) {i : Nat} (hi : 32 ≤ i) : x.toBitVec.getLsbD i = false :=
  BitVec.getLsbD_of_ge x.toBitVec i hi

@[simp] theorem getLsbD_allOnes (i : Nat) : (0xffffffff : UInt32).toBitVec.getLsbD i = decide (i < 32) := by
  rw [show (0xffffffff : UInt32).toBitVec = BitVec.allOnes 32 from rfl,BitVec.getLsbD_allOnes]

theorem getLsbD_lowMask {m : UInt32} {k : Nat} (hm : m.toNat = 2 ^ k - 1) (j : Nat) :
    m.toBitVec.getLsbD j = decide (j < k) := by
  rw [← BitVec.testBit_toNat,UInt32.toNat_toBitVec,hm,Nat.testBit_two_pow_sub_one]

theorem getLsbD_allOnes_ushiftRight {k : Nat} (hk : k < 32) (i : Nat) :
    ((0xffffffff : UInt32) >>> k.toUInt32).toBitVec.getLsbD i = decide (i + k < 32) := by
  simp only [UInt32.toBitVec_shiftRight]
  simp [Nat.mod_eq_of_lt hk]
  rw [BitVec.getLsbD_ofNat,show 4294967295 = 2 ^ 32 - 1 from rfl,Nat.testBit_two_pow_sub_one]
  simp
  omega

theorem getLsbD_ushiftRight {k : Nat} (hk : k < 32) (x : UInt32) (i : Nat) :
    (x >>> k.toUInt32).toBitVec.getLsbD i = x.toBitVec.getLsbD (k + i) := by
  simp [UInt32.toBitVec_shiftRight,Nat.mod_eq_of_lt hk]

theorem getLsbD_shiftLeft {k : Nat} (hk : k < 32) (x : UInt32) (i : Nat) :
    (x <<< k.toUInt32).toBitVec.getLsbD i = (decide (k ≤ i ∧ i < 32) && x.toBitVec.getLsbD (i - k)) := by
  simp [UInt32.toBitVec_shiftLeft,Nat.mod_eq_of_lt hk]
  cases decide (i < 32) <;> cases h : decide (k ≤ i) <;> simp_all

theorem and_eq_self_iff {x m : UInt32} :
    x &&& m = m ↔ ∀ j < 32, m.toBitVec.getLsbD j = true → x.toBitVec.getLsbD j = true := by
  rw [eq_iff_getLsbD]
  refine forall₂_congr fun j _ => ?_
  rw [UInt32.toBitVec_and,BitVec.getLsbD_and]
  cases m.toBitVec.getLsbD j <;> simp

theorem and_eq_zero_iff {x m : UInt32} :
    x &&& m = 0 ↔ ∀ j < 32, m.toBitVec.getLsbD j = true → x.toBitVec.getLsbD j = false := by
  rw [eq_iff_getLsbD]
  refine forall₂_congr fun j _ => ?_
  rw [UInt32.toBitVec_and,BitVec.getLsbD_and]
  cases m.toBitVec.getLsbD j <;> simp

end Word32
