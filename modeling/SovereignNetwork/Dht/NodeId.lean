import Mathlib.Data.Nat.Bitwise
import Mathlib.Data.Nat.Size
import SovereignNetwork.Types

/-!
# The distance between node ids

An id is nearer to a target than another if the first bit in which it differs from the target is less significant.
`kademliaDistance` counts the leading zeros of the xor instead, so it grows with the length of the shared prefix.
-/

namespace SovereignNetwork.Dht

/-- Ids are equal if all three parts are; the distance looks at the first part only. -/
structure NodeId where
  bytes : Bytes 32
  creationNonce : Bytes 32
  networkGenesis : Bytes 32
  deriving DecidableEq

/-- Leading zeros of a byte (`u8::leading_zeros`). -/
def leadingZeros (byte : UInt8) : Nat := if byte = 0 then 8 else 7 - byte.toNat.log2

namespace NodeId

def fromBytes (bytes : Bytes 32) : NodeId := ⟨bytes, 0, 0⟩

/-- The bytes are combined one by one, which is the xor of the whole. -/
def xorDistance (x y : NodeId) : Bytes 32 := x.bytes ^^^ y.bytes

/-- The loop over the bytes of the xor, from byte `i` on. -/
def firstDifference : Nat → List UInt8 → Nat
  | _, [] => 0
  | i, byte :: bytes => if byte ≠ 0 then i * 8 + leadingZeros byte else firstDifference (i + 1) bytes

def kademliaDistance (x y : NodeId) : Nat := firstDifference 0 (xorDistance x y).asSlice

/-- Some bit in which `y` differs from the target is more significant than every bit in which `x` does. -/
def Nearer (target x y : NodeId) : Prop :=
  ∃ i : Fin 256, target.bytes.getLsbD i ≠ y.bytes.getLsbD i ∧
    ∀ j : Fin 256, i ≤ j → target.bytes.getLsbD j = x.bytes.getLsbD j

/-! ## Nearness by the length of the xor -/

/-- The number of bits of the xor: one more than the position of its most significant bit, zero for equal ids. -/
def differingBits (x y : NodeId) : Nat := if x.bytes = y.bytes then 0 else (xorDistance x y).toNat.log2 + 1

theorem getLsbD_xorDistance (x y : NodeId) (i : Nat) :
    (xorDistance x y).toNat.testBit i = (x.bytes.getLsbD i ^^ y.bytes.getLsbD i) := by
  rw [← BitVec.getLsbD_xor]
  rfl

theorem xorDistance_eq_zero {x y : NodeId} : (xorDistance x y).toNat = 0 ↔ x.bytes = y.bytes := by
  rw [← BitVec.xor_eq_zero_iff]
  exact ⟨fun h => BitVec.eq_of_toNat_eq h, fun h => congrArg BitVec.toNat h⟩

theorem size_of_ne_zero {v : Nat} (h : v ≠ 0) : v.size = v.log2 + 1 :=
  Nat.le_antisymm (Nat.size_le.mpr Nat.lt_log2_self) (Nat.lt_size.mpr (Nat.log2_self_le h))

theorem differingBits_eq_size (x y : NodeId) : differingBits x y = (xorDistance x y).toNat.size := by
  rw [differingBits]
  split
  · next h => rw [xorDistance_eq_zero.mpr h, Nat.size_zero]
  · next h => rw [size_of_ne_zero fun heq => h (xorDistance_eq_zero.mp heq)]

theorem differingBits_le (x y : NodeId) : differingBits x y ≤ 256 := by
  rw [differingBits_eq_size]
  exact Nat.size_le.mpr (xorDistance x y).isLt

theorem differingBits_eq_zero {x y : NodeId} : differingBits x y = 0 ↔ x.bytes = y.bytes := by
  rw [differingBits_eq_size, Nat.size_eq_zero, xorDistance_eq_zero]

theorem nearer_iff {target x y : NodeId} : Nearer target x y ↔ differingBits target x < differingBits target y := by
  rw [differingBits_eq_size, differingBits_eq_size]
  constructor
  · rintro ⟨i, hy, hx⟩
    have hxle : (xorDistance target x).toNat.size ≤ i := by
      refine Nat.size_le.mpr (Nat.lt_pow_two_of_testBit _ fun j hj => ?_)
      rw [getLsbD_xorDistance]
      by_cases hj' : j < 256
      · simp [hx ⟨j, hj'⟩ hj]
      · simp [BitVec.getLsbD_of_ge _ j (Nat.not_lt.mp hj')]
    have hylt : i < (xorDistance target y).toNat.size := by
      refine Nat.lt_size.mpr (Nat.ge_two_pow_of_testBit ?_)
      rw [getLsbD_xorDistance]
      simpa using hy
    omega
  · intro h
    -- The bit is one of the xor of `y` at or above the length of the xor of `x`.
    obtain ⟨i, hi, hbit⟩ := Nat.exists_ge_and_testBit_of_ge_two_pow (Nat.lt_size.mp h)
    have hi' : i < 256 := by
      refine Nat.lt_of_not_le fun hge => ?_
      rw [Nat.testBit_lt_two_pow ((xorDistance target y).isLt.trans_le (Nat.pow_le_pow_right (by decide) hge))] at hbit
      cases hbit
    refine ⟨⟨i, hi'⟩, ?_, fun j hj => ?_⟩
    · rw [getLsbD_xorDistance] at hbit
      simpa using hbit
    · have hlow : (xorDistance target x).toNat < 2 ^ (j : Nat) :=
        Nat.size_le.mp (hi.trans hj)
      have hzero := Nat.testBit_lt_two_pow hlow
      rw [getLsbD_xorDistance] at hzero
      simpa using hzero

instance (target x y : NodeId) : Decidable (Nearer target x y) := decidable_of_iff _ nearer_iff.symm

/-! ## What the loop computes -/

theorem leadingZeros_of_ne_zero {byte : UInt8} (h : byte ≠ 0) : leadingZeros byte + byte.toNat.size = 8 := by
  have hne : byte.toNat ≠ 0 := fun heq => h (UInt8.toNat_inj.mp heq)
  have hlt : byte.toNat.log2 < 8 := (Nat.log2_lt hne).mpr byte.toNat_lt
  rw [leadingZeros, if_neg h, size_of_ne_zero hne]
  omega

def bigEndian (n v : Nat) : List UInt8 := (List.range n).map fun i => UInt8.ofNat (v >>> (8 * (n - 1 - i)))

theorem bigEndian_succ (n v : Nat) : bigEndian (n + 1) v = UInt8.ofNat (v >>> (8 * n)) :: bigEndian n v := by
  rw [bigEndian, List.range_succ_eq_map, List.map_cons, List.map_map]
  refine congrArg₂ _ (by simp) (List.map_congr_left fun i hi => ?_)
  have : n + 1 - 1 - (i + 1) = n - 1 - i := by omega
  simp only [Function.comp_apply, this]

theorem size_eq_shiftRight {v n : Nat} (h : v >>> n ≠ 0) : v.size = n + (v >>> n).size := by
  rw [Nat.shiftRight_eq_div_pow] at h ⊢
  have hpos : 0 < 2 ^ n := Nat.two_pow_pos n
  refine Nat.le_antisymm (Nat.size_le.mpr ?_) ?_
  · rw [Nat.pow_add]
    have := (Nat.div_lt_iff_lt_mul hpos).mp (Nat.lt_size_self (v / 2 ^ n))
    rwa [Nat.mul_comm] at this
  · obtain ⟨k, hk⟩ := Nat.exists_eq_add_of_lt (Nat.size_pos.mpr (Nat.pos_of_ne_zero h))
    have hle : 2 ^ k ≤ v / 2 ^ n := Nat.lt_size.mp (by omega)
    have : n + k < v.size := by
      rw [Nat.lt_size, Nat.pow_add, Nat.mul_comm]
      exact (Nat.le_div_iff_mul_le hpos).mp hle
    omega

theorem firstDifference_bigEndian (n i v : Nat) (hv : v < 2 ^ (8 * n)) :
    firstDifference i (bigEndian n v) = if v = 0 then 0 else 8 * (i + n) - v.size := by
  induction n generalizing i with
  | zero =>
    obtain rfl : v = 0 := by simpa using hv
    rfl
  | succ n ih =>
    have hbyte : v >>> (8 * n) < 256 := by
      rw [Nat.shiftRight_eq_div_pow, Nat.div_lt_iff_lt_mul (Nat.two_pow_pos _)]
      rwa [Nat.mul_add, Nat.pow_add, Nat.mul_comm] at hv
    have hofNat : (UInt8.ofNat (v >>> (8 * n))).toNat = v >>> (8 * n) := UInt8.toNat_ofNat_of_lt' hbyte
    rw [bigEndian_succ, firstDifference]
    by_cases h : v >>> (8 * n) = 0
    · have hlow : v < 2 ^ (8 * n) := by
        rwa [Nat.shiftRight_eq_div_pow, Nat.div_eq_zero_iff_lt (Nat.two_pow_pos _)] at h
      rw [h, if_neg (by simp), ih (i + 1) hlow]
      have : 8 * (i + 1 + n) = 8 * (i + (n + 1)) := by omega
      rw [this]
    · have hne : UInt8.ofNat (v >>> (8 * n)) ≠ 0 := fun heq => h (hofNat.symm.trans (congrArg UInt8.toNat heq))
      have hv0 : v ≠ 0 := by
        rintro rfl
        exact h (Nat.zero_shiftRight _)
      have hzeros := leadingZeros_of_ne_zero hne
      rw [hofNat] at hzeros
      rw [if_pos hne, if_neg hv0, size_eq_shiftRight h]
      omega

theorem kademliaDistance_eq (x y : NodeId) :
    kademliaDistance x y = if x.bytes = y.bytes then 0 else 256 - differingBits x y := by
  have h := firstDifference_bigEndian 32 0 (xorDistance x y).toNat (xorDistance x y).isLt
  rw [differingBits_eq_size]
  simp only [xorDistance_eq_zero] at h
  exact h

end NodeId

end SovereignNetwork.Dht
