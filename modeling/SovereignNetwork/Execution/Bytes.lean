import Mathlib.Data.Nat.Bitwise
import SovereignNetwork.Execution.Contracts

/-!
# Byte strings determine what they encode
-/

namespace SovereignNetwork

/-! ## Arrays and integers -/

@[simp] theorem Bytes.length_asSlice {n : Nat} (b : Bytes n) : b.asSlice.length = n := by
  simp [Bytes.asSlice]

theorem Bytes.asSlice_inj {n : Nat} {b b' : Bytes n} (h : b.asSlice = b'.asSlice) : b = b' := by
  refine BitVec.eq_of_toNat_eq (Nat.eq_of_testBit_eq fun i => ?_)
  by_cases hi : i < 8 * n
  · -- Bit `i` is bit `i % 8` of the byte that is `i / 8` from the end.
    have hj : n - 1 - i / 8 < n := by omega
    have hshift : 8 * (n - 1 - (n - 1 - i / 8)) = 8 * (i / 8) := by omega
    have hbyte : UInt8.ofNat (b.toNat >>> (8 * (i / 8))) = UInt8.ofNat (b'.toNat >>> (8 * (i / 8))) := by
      have hget := congrArg (·[n - 1 - i / 8]?) h
      simpa [Bytes.asSlice, hj, hshift] using hget
    have hbit := congrArg (fun u => u.toNat.testBit (i % 8)) hbyte
    have hlt : i % 8 < 8 := Nat.mod_lt _ (by decide)
    have hsum : 8 * (i / 8) + i % 8 = i := Nat.div_add_mod i 8
    simpa [Nat.testBit_shiftRight, hsum, Nat.testBit_mod_two_pow _ 8, hlt] using hbit
  · have hzero : ∀ v : Bytes n, v.toNat.testBit i = false := fun v =>
      Nat.testBit_lt_two_pow (v.isLt.trans_le (Nat.pow_le_pow_right (by decide) (by omega)))
    rw [hzero, hzero]

@[simp] theorem length_toBeBytes (n x : Nat) : (toBeBytes n x).length = n := Bytes.length_asSlice _

theorem toBeBytes_inj {n x y : Nat} (hx : x < 2 ^ (8 * n)) (hy : y < 2 ^ (8 * n)) (h : toBeBytes n x = toBeBytes n y) :
    x = y := by
  have hbits := congrArg BitVec.toNat (Bytes.asSlice_inj h)
  simpa [Nat.mod_eq_of_lt hx, Nat.mod_eq_of_lt hy] using hbits

namespace Execution

theorem hashBytes_inj {h h' : Hash} (heq : hashBytes h = hashBytes h') : h = h' := Bytes.asSlice_inj heq

theorem length_hashBytes (h : Hash) : (hashBytes h).length = 32 := Bytes.length_asSlice h

/-! ## Texts -/

theorem byteArray_toList_loop (bytes : ByteArray) (i : Nat) (done : List UInt8) :
    ByteArray.toList.loop bytes i done = done.reverse ++ bytes.data.toList.drop i := by
  fun_induction ByteArray.toList.loop bytes i done with
  | case1 i done hi ih =>
    have hlength : i < bytes.data.toList.length := hi
    rw [ih, List.drop_eq_getElem_cons hlength]
    simp [ByteArray.get!, getElem!_pos bytes.data i hi]
  | case2 i done hi =>
    have hlength : bytes.data.toList.length ≤ i := Nat.not_lt.mp hi
    rw [List.drop_eq_nil_of_le hlength, List.append_nil]

theorem bytesOf_inj {s t : String} (h : bytesOf s = bytesOf t) : s = t := by
  unfold bytesOf ByteArray.toList at h
  rw [byteArray_toList_loop, byteArray_toList_loop] at h
  exact String.toByteArray_inj.mp (ByteArray.ext (Array.toList_inj.mp h))

theorem bytesOf_append (s t : String) : bytesOf (s ++ t) = bytesOf s ++ bytesOf t := by
  unfold bytesOf ByteArray.toList
  rw [byteArray_toList_loop, byteArray_toList_loop, byteArray_toList_loop]
  simp

theorem length_bytesOf (s : String) : (bytesOf s).length = s.utf8ByteSize := by
  unfold bytesOf ByteArray.toList
  rw [byteArray_toList_loop]
  rfl

theorem digitChar_inj {m n : Nat} (hm : m < 16) (hn : n < 16) (h : Nat.digitChar m = Nat.digitChar n) : m = n := by
  have hall : ∀ i : Fin 16, ∀ j : Fin 16, Nat.digitChar i = Nat.digitChar j → i = j := by decide
  exact congrArg Fin.val (hall ⟨m, hm⟩ ⟨n, hn⟩ h)

theorem hexEncode_inj {bytes bytes' : List UInt8} (h : hexEncode bytes = hexEncode bytes') : bytes = bytes' := by
  replace h := String.ofList_injective h
  induction bytes generalizing bytes' with
  | nil =>
    cases bytes' with
    | nil => rfl
    | cons b bytes' => simp at h
  | cons b bytes ih =>
    cases bytes' with
    | nil => simp at h
    | cons b' bytes' =>
      simp only [List.flatMap_cons, List.cons_append, List.nil_append, List.cons.injEq] at h
      obtain ⟨hhigh, hlow, hrest⟩ := h
      have hb := b.toNat_lt
      have hb' := b'.toNat_lt
      have hhigh := digitChar_inj (by omega) (by omega) hhigh
      have hlow := digitChar_inj (by omega) (by omega) hlow
      rw [UInt8.toNat_inj.mp (by omega : b.toNat = b'.toNat), ih hrest]

end Execution

end SovereignNetwork
