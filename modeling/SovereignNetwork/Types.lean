import Mathlib.Algebra.Ring.Nat
import Mathlib.Data.List.Basic

/-!
# Shared data types

Fixed-size byte arrays are bit vectors, most significant byte first, so that the order on numbers is
the lexicographic order on bytes. Machine integers are natural numbers with the wrap written out.
-/

namespace SovereignNetwork

/-- A byte array `[u8; n]`. -/
abbrev Bytes (n : Nat) := BitVec (8 * n)

def Bytes.asSlice {n : Nat} (b : Bytes n) : List UInt8 :=
  (List.range n).map fun i => UInt8.ofNat (b.toNat >>> (8 * (n - 1 - i)))

abbrev Hash := Bytes 32

instance : LawfulBEq Hash := inferInstance

/-- Decided over the listed pairs. Hashes are a finite type too, but one too large to go through. -/
instance (priority := high) (pairs : List (Hash × Hash)) (P : Hash × Hash → Prop) [DecidablePred P] :
    Decidable (∀ p ∈ pairs, P p) :=
  List.decidableBAll P pairs

abbrev IdentityId := Hash

/-- A Dilithium5 public key. -/
abbrev DilithiumPk := Bytes 2592

/-- Little-endian bytes of an integer of `n` bytes (`to_le_bytes`). -/
def toLeBytes (n : Nat) (x : Nat) : List UInt8 :=
  (List.range n).map fun i => UInt8.ofNat (x >>> (8 * i))

/-- Big-endian bytes of an integer of `n` bytes (`to_be_bytes`). -/
def toBeBytes (n x : Nat) : List UInt8 := Bytes.asSlice (BitVec.ofNat (8 * n) x)

/-- The number that the bytes spell, most significant first (`from_be_bytes`). -/
def fromBeBytes (bytes : List UInt8) : Nat := bytes.foldl (fun n b => n * 256 + b.toNat) 0

/-- `hex::encode`, two lower-case digits a byte. The crate documents its text for every input, so this is a definition
and not a parameter. -/
def hexEncode (bytes : List UInt8) : String :=
  String.ofList (bytes.flatMap fun b => [Nat.digitChar (b.toNat / 16), Nat.digitChar (b.toNat % 16)])

/-! ## Machine integers (a release build wraps on overflow) -/

def wrapU32 (x : Nat) : Nat := x % 2 ^ 32

def wrapU64 (x : Nat) : Nat := x % 2 ^ 64

def saturatingAddU32 (x y : Nat) : Nat := min (x + y) (2 ^ 32 - 1)

def saturatingAddU64 (x y : Nat) : Nat := min (x + y) (2 ^ 64 - 1)

def checkedAddU64 (x y : Nat) : Option Nat := if x + y < 2 ^ 64 then some (x + y) else none

def u128Max : Nat := 2 ^ 128 - 1

def wrapU128 (x : Nat) : Nat := x % 2 ^ 128

def checkedAddU128 (x y : Nat) : Option Nat := if x + y ≤ u128Max then some (x + y) else none

def checkedMulU128 (x y : Nat) : Option Nat := if x * y ≤ u128Max then some (x * y) else none

def checkedSub (x y : Nat) : Option Nat := if y ≤ x then some (x - y) else none

def checkedDiv (x y : Nat) : Option Nat := if y = 0 then none else some (x / y)

def saturatingAddU128 (x y : Nat) : Nat := min (x + y) u128Max

def saturatingMulU128 (x y : Nat) : Nat := min (x * y) u128Max

/-- A subtraction that borrows past zero wraps. -/
def wrappingSubU128 (x y : Nat) : Nat := wrapU128 (x + 2 ^ 128 - y)

section

variable {x y z : Nat}

theorem wrapU128_of_le (h : x ≤ u128Max) : wrapU128 x = x := Nat.mod_eq_of_lt (Nat.lt_of_le_of_lt h (by decide))

@[simp] theorem checkedAddU64_eq_some : checkedAddU64 x y = some z ↔ x + y < 2 ^ 64 ∧ x + y = z := by
  simp [checkedAddU64]

@[simp] theorem checkedAddU128_eq_some : checkedAddU128 x y = some z ↔ x + y ≤ u128Max ∧ x + y = z := by
  simp [checkedAddU128]

@[simp] theorem checkedMulU128_eq_some : checkedMulU128 x y = some z ↔ x * y ≤ u128Max ∧ x * y = z := by
  simp [checkedMulU128]

@[simp] theorem checkedSub_eq_some : checkedSub x y = some z ↔ y ≤ x ∧ x - y = z := by
  simp [checkedSub]

@[simp] theorem checkedDiv_eq_some : checkedDiv x y = some z ↔ y ≠ 0 ∧ x / y = z := by
  simp [checkedDiv]

end

end SovereignNetwork
