/-
# Theory.Bytes -- big-endian numbers, and bytes under a repeated key

* `fromBigEndian_bigEndian`: a number that fits its width is read back.
* `bigEndian_fromBigEndian`: bytes are written back as they were read.
* `xorCycle_xorCycle`: combining twice with the same key gives the bytes back.
-/
import Mathlib.Data.List.Basic
import Mathlib.Tactic.Common
import Mathlib.Tactic.Linarith
import Mathlib.Tactic.Positivity
import Mathlib.Tactic.Ring

namespace SpnavBridge.Theory

set_option autoImplicit false

/-- A fact about every byte, from the 256 cases. -/
theorem forall_byte {P : UInt8 → Prop} (all : ∀ n < 256, P (UInt8.ofNat n)) (b : UInt8) : P b := by
  simpa using all b.toNat b.toNat_lt

/-! ## Big-endian numbers -/

/-- The `width` low bytes of `n`, most significant first. -/
def bigEndian : Nat → Nat → List UInt8
  | 0, _ => []
  | width + 1, n => UInt8.ofNat (n / 256 ^ width) :: bigEndian width n

def fromBigEndian (bytes : List UInt8) : Nat := bytes.foldl (fun n b => n * 256 + b.toNat) 0

@[simp] theorem bigEndian_length (width n : Nat) : (bigEndian width n).length = width := by
  induction width with
  | zero => rfl
  | succ width ih => simp [bigEndian, ih]

theorem foldl_bigEndian (width n : Nat) : ∀ high : Nat,
    (bigEndian width n).foldl (fun n b => n * 256 + b.toNat) high =
      high * 256 ^ width + n % 256 ^ width := by
  induction width with
  | zero => intro high; simp [bigEndian, Nat.mod_one]
  | succ width ih =>
      intro high
      have digit : (UInt8.ofNat (n / 256 ^ width)).toNat = n / 256 ^ width % 256 := by simp
      rw [bigEndian, List.foldl_cons, ih, digit, Nat.pow_succ, Nat.mod_mul]
      ring

/-- **A number that fits is read back.** -/
theorem fromBigEndian_bigEndian {width n : Nat} (fits : n < 256 ^ width) :
    fromBigEndian (bigEndian width n) = n := by
  rw [fromBigEndian, foldl_bigEndian, Nat.mod_eq_of_lt fits, zero_mul, zero_add]

/-- Reading behind a front: the front is worth 256 for each byte read. -/
theorem foldl_fromBigEndian (bytes : List UInt8) : ∀ high : Nat,
    bytes.foldl (fun n b => n * 256 + b.toNat) high =
      high * 256 ^ bytes.length + fromBigEndian bytes := by
  induction bytes with
  | nil => intro high; simp [fromBigEndian]
  | cons b bytes ih =>
      intro high
      have read : fromBigEndian (b :: bytes) =
          (0 * 256 + b.toNat) * 256 ^ bytes.length + fromBigEndian bytes := ih (0 * 256 + b.toNat)
      rw [List.foldl_cons, ih, read, List.length_cons, pow_succ]
      ring

theorem fromBigEndian_cons (b : UInt8) (bytes : List UInt8) :
    fromBigEndian (b :: bytes) = b.toNat * 256 ^ bytes.length + fromBigEndian bytes := by
  rw [← foldl_fromBigEndian, fromBigEndian, List.foldl_cons, zero_mul, zero_add]

theorem fromBigEndian_lt (bytes : List UInt8) : fromBigEndian bytes < 256 ^ bytes.length := by
  induction bytes with
  | nil => simp [fromBigEndian]
  | cons b bytes ih =>
      have last := b.toNat_lt
      have room : (b.toNat + 1) * 256 ^ bytes.length ≤ 256 * 256 ^ bytes.length :=
        Nat.mul_le_mul_right _ (by omega)
      rw [fromBigEndian_cons, List.length_cons, pow_succ]
      linarith

/-- **Bytes are written back as they were read**, whatever is in front of them. -/
theorem bigEndian_fromBigEndian (bytes : List UInt8) : ∀ high : Nat,
    bigEndian bytes.length (high * 256 ^ bytes.length + fromBigEndian bytes) = bytes := by
  induction bytes with
  | nil => intro high; rfl
  | cons b bytes ih =>
      intro high
      have bound := fromBigEndian_lt bytes
      have value : high * 256 ^ (b :: bytes).length + fromBigEndian (b :: bytes) =
          (high * 256 + b.toNat) * 256 ^ bytes.length + fromBigEndian bytes := by
        rw [fromBigEndian_cons, List.length_cons, pow_succ]
        ring
      have digit : ((high * 256 + b.toNat) * 256 ^ bytes.length + fromBigEndian bytes) /
          256 ^ bytes.length = high * 256 + b.toNat := by
        rw [Nat.mul_comm, Nat.mul_add_div (by positivity), Nat.div_eq_of_lt bound, Nat.add_zero]
      have low : UInt8.ofNat (high * 256 + b.toNat) = b := by
        apply UInt8.toNat_inj.mp
        have last := b.toNat_lt
        rw [UInt8.toNat_ofNat']
        omega
      rw [value, List.length_cons, bigEndian, digit, ih, low]

/-! ## Keys -/

/-- Each byte combined with the byte of the key at its index, the key repeating. -/
def xorCycle (key bytes : List UInt8) : List UInt8 :=
  bytes.mapIdx fun i b => b ^^^ key.getD (i % key.length) 0

@[simp] theorem xorCycle_length (key bytes : List UInt8) :
    (xorCycle key bytes).length = bytes.length := by
  simp [xorCycle]

theorem xorCycle_xorCycle (key bytes : List UInt8) : xorCycle key (xorCycle key bytes) = bytes := by
  rw [xorCycle, xorCycle, List.mapIdx_mapIdx]
  refine (List.mapIdx_eq_iff.mpr fun i => ?_)
  cases bytes[i]? with
  | none => rfl
  | some b =>
      simp only [Option.map_some, Function.comp_apply, UInt8.xor_assoc, UInt8.xor_self,
        UInt8.xor_zero]

end SpnavBridge.Theory
