/-
# Camera.Mat4 -- the flat 3x3 and 4x4 arithmetic of mat4.c

Matrices are the flat row-major arrays of the source, `float m[16]` and `float r[9]`,
with rows acting from the left and the translation in the last row (`m[12..14]`).
Every sum is accumulated in the order of the source's loops, so the definitions
hold over any `float`, one with rounding included.
-/
import Mathlib.Data.Fin.VecNotation
import SpnavBridge.Theory.CNumber

namespace SpnavBridge.Camera

open SpnavBridge.Theory

set_option autoImplicit false

abbrev Vec3 (F : Type) := Fin 3 → F
abbrev Mat3 (F : Type) := Fin 9 → F
abbrev Mat4 (F : Type) := Fin 16 → F

/-! ## Indices -/

/-- `i * 4 + j` -/
def ix4 (i j : Fin 4) : Fin 16 := ⟨i.val * 4 + j.val, by omega⟩

/-- `i * 3 + j` -/
def ix3 (i j : Fin 3) : Fin 9 := ⟨i.val * 3 + j.val, by omega⟩

def row4 (p : Fin 16) : Fin 4 := ⟨p.val / 4, by omega⟩
def col4 (p : Fin 16) : Fin 4 := ⟨p.val % 4, by omega⟩
def row3 (p : Fin 9) : Fin 3 := ⟨p.val / 3, by omega⟩
def col3 (p : Fin 9) : Fin 3 := ⟨p.val % 3, by omega⟩

theorem ix4_row4_col4 (p : Fin 16) : ix4 (row4 p) (col4 p) = p := by
  apply Fin.ext
  simp only [ix4, row4, col4]
  omega

theorem ix3_row3_col3 (p : Fin 9) : ix3 (row3 p) (col3 p) = p := by
  apply Fin.ext
  simp only [ix3, row3, col3]
  omega

variable {F : Type} [CFloat F]

/-! ## Products -/

def mat4Identity : Mat4 F := fun p =>
  if p = 0 ∨ p = 5 ∨ p = 10 ∨ p = 15 then CFloat.lit 1 else CFloat.lit 0

def mat4Mul (a b : Mat4 F) : Mat4 F := fun p =>
  (List.finRange 4).foldl (fun sum k => sum + a (ix4 (row4 p) k) * b (ix4 k (col4 p)))
    (CFloat.lit 0)

def mat3Mul (a b : Mat3 F) : Mat3 F := fun p =>
  (List.finRange 3).foldl (fun sum k => sum + a (ix3 (row3 p) k) * b (ix3 k (col3 p)))
    (CFloat.lit 0)

def mat3Transpose (m : Mat3 F) : Mat3 F := fun p => m (ix3 (col3 p) (row3 p))

/-! ## Gram-Schmidt -/

def vdot (a b : Vec3 F) : F := a 0 * b 0 + a 1 * b 1 + a 2 * b 2

def vnormalize (v : Vec3 F) : Vec3 F :=
  let len := CFloat.sqrt (vdot v v)
  if CFloat.lt (CFloat.lit (1 / 100000000)) len then fun i => v i / len else v

/-- `r[i] -= d * q[i]` -/
def vsubScaled (r : Vec3 F) (d : F) (q : Vec3 F) : Vec3 F := fun i => r i - d * q i

/-- Row `i` of a 3x3 array. -/
def mat3Row (r : Mat3 F) (i : Fin 3) : Vec3 F := fun j => r (ix3 i j)

/-- Orthonormalize the rows, in order.  `r2` loses its `r0` part before the
coefficient of its `r1` part is taken. -/
def gramSchmidt3 (r : Mat3 F) : Mat3 F :=
  let r0 := vnormalize (mat3Row r 0)
  let r1 := mat3Row r 1
  let r1 := vnormalize (vsubScaled r1 (vdot r1 r0) r0)
  let r2 := mat3Row r 2
  let r2 := vsubScaled r2 (vdot r2 r0) r0
  let r2 := vnormalize (vsubScaled r2 (vdot r2 r1) r1)
  fun p => ![r0, r1, r2] (row3 p) (col3 p)

/-- The orthonormalized transpose of the upper-left 3x3 block. -/
def mat4ExtractOrthonormalRotation (affine : Mat4 F) : Mat3 F :=
  gramSchmidt3 fun p => affine (ix4 ((col3 p).castSucc) ((row3 p).castSucc))

/-! ## Constructors -/

/-- `Rx(a) * Ry(b) * Rz(c)` for angles in degrees. -/
def mat3FromEulerXyzDeg (ax ay az : F) : Mat3 F :=
  let a := ax * CFloat.pi / CFloat.lit 180
  let b := ay * CFloat.pi / CFloat.lit 180
  let c := az * CFloat.pi / CFloat.lit 180
  let ca := CFloat.cos a
  let sa := CFloat.sin a
  let cb := CFloat.cos b
  let sb := CFloat.sin b
  let cc := CFloat.cos c
  let sc := CFloat.sin c
  let zero : F := CFloat.lit 0
  let one : F := CFloat.lit 1
  let rx : Mat3 F := ![one, zero, zero, zero, ca, -sa, zero, sa, ca]
  let ry : Mat3 F := ![cb, zero, sb, zero, one, zero, -sb, zero, cb]
  let rz : Mat3 F := ![cc, -sc, zero, sc, cc, zero, zero, zero, one]
  mat3Mul (mat3Mul rx ry) rz

def mat4FromRot3 (r : Mat3 F) : Mat4 F := fun p =>
  if block : (row4 p).val < 3 ∧ (col4 p).val < 3 then
    r (ix3 ⟨(row4 p).val, block.1⟩ ⟨(col4 p).val, block.2⟩)
  else mat4Identity p

def mat4FromTranslationRow (tx ty tz : F) : Mat4 F := fun p =>
  if p = 12 then tx else if p = 13 then ty else if p = 14 then tz else mat4Identity p

end SpnavBridge.Camera
