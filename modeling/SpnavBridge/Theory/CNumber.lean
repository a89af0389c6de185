/-
# Theory.CNumber -- C's `float` and `double`, as the operations a program applies to them

A program that computes with `float` and `double` is modelled over two types that
carry the operations it uses: `CFloat F` for `float` arithmetic and the functions of
`<math.h>`, `CDouble D F` for `double` and the conversions between the two.  A result
about the program is then about every arithmetic: IEEE binary32, exact reals, or a
type that a concrete run can be computed in.

Constants of the source are given by the decimal that is written there (`lit`);
which value a decimal denotes is up to the arithmetic.
-/
import Mathlib.Algebra.Order.Ring.Rat
import Mathlib.Data.Rat.Sqrt

namespace SpnavBridge.Theory

set_option autoImplicit false

/-- `float`: the arithmetic, the decimal constants and `<math.h>`. -/
class CFloat (F : Type) extends Add F, Sub F, Mul F, Div F, Neg F where
  lit : ℚ → F
  ofInt : Int → F
  /-- `(float)M_PI` -/
  pi : F
  sqrt : F → F
  sin : F → F
  cos : F → F
  lt : F → F → Bool
  isfinite : F → Bool

/-- `double`, with the conversions from and to `float`. -/
class CDouble (D : Type) (F : outParam Type) where
  lit : ℚ → D
  lt : D → D → Bool
  /-- `(int)d` -/
  toInt : D → Int
  /-- `d != 0` -/
  nonzero : D → Bool
  /-- `(float)d` -/
  narrow : D → F
  /-- `(double)f` -/
  widen : F → D

/-! ## Rational arithmetic -/

/-- Exact but for the roots and the angles: `sqrt` is right on squares, `sin` and `cos`
are of first order. -/
instance : CFloat ℚ where
  lit q := q
  ofInt n := n
  pi := 355 / 113
  sqrt := Rat.sqrt
  sin x := x
  cos _ := 1
  lt x y := decide (x < y)
  isfinite _ := true

instance : CDouble ℚ ℚ where
  lit q := q
  lt x y := decide (x < y)
  toInt q := q.num.tdiv q.den
  nonzero q := q ≠ 0
  narrow q := q
  widen q := q

end SpnavBridge.Theory
