import SphereMotion.Scalar

namespace SphereMotion.FixedPoint

variable {α : Type} [Scalar α]

/-- The value of one in a fixed-point number with `precision` fractional bits, kept in a signed 64-bit word:
at precision 63 it wraps to `-2 ^ 63`. -/
def scale (precision : Nat) : Int := Int.bmod (1 <<< precision : Nat) UInt64.size

/-- Reads a fixed-point number as the floor of its value plus a non-negative fraction. -/
def toScalar (value : Int32) (precision : Nat) : α :=
  let one := scale precision
  Scalar.ofInt (value.toInt / one) + Scalar.ofInt (value.toInt % one) / Scalar.ofInt one

/-- The scalar in units of the last fractional bit, rounded to a whole number of them. -/
def round (x : α) (precision : Nat) : Nearest := Scalar.nearest (x * Scalar.ofInt (scale precision))

/-- The fixed-point number nearest to a scalar, limited to 32 bits. -/
def ofScalar (x : α) (precision : Nat) : Int32 := (round x precision).toInt32

/-- The fixed-point number nearest to a scalar, if it is finite and fits 32 bits. -/
def ofScalar? (x : α) (precision : Nat) : Option Int32 := (round x precision).toInt32?

end SphereMotion.FixedPoint
