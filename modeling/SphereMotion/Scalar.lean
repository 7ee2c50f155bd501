namespace SphereMotion

/-- A scalar rounded to a whole number, a half going away from zero. A scalar without a nearest whole number
is undefined or lies beyond all of them. -/
inductive Nearest where
  | undefined
  | below
  | above
  | whole (n : Int)
  deriving DecidableEq, Repr

/-- The 32-bit word closest to the rounded value. The undefined value counts as zero. -/
def Nearest.toInt32 : Nearest → Int32
  | undefined => 0
  | below => Int32.minValue
  | above => Int32.maxValue
  | whole n => Int32.ofIntClamp n

def Nearest.toInt32? : Nearest → Option Int32
  | whole n => if Int32.minValue.toInt ≤ n ∧ n ≤ Int32.maxValue.toInt then some (Int32.ofInt n) else none
  | _ => none

def Nearest.toIndex (last : Nat) : Nearest → Nat
  | whole n => min n.toNat last
  | above => last
  | _ => 0

/-- The arithmetic that projections and motion models are written in. Comparisons with an undefined value
are false, and arithmetic on one is undefined again. -/
class Scalar (α : Type) extends Add α, Sub α, Mul α, Div α, Neg α, BEq α, LT α, LE α where
  decideLT : (x y : α) → Decidable (x < y)
  decideLE : (x y : α) → Decidable (x ≤ y)
  ofInt : Int → α
  undefined : α
  pi : α
  sqrt : α → α
  exp : α → α
  log : α → α
  sin : α → α
  cos : α → α
  tan : α → α
  asin : α → α
  acos : α → α
  atan : α → α
  /-- The angle of the point `(x, y)`, given as `atan2 y x`. -/
  atan2 : α → α → α
  /-- The remainder of a division truncated toward zero. -/
  rem : α → α → α
  nearest : α → Nearest
  /-- Whether two scalars are written alike. Unlike `==`, this tells zeros of different sign apart, and holds
  between undefined values if they are written alike. -/
  same : α → α → Bool

namespace Scalar

variable {α : Type} [Scalar α]

scoped instance instDecidableLT (x y : α) : Decidable (x < y) := decideLT x y

scoped instance instDecidableLE (x y : α) : Decidable (x ≤ y) := decideLE x y

scoped instance instOfNat {n : Nat} : OfNat α n := ⟨ofInt n⟩

/-- Only the undefined value differs from itself. -/
def isUndefined (x : α) : Bool := !(x == x)

/-- `x` limited to the range from `low` to `high`; the undefined value stays undefined. -/
def clamp (x low high : α) : α :=
  if x < low then low else if high < x then high else x

/-- The gap between one and the next larger double. -/
def epsilon : α := (1 : α) / ofInt (1 <<< 52 : Nat)

/-- The angle brought into `(-π, π]` by whole turns. -/
def wrapAngle (angle : α) : α :=
  let turn : α := 2 * pi
  let rest := rem angle turn
  if pi < rest then rest - turn else if rest ≤ -pi then rest + turn else rest

/-- The polynomial with the given coefficients, constant first, by Horner's rule. -/
def polynomial (coefficients : List α) (x : α) : α :=
  coefficients.foldr (fun coefficient value => value * x + coefficient) 0

end Scalar

end SphereMotion
