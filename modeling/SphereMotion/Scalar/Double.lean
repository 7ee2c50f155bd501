import SphereMotion.Scalar

namespace SphereMotion

/-- An IEEE double. Arithmetic knows one undefined value only; doubles that are given by their bits can hold
others, which no operation but a comparison of bits tells apart. -/
structure Double where
  value : Float
  /-- The bits in which an undefined value differs from the one that arithmetic gives, and zero for every
  other double. -/
  payload : UInt64 := 0
  deriving Inhabited

namespace Double

open Float.Model

@[inline] def ofFloat (x : Float) : Double := { value := x }

def ofBits (bits : UInt64) : Double := ⟨Float.ofBits bits, bits ^^^ (Float.ofBits bits).toBits⟩

def toBits (x : Double) : UInt64 := x.payload ^^^ x.value.toBits

@[simp] theorem toBits_ofBits (bits : UInt64) : (ofBits bits).toBits = bits := by
  change (bits ^^^ (Float.ofBits bits).toBits) ^^^ (Float.ofBits bits).toBits = bits
  rw [UInt64.xor_assoc, UInt64.xor_self, UInt64.xor_zero]

def same (x y : Double) : Bool := x.value.toBits == y.value.toBits && x.payload == y.payload

theorem eq_of_same {x y : Double} (alike : x.same y = true) : x = y := by
  obtain ⟨⟨⟨a, _⟩⟩, p⟩ := x
  obtain ⟨⟨⟨b, _⟩⟩, q⟩ := y
  have bits : (a == b && p == q) = true := alike
  rw [Bool.and_eq_true, beq_iff_eq, beq_iff_eq] at bits
  obtain ⟨rfl, rfl⟩ := bits
  rfl

@[simp] theorem same_self (x : Double) : x.same x = true := by simp [same]

theorem same_ofBits (bits bits' : UInt64) : (ofBits bits).same (ofBits bits') = true ↔ bits = bits' := by
  refine ⟨fun alike => ?_, fun equal => equal ▸ same_self _⟩
  rw [← toBits_ofBits bits, eq_of_same alike, toBits_ofBits]

/-- The whole number nearest to `m * 2 ^ e`, a half going up. -/
def nearestNat (m : Nat) (e : Int) : Nat :=
  if 0 ≤ e then m <<< e.toNat else (2 * m + (1 <<< (-e).toNat)) >>> (1 - e).toNat

/-- Rounds a double exactly, from its sign, mantissa and exponent. -/
def nearest (x : Double) : Nearest :=
  match x.value.toModel.unpack with
  | .notANumber => .undefined
  | .infinity .negative => .below
  | .infinity .positive => .above
  | .zero _ => .whole 0
  | .finite .negative m e _ => .whole (-nearestNat m e)
  | .finite .positive m e _ => .whole (nearestNat m e)

/-- The remainder of the magnitudes `m * 2 ^ e` and `n * 2 ^ d`, as a mantissa for the smaller of the two
exponents. -/
def remNat (m : Nat) (e : Int) (n : Nat) (d : Int) : Nat :=
  (m <<< (e - min e d).toNat) % (n <<< (d - min e d).toNat)

def undefined : Double := ofFloat (0.0 / 0.0)

/-- The exact remainder of a truncated division, with the sign of the dividend. It is a multiple of the unit
in the last place of one operand and smaller than both, hence always a double. -/
def rem (x y : Double) : Double :=
  match x.value.toModel.unpack, y.value.toModel.unpack with
  | .notANumber, _ | _, .notANumber | .infinity _, _ | _, .zero _ => undefined
  | .zero _, _ | _, .infinity _ => x
  | .finite s m e _, .finite _ n d _ =>
    ofFloat (Float.ofModel (pack (.normalize .binary64 (s.apply (remNat m e n d)) (min e d) s)))

@[inline] def lift (f : Float → Float) (x : Double) : Double := ofFloat (f x.value)

@[inline] def lift₂ (f : Float → Float → Float) (x y : Double) : Double := ofFloat (f x.value y.value)

end Double

instance : Scalar Double where
  add x y := Double.lift₂ (· + ·) x y
  sub x y := Double.lift₂ (· - ·) x y
  mul x y := Double.lift₂ (· * ·) x y
  div x y := Double.lift₂ (· / ·) x y
  neg x := Double.lift (-·) x
  beq x y := x.value == y.value
  lt x y := x.value < y.value
  le x y := x.value ≤ y.value
  decideLT x y := Float.decLt x.value y.value
  decideLE x y := Float.decLe x.value y.value
  ofInt n := Double.ofFloat (Float.ofInt n)
  undefined := Double.undefined
  pi := Double.ofFloat 3.141592653589793
  sqrt x := Double.lift Float.sqrt x
  exp x := Double.lift Float.exp x
  log x := Double.lift Float.log x
  sin x := Double.lift Float.sin x
  cos x := Double.lift Float.cos x
  tan x := Double.lift Float.tan x
  asin x := Double.lift Float.asin x
  acos x := Double.lift Float.acos x
  atan x := Double.lift Float.atan x
  atan2 x y := Double.lift₂ Float.atan2 x y
  rem := Double.rem
  nearest := Double.nearest
  same := Double.same

end SphereMotion
