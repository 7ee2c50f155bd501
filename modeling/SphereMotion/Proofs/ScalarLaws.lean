import Mathlib
import SphereMotion.Proofs.Binary64
import SphereMotion.Vector

namespace SphereMotion

open Scalar

/-- Scalars that are equal as soon as they are written alike. -/
class LawfulSame (α : Type) [Scalar α] : Prop where
  eq_of_same {x y : α} : Scalar.same x y = true → x = y

/-- Scalars whose differences take nothing but a sign from a factor of one or minus one. -/
class LawfulUnit (α : Type) [Scalar α] : Prop where
  sub_mul_one (x y : α) : (x - y) * 1 = x - y
  sub_mul_neg_one (x y : α) : (x - y) * -1 = -(x - y)

instance : LawfulSame Double := ⟨Double.eq_of_same⟩

instance : LawfulUnit Double where
  sub_mul_one x y := congrArg Double.ofFloat (Binary64.mul_one (x.value - y.value))
  sub_mul_neg_one x y := congrArg Double.ofFloat (Binary64.mul_neg_one (x.value - y.value))

variable {α : Type} [Scalar α]

theorem Vec3.eq_of_same [LawfulSame α] {v w : Vec3 α} (alike : v.same w = true) : v = w := by
  simp only [Vec3.same, Bool.and_eq_true] at alike
  exact Vec3.ext (LawfulSame.eq_of_same alike.1.1) (LawfulSame.eq_of_same alike.1.2) (LawfulSame.eq_of_same alike.2)

theorem Vec2.sub_scale_one [LawfulUnit α] (p q : Vec2 α) : (p - q).scale 1 = p - q :=
  Vec2.ext (LawfulUnit.sub_mul_one p.x q.x) (LawfulUnit.sub_mul_one p.y q.y)

theorem Vec2.sub_scale_neg_one [LawfulUnit α] (p q : Vec2 α) : (p - q).scale (-1) = -(p - q) :=
  Vec2.ext (LawfulUnit.sub_mul_neg_one p.x q.x) (LawfulUnit.sub_mul_neg_one p.y q.y)

end SphereMotion
