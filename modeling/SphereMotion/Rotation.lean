import SphereMotion.Vector

namespace SphereMotion.Mat3

open Scalar

variable {α : Type} [Scalar α]

def ofAxisAngle (axis : Vec3 α) (angle : α) : Mat3 α :=
  if angle == 0 then identity else
    let s := sin angle
    let c := cos angle
    let xx := axis.x * axis.x
    let yy := axis.y * axis.y
    let zz := axis.z * axis.z
    let xy := axis.x * axis.y * (1 - c)
    let xz := axis.x * axis.z * (1 - c)
    let yz := axis.y * axis.z * (1 - c)
    ⟨⟨xx + (1 - xx) * c, xy - axis.z * s, xz + axis.y * s⟩,
      ⟨xy + axis.z * s, yy + (1 - yy) * c, yz - axis.x * s⟩,
      ⟨xz - axis.y * s, yz + axis.x * s, zz + (1 - zz) * c⟩⟩

/-- The shortest rotation that takes the direction of `v` to the direction of `w`. It is the identity when one
of them has norm zero or when they differ by less than the rounding unit, and `none` when they oppose each
other, where the axis is not determined. -/
def rotationBetween (v w : Vec3 α) : Option (Mat3 α) :=
  if v.norm ≤ 0 then some identity
  else if w.norm ≤ 0 then some identity
  else
    let axis := v.normalize.cross w.normalize
    let cosine := v.normalize.dot w.normalize
    if epsilon * epsilon < axis.normSquared then some (ofAxisAngle axis.normalize (acos cosine))
    else if cosine < 0 then none
    else some identity

end SphereMotion.Mat3
