import SphereMotion.Projection

namespace SphereMotion

open Scalar

variable {α : Type} [Scalar α]

/-- The frame tangent to the sphere at a block center: `right` and `down` follow the axes of the picture and
`normal` is the direction of the center. -/
structure TangentFrame (α : Type) where
  right : Vec3 α
  down : Vec3 α
  normal : Vec3 α

namespace TangentFrame

/-- Orthonormalizes the differences to the neighbouring pixels at the right and below. Where the picture
around the center is degenerate, the axes have undefined entries. -/
def ofCenter (p : Projection α) (center : Vec2 α) : TangentFrame α :=
  let n := p.unproject center
  let dx := p.unproject (center + ⟨1, 0⟩) - n
  let dy := p.unproject (center + ⟨0, 1⟩) - n
  let right := (dx - n.scale (n.dot dx)).normalize
  let down := (dy - n.scale (n.dot dy) - right.scale (right.dot dy)).normalize
  ⟨right, down, n⟩

/-- The matrix with the axes as columns, from local to world coordinates. -/
def basis (f : TangentFrame α) : Mat3 α := .ofColumns f.right f.down f.normal

def toLocal (f : TangentFrame α) (v : Vec3 α) : Vec3 α := f.basis.transpose.apply v

def toWorld (f : TangentFrame α) (l : Vec3 α) : Vec3 α := f.basis.apply l

end TangentFrame

end SphereMotion
