import SphereMotion.Projection

namespace SphereMotion

open Scalar

variable {α : Type} [Scalar α]

namespace PixelTranslation

/-- Adds the motion vector to every point. -/
def move (g : Grid (Vec2 α)) (motion : Vec2 α) : Grid (Vec2 α) :=
  if motion.isZero then g else g.translated motion

def vectorFor (position shifted : Vec2 α) : Vec2 α := shifted - position

end PixelTranslation

/-- Translation in space: every direction is moved by the displacement that takes the direction of the block
center to that of the center moved within the picture. -/
structure SpatialTranslation (α : Type) [Scalar α] where
  projection : Projection α

namespace SpatialTranslation

def offset (m : SpatialTranslation α) (motion center : Vec2 α) : Vec3 α :=
  m.projection.unproject (center + motion) - m.projection.unproject center

def move (m : SpatialTranslation α) (g : Grid (Vec2 α)) (motion center : Vec2 α) : Grid (Vec2 α) :=
  if motion.isZero then g else
    let offset := m.offset motion center
    m.projection.projectGrid ((m.projection.unprojectGrid g).map (· + offset))

/-- The direction of the shifted point gives the moved point up to a factor `l > 0`. It is chosen so that the
moved center `l * q + w` lies on the sphere, `q` being that direction and `w` the displacement from the position
to the center. -/
def vectorFor (m : SpatialTranslation α) (position shifted center : Vec2 α) : Vec2 α :=
  let q := m.projection.unproject shifted
  let w := m.projection.unproject center - m.projection.unproject position
  let qw := q.dot w
  let l := -qw + sqrt (qw * qw - w.normSquared + 1)
  m.projection.project (q.scale l + w) - center

end SpatialTranslation

end SphereMotion
