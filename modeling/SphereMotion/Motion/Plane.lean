import SphereMotion.Memo
import SphereMotion.Perspective

namespace SphereMotion

open Scalar

variable {α : Type} [Scalar α]

/-- A motion plane, named for the axis that it is perpendicular to. -/
inductive MotionPlane where
  | frontBack
  | leftRight
  | topBottom
  deriving DecidableEq, Repr

/-- The rotation that takes the viewing axis of the plane to `+x`. -/
def MotionPlane.rotation : MotionPlane → Mat3 α
  | frontBack => .identity
  | leftRight => ⟨⟨0, 1, 0⟩, ⟨-1, 0, 0⟩, ⟨0, 0, 1⟩⟩
  | topBottom => ⟨⟨0, 0, 1⟩, ⟨0, 1, 0⟩, ⟨-1, 0, 0⟩⟩

/-- Motion on a fixed plane. Directions are turned so that the viewing axis of the plane points forward, seen
by a pinhole camera, moved within its image and brought back. -/
structure PlaneMotion (α : Type) [Scalar α] where
  projection : Projection α
  plane : MotionPlane

namespace PlaneMotion

/-- The camera of the plane shares the focal length of the picture, so that a pixel spans the same angle near
either axis. -/
def perspective (m : PlaneMotion α) : Perspective α := ⟨m.projection.focalLength, .origin⟩

def turnIn (m : PlaneMotion α) (sphere : Grid (Vec3 α)) : Grid (Vec3 α) :=
  let rotation : Mat3 α := m.plane.rotation
  sphere.map rotation.apply

def turnOut (m : PlaneMotion α) (sphere : Grid (Vec3 α)) : Grid (Vec3 α) :=
  let rotation : Mat3 α := m.plane.rotation.transpose
  sphere.map rotation.apply

def toPlane (m : PlaneMotion α) (sphere : Grid (Vec3 α)) : Grid (PlanePoint α) :=
  m.perspective.projectGrid (m.turnIn sphere)

def toPlanePoint (m : PlaneMotion α) (v : Vec3 α) : PlanePoint α := m.perspective.project (m.plane.rotation.apply v)

def ofPlane (m : PlaneMotion α) (plane : Grid (PlanePoint α)) : Grid (Vec3 α) :=
  m.turnOut (m.perspective.unprojectGrid plane)

/-- Moves plane points and brings them back to the picture. -/
def moveOnPlane (m : PlaneMotion α) (plane : Grid (PlanePoint α)) (motion : Vec2 α) : Grid (Vec2 α) :=
  m.projection.projectGrid (m.ofPlane (plane.map (.translate motion)))

def move (m : PlaneMotion α) (g : Grid (Vec2 α)) (motion : Vec2 α) : Grid (Vec2 α) :=
  if motion.isZero then g else m.moveOnPlane (m.toPlane (m.projection.unprojectGrid g)) motion

def vectorFor (m : PlaneMotion α) (position shifted : Vec2 α) : Vec2 α :=
  let before := m.toPlanePoint (m.projection.unproject position)
  let after := m.toPlanePoint (m.projection.unproject shifted)
  (after.point - before.point).scale before.sign

/-- The motion with the camera of the plane replaced by a tabulated one. -/
def moveTabulated (m : PlaneMotion α) (camera : TabulatedPerspective α) (g : Grid (Vec2 α)) (motion : Vec2 α) :
    Grid (Vec2 α) :=
  if motion.isZero then g else
    let plane := camera.projectGrid (m.turnIn (m.projection.unprojectGrid g))
    m.projection.projectGrid (m.turnOut (camera.unprojectGrid (plane.map (.translate motion))))

end PlaneMotion

/-- The plane points of a whole picture, and those of the last block cut out of it. -/
structure PlaneCache (α : Type) where
  picture : Grid (PlanePoint α)
  block : Memo picture.window?

namespace PlaneCache

def seed (m : PlaneMotion α) (sphere : Grid (Vec3 α)) : PlaneCache α := ⟨m.toPlane sphere, .empty⟩

/-- The plane points of a window of the picture. -/
def fetch (cache : PlaneCache α) (window : Window) : Except Fault (Grid (PlanePoint α) × PlaneCache α) :=
  match cache.block.fetch (· == ·) window with
  | some (points, block) => .ok (points, { cache with block })
  | none => .error .windowOutsideGrid

end PlaneCache

/-- The motion of the block in a window of the picture, its plane points being taken from the cache. A zero
motion leaves block and cache as they are. -/
def PlaneMotion.moveCached (m : PlaneMotion α) (cache : PlaneCache α) (window : Window) (g : Grid (Vec2 α))
    (motion : Vec2 α) : Except Fault (Grid (Vec2 α) × PlaneCache α) :=
  if motion.isZero then .ok (g, cache) else do
    let (points, cache) ← cache.fetch window
    .ok (m.moveOnPlane points motion, cache)

end SphereMotion
