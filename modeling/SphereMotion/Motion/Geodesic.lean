import SphereMotion.Memo
import SphereMotion.Motion.EpipoleFrame
import SphereMotion.Projection

namespace SphereMotion

open Scalar

variable {α : Type} [Scalar α]

/-- How the horizontal motion advances polar angles. -/
inductive GeodesicFlavor where
  /-- By the same angle for every point. -/
  | linear
  /-- By the parallax flow, under which points near the pole move less. -/
  | modulated
  deriving DecidableEq, Repr

/-- A map of polar angles. -/
inductive Advance (α : Type) where
  | linear (delta : α)
  /-- The parallax flow `tan (θ' / 2) = exp k * tan (θ / 2)`. -/
  | parallax (k : α)

namespace Advance

def apply : Advance α → α → α
  | linear delta, angle => angle + delta
  | parallax k, angle => 2 * atan (exp k * tan (angle / 2))

/-- The parallax flow that takes one polar angle to another. It is undefined up to half a turn beyond a pole.
Further away the two tangents have the same sign again. -/
def parallaxBetween (start target : α) : Advance α := parallax (log (tan (target / 2) / tan (start / 2)))

end Advance

/-- Motion along great circles through an epipole. In its frame the horizontal component of a motion vector
changes polar angles and the vertical one azimuths. -/
structure Geodesic (α : Type) [Scalar α] where
  projection : Projection α
  flavor : GeodesicFlavor
  frame : EpipoleFrame α

namespace Geodesic

def build (projection : Projection α) (flavor : GeodesicFlavor) (epipole : Vec3 α) : Geodesic α :=
  ⟨projection, flavor, .ofEpipole epipole⟩

def setEpipole (m : Geodesic α) (epipole : Vec3 α) : Geodesic α := { m with frame := (m.frame.set epipole).1 }

/-- Whether a polar angle is within a pixel of the epipole or of its antipode. -/
def nearPole (m : Geodesic α) (angle : α) : Bool :=
  angle < m.projection.angleResolution || pi - m.projection.angleResolution < angle

/-- The advance from one polar angle to another. On a pole the parallax flow stands still, so from there the
advance is linear. -/
def advanceBetween (m : Geodesic α) (start target : α) : Advance α :=
  if m.nearPole start then .linear (target - start) else .parallaxBetween start target

/-- The polar angle of a planar point from the epipole. -/
def polarAngle (m : Geodesic α) (point : Vec2 α) : α := (m.frame.spherical (m.projection.unproject point)).polar

/-- The advance that a motion vector stands for in the block around `center`. -/
def advance (m : Geodesic α) (motion center : Vec2 α) : Advance α :=
  let delta := motion.x * m.projection.angleResolution
  match m.flavor with
  | .linear => .linear delta
  | .modulated => m.advanceBetween (m.polarAngle center) (m.polarAngle center + delta)

/-- Moves directions given in the frame of the epipole and projects them. -/
def moveRotated (m : Geodesic α) (rotated : Grid (Spherical α)) (motion center : Vec2 α) : Grid (Vec2 α) :=
  let advance := m.advance motion center
  let turn := motion.y * m.projection.angleResolution
  m.projection.projectGrid (rotated.map fun s => m.frame.direction (advance.apply s.polar) (s.azimuth + turn))

def move (m : Geodesic α) (g : Grid (Vec2 α)) (motion center : Vec2 α) : Grid (Vec2 α) :=
  if motion.isZero then g
  else m.moveRotated ((m.projection.unprojectGrid g).map m.frame.spherical) motion center

def vectorFor (m : Geodesic α) (position shifted center : Vec2 α) : Vec2 α :=
  let before := m.frame.spherical (m.projection.unproject position)
  let after := m.frame.spherical (m.projection.unproject shifted)
  let turn := wrapAngle (after.azimuth - before.azimuth)
  let delta := match m.flavor with
    | .linear => after.polar - before.polar
    | .modulated =>
      let start := m.polarAngle center
      if m.nearPole start then after.polar - before.polar
      else (m.advanceBetween before.polar after.polar).apply start - start
  Vec2.unscale ⟨delta, turn⟩ m.projection.angleResolution

end Geodesic

/-- The directions of a whole picture, and the last block of them seen from the epipole that it was asked
for. -/
structure GeodesicCache (α : Type) [Scalar α] where
  picture : Grid (Vec3 α)
  block : Memo fun key : Window × Vec3 α =>
    (picture.window? key.1).map fun g => let frame := EpipoleFrame.ofEpipole key.2; g.map frame.spherical

namespace GeodesicCache

def seed (sphere : Grid (Vec3 α)) : GeodesicCache α := ⟨sphere, .empty⟩

/-- The directions of a window of the picture in the frame of the epipole. -/
def fetch (cache : GeodesicCache α) (window : Window) (epipole : Vec3 α) :
    Except Fault (Grid (Spherical α) × GeodesicCache α) :=
  match cache.block.fetch (fun k l => k.1 == l.1 && k.2.same l.2) (window, epipole) with
  | some (rotated, block) => .ok (rotated, { cache with block })
  | none => .error .windowOutsideGrid

end GeodesicCache

/-- The motion of the block in a window of the picture, its directions being taken from the cache. A zero
motion leaves block and cache as they are. -/
def Geodesic.moveCached (m : Geodesic α) (cache : GeodesicCache α) (window : Window) (g : Grid (Vec2 α))
    (motion center : Vec2 α) : Except Fault (Grid (Vec2 α) × GeodesicCache α) :=
  if motion.isZero then .ok (g, cache) else do
    let (rotated, cache) ← cache.fetch window m.frame.epipole
    .ok (m.moveRotated rotated motion center, cache)

end SphereMotion
