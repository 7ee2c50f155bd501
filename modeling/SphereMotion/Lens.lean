import SphereMotion.SampledTable

namespace SphereMotion

open Scalar

variable {α : Type} [Scalar α]

/-- A fisheye lens measured by a polynomial that gives the image radius for the polar angle. Both directions
are read from a table of the polynomial. -/
structure CalibratedLens (α : Type) [Scalar α] where
  constant : α
  linear : α
  higher : List α
  table : SampledTable α
  linear_pos : 0 < linear

namespace CalibratedLens

/-- The largest polar angle in the table, 100°. -/
def maxAngle : α := pi / 2 + pi / 18

/-- The number of samples taken unless a caller asks for another. -/
def defaultSamples : Nat := 1000000

/-- The linear coefficient is the focal length and has to be positive. -/
def build (coefficients : List α) (samples : Nat) : Except Fault (CalibratedLens α) :=
  match coefficients with
  | constant :: linear :: higher =>
    if positive : 0 < linear then do
      let table ← SampledTable.sample 0 maxAngle samples (polynomial coefficients)
      .ok ⟨constant, linear, higher, table, positive⟩
    else .error .linearCoefficient
  | _ => .error .linearCoefficient

def coefficients (lens : CalibratedLens α) : List α := lens.constant :: lens.linear :: lens.higher

end CalibratedLens

/-- How the image radius of a rotationally symmetric lens follows from the polar angle to its optical axis. -/
inductive Lens (α : Type) [Scalar α] where
  /-- The equisolid-angle fisheye `r = 2 f sin (θ / 2)`. -/
  | equisolid (focalLength : α)
  | calibrated (lens : CalibratedLens α)

namespace Lens

/-- The image radius in pixels of a polar angle that is not negative. -/
def radius : Lens α → α → α
  | equisolid f, angle => 2 * f * sin (angle / 2)
  | calibrated lens, angle => lens.table.lookup angle

/-- The polar angle of an image radius that is not negative, undefined outside an equisolid image circle. -/
def angle : Lens α → α → α
  | equisolid f, radius => 2 * asin (radius / (2 * f))
  | calibrated lens, radius => lens.table.inverseLookup radius

/-- Pixels per radian near the optical axis. -/
def focalLength : Lens α → α
  | equisolid f => f
  | calibrated lens => lens.linear

/-- The image radius of any polar angle; a calibrated lens refuses negative ones. -/
def checkedRadius (lens : Lens α) (angle : α) : Except Fault α :=
  match lens with
  | equisolid _ => .ok (lens.radius angle)
  | calibrated _ => if angle < 0 then .error .negativeAngle else .ok (lens.radius angle)

/-- The polar angle of any image radius; a calibrated lens refuses negative ones. -/
def checkedAngle (lens : Lens α) (radius : α) : Except Fault α :=
  match lens with
  | equisolid _ => .ok (lens.angle radius)
  | calibrated _ => if radius < 0 then .error .negativeRadius else .ok (lens.angle radius)

end Lens

end SphereMotion
