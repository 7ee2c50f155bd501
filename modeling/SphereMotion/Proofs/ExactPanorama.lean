import Mathlib
import SphereMotion.Proofs.ExactSphere
import SphereMotion.Proofs.Pointwise

namespace SphereMotion

open Scalar

theorem Projection.angleResolution_real {p : Projection Exact} {f : ℝ} (focal : p.focalLength = .real f)
    (nonzero : f ≠ 0) :
    p.angleResolution = .real (1 / f) := by
  rw [angleResolution, focal, Exact.ofNat_eq, Nat.cast_one, Exact.real_div nonzero]

namespace Exact

/-- The angles that the spherical coordinates of a direction consist of, if it does not point to a pole. -/
structure Angles (θ φ : ℝ) : Prop where
  polar : 0 < θ ∧ θ < Real.pi
  azimuth : φ ∈ Set.Ioc (-Real.pi) Real.pi

variable {θ φ : ℝ}

theorem toSpherical_direction (angles : Angles θ φ) :
    (Spherical.direction (real θ) (real φ)).toSpherical = ⟨real 1, real θ, real φ⟩ := by
  obtain ⟨⟨positive, below⟩, azimuth⟩ := angles
  have sine := Real.sin_pos_of_pos_of_lt_pi positive below
  rw [Vec3.direction_eq_ofAngles, Vec3.toSpherical_ofAngles ⟨positive.le, below.le⟩ azimuth, if_neg sine.ne']

section Panorama

variable {width height offset x y : ℝ}

theorem unproject_panorama (wide : width ≠ 0) (tall : height ≠ 0) :
    Panorama.unproject ⟨real width, real height, real offset⟩ ⟨real x, real y⟩ =
      Spherical.direction (real ((y + offset) / height * Real.pi))
        (real (-(x + offset) / width * 2 * Real.pi)) := by
  simp only [Panorama.unproject, Panorama.angles, real_add, real_neg, real_div wide, real_div tall, ofNat_eq, pi_eq,
    real_mul, Nat.cast_ofNat]
  rfl

/-- Positive azimuths lie beyond the right edge and come in a whole turn earlier. -/
theorem project_panorama_of_toSpherical {v : Vec3 Exact} {radius : Exact}
    (angles : v.toSpherical = ⟨radius, real θ, real φ⟩) :
    Panorama.project ⟨real width, real height, real offset⟩ v =
      ⟨real (-(if 0 < φ then φ - 2 * Real.pi else φ) / (2 * Real.pi) * width - offset),
        real (θ / Real.pi * height - offset)⟩ := by
  have turn : (2 * Real.pi : ℝ) ≠ 0 := by positivity
  have azimuth : (if (0 : Exact) < real φ then real φ - 2 * Scalar.pi else real φ) =
      real (if 0 < φ then φ - 2 * Real.pi else φ) := by
    by_cases beyond : 0 < φ
    · rw [if_pos (zero_lt_real.mpr beyond), if_pos beyond]
      simp only [ofNat_eq, pi_eq, real_mul, real_sub, Nat.cast_ofNat]
    · rw [if_neg (mt zero_lt_real.mp beyond), if_neg beyond]
  rw [Panorama.project, angles, Panorama.place]
  simp only [azimuth]
  simp only [real_neg, ofNat_eq, pi_eq, real_mul, real_sub, Nat.cast_ofNat, real_div turn, real_div Real.pi_ne_zero]

theorem project_panorama (angles : Angles θ φ) (west : φ ≤ 0) :
    Panorama.project ⟨real width, real height, real offset⟩ (Spherical.direction (real θ) (real φ)) =
      ⟨real (-φ / (2 * Real.pi) * width - offset), real (θ / Real.pi * height - offset)⟩ := by
  rw [project_panorama_of_toSpherical (toSpherical_direction angles), if_neg (not_lt.mpr west)]

theorem focalLength_panorama :
    (Projection.panorama ⟨real width, real height, real offset⟩).focalLength = real (width / (2 * Real.pi)) := by
  simp only [Projection.focalLength, two_eq, pi_eq, real_mul, real_div Real.two_pi_pos.ne']

theorem angleResolution_panorama (wide : width ≠ 0) :
    (Projection.panorama ⟨real width, real height, real offset⟩).angleResolution =
      real (2 * Real.pi / width) := by
  rw [Projection.angleResolution_real focalLength_panorama (div_ne_zero wide Real.two_pi_pos.ne'), one_div_div]

end Panorama

theorem identity_apply (v : Vec3 ℝ) : Mat3.identity.apply v.exact = v.exact := by
  apply Vec3.ext <;> simp [Mat3.identity, Mat3.apply, Vec3.dot, Vec3.unitX, Vec3.unitY, Vec3.unitZ, Vec3.exact]

theorem rotation_zero : (EpipoleFrame.ofEpipole (.zero : Vec3 Exact)).rotation = .identity := by
  refine if_pos ?_
  simp [Vec3.normSquared, Vec3.dot, Vec3.zero]

theorem spherical_zero (angles : Angles θ φ) :
    (EpipoleFrame.ofEpipole .zero).spherical (Spherical.direction (real θ) (real φ)) =
      ⟨real 1, real θ, real φ⟩ := by
  rw [EpipoleFrame.spherical, rotation_zero, Vec3.direction_eq_ofAngles, identity_apply,
    ← Vec3.direction_eq_ofAngles, toSpherical_direction angles]

theorem direction_zero (θ φ : ℝ) : (EpipoleFrame.ofEpipole .zero).direction (real θ) (real φ) =
    Spherical.direction (real θ) (real φ) := by
  have transposed : Mat3.transpose (.identity : Mat3 Exact) = .identity := rfl
  rw [EpipoleFrame.direction, rotation_zero, transposed, Vec3.direction_eq_ofAngles, identity_apply]

end Exact

/-- A point is moved along the great circles through the epipole. -/
theorem Geodesic.movePoint_eq {α : Type} [Scalar α] [LawfulSub α] (m : Geodesic α) {motion : Vec2 α}
    (moves : motion.isZero = false) (position center : Vec2 α) :
    let s := m.frame.spherical (m.projection.unproject position)
    (MotionModel.geodesic m).movePoint position motion center =
      m.projection.project (m.frame.direction ((m.advance motion center).apply s.polar)
        (s.azimuth + motion.y * m.projection.angleResolution)) := by
  intro s
  refine MotionModel.movePoint_eq_project (f := fun v => m.frame.direction
    ((m.advance motion center).apply (m.frame.spherical v).polar)
    ((m.frame.spherical v).azimuth + motion.y * m.projection.angleResolution)) (fun g => ?_) position
  rw [MotionModel.move, move, moves, if_neg Bool.false_ne_true, moveRotated, Grid.map_map]
  rfl

/-- Linear motion in the world frame adds to the angles. -/
theorem Exact.movePoint_panorama {width height offset x y dx dy : ℝ} (wide : width ≠ 0) (tall : height ≠ 0)
    (moving : ¬(dx = 0 ∧ dy = 0))
    (angles : Angles ((y + offset) / height * Real.pi) (-(x + offset) / width * 2 * Real.pi))
    (center : Vec2 Exact) :
    let p : Panorama Exact := ⟨real width, real height, real offset⟩
    (MotionModel.geodesic (.build (.panorama p) .linear .zero)).movePoint ⟨real x, real y⟩
      ⟨real dx, real dy⟩ center =
      p.project (Spherical.direction (real ((y + offset) / height * Real.pi + dx * (2 * Real.pi / width)))
        (real (-(x + offset) / width * 2 * Real.pi + dy * (2 * Real.pi / width)))) := by
  intro p
  have notZero : (⟨real dx, real dy⟩ : Vec2 Exact).isZero = false := by
    rw [← Bool.not_eq_true, Vec2.isZero, Bool.and_eq_true, ofNat_eq, real_beq, real_beq, Nat.cast_zero]
    exact moving
  let m : Geodesic Exact := .build (.panorama p) .linear .zero
  have before : m.frame.spherical (m.projection.unproject ⟨real x, real y⟩) =
      ⟨real 1, real ((y + offset) / height * Real.pi), real (-(x + offset) / width * 2 * Real.pi)⟩ :=
    (congrArg m.frame.spherical (unproject_panorama wide tall)).trans (spherical_zero angles)
  have resolution : m.projection.angleResolution = real (2 * Real.pi / width) := angleResolution_panorama wide
  rw [m.movePoint_eq notZero, before, Geodesic.advance, resolution]
  exact congrArg p.project (direction_zero _ _)

/-- From the middle of the left edge a quarter turn leads to the right by a quarter of the width. -/
theorem Exact.movePoint_panorama_of_quarter_turn (center : Vec2 Exact) :
    (MotionModel.geodesic (.build (.panorama ⟨real 16, real 8, real 0⟩) .linear .zero)).movePoint ⟨real 0, real 4⟩
      ⟨real 0, real (-4)⟩ center = ⟨real 4, real 4⟩ := by
  have positive := Real.pi_pos
  refine (movePoint_panorama (by norm_num) (by norm_num) (by norm_num) ⟨?_, ?_⟩ center).trans ?_
  · constructor <;> linarith
  · constructor <;> linarith
  · rw [project_panorama ⟨⟨by linarith, by linarith⟩, ⟨by linarith, by linarith⟩⟩ (by linarith)]
    congr 2 <;> field_simp <;> norm_num

end SphereMotion
