import Mathlib
import SphereMotion.Motion.EpipoleFrame
import SphereMotion.Proofs.OrthonormalFrames
import SphereMotion.Proofs.WrappedAngles

namespace SphereMotion

open Scalar
open Exact (real)

namespace Exact

theorem wrapAngle_real (x : ℝ) : wrapAngle (real x) = real (x : Real.Angle).toReal := by
  have turned : ∃ k : ℤ, x - (x : Real.Angle).toReal = k * (2 * Real.pi) := by
    obtain ⟨k, turns⟩ := Real.Angle.angle_eq_iff_two_pi_dvd_sub.mp (Real.Angle.coe_toReal x).symm
    exact ⟨k, turns.trans (mul_comm _ _)⟩
  rw [wrapAngle_eq, principal_eq_iff.mpr ⟨Real.Angle.toReal_mem_Ioc x, turned⟩]

end Exact

namespace Vec3

variable {θ φ ψ : ℝ} {v : Vec3 ℝ}

theorem ofAngles_congr (same : (φ : Real.Angle) = ψ) (θ : ℝ) : ofAngles θ φ = ofAngles θ ψ := by
  have cosine := congrArg Real.Angle.cos same
  have sine := congrArg Real.Angle.sin same
  rw [Real.Angle.cos_coe, Real.Angle.cos_coe] at cosine
  rw [Real.Angle.sin_coe, Real.Angle.sin_coe] at sine
  rw [ofAngles, ofAngles, cosine, sine]

theorem polarAngle_ofAngles (polar : θ ∈ Set.Icc 0 Real.pi) (φ : ℝ) : (ofAngles θ φ).polarAngle = θ := by
  rw [polarAngle, length_ofAngles, div_one]
  exact Real.arccos_cos polar.1 polar.2

theorem azimuth_ofAngles (polar : θ ∈ Set.Ioo 0 Real.pi) (φ : ℝ) :
    (ofAngles θ φ).azimuth = (φ : Real.Angle).toReal := by
  have sine := Real.sin_pos_of_pos_of_lt_pi polar.1 polar.2
  have turned := Complex.arg_mul_cos_add_sin_mul_I_coe_angle sine φ
  rw [Real.Angle.cos_coe, Real.Angle.sin_coe, Complex.ofReal_cos φ, Complex.ofReal_sin φ,
    ← Vec2.toComplex_ofPolar] at turned
  rw [← turned]
  exact (Real.Angle.toReal_coe_eq_self_iff_mem_Ioc.mpr (Complex.arg_mem_Ioc _)).symm

theorem ofAngles_angles (unit : v.length = 1) : ofAngles v.polarAngle v.azimuth = v := by
  rw [← exact_inj, ← direction_eq_ofAngles, direction_angles (ne_zero_of_length unit), normalized_of_length unit]

end Vec3

namespace EpipoleFrame

variable {f : EpipoleFrame Exact} {t : Triad} (axes : f.rotation = t.matrix)
include axes

theorem spherical_exact {v : Vec3 ℝ} (unit : v.length = 1) :
    f.spherical v.exact = ⟨real 1, real (t.turn v).polarAngle, real (t.turn v).azimuth⟩ := by
  have unit' := (t.length_turn v).trans unit
  rw [spherical, axes, Triad.matrix_apply, Vec3.toSpherical_exact (Vec3.ne_zero_of_length unit'), unit']

theorem direction_exact (θ φ : ℝ) : f.direction (real θ) (real φ) = (t.turnBack (Vec3.ofAngles θ φ)).exact := by
  rw [direction, axes, Vec3.direction_eq_ofAngles, Triad.transpose_apply]

theorem direction_congr {φ ψ : ℝ} (same : (φ : Real.Angle) = ψ) (θ : ℝ) :
    f.direction (real θ) (real φ) = f.direction (real θ) (real ψ) := by
  rw [direction_exact axes, direction_exact axes, Vec3.ofAngles_congr same]

/-- The angles of a direction lead back to it. -/
theorem direction_angles {v : Vec3 ℝ} (unit : v.length = 1) :
    f.direction (real (t.turn v).polarAngle) (real (t.turn v).azimuth) = v.exact := by
  rw [direction_exact axes, Vec3.ofAngles_angles ((t.length_turn v).trans unit), Triad.turnBack_turn]

end EpipoleFrame

theorem Exact.epsilon_eq : (Scalar.epsilon : Exact) = real (1 / 2 ^ 52) := by
  rw [Scalar.epsilon, Exact.ofInt_eq, Exact.ofNat_eq, Exact.real_div (by norm_num [Nat.shiftLeft_eq])]
  norm_num [Nat.shiftLeft_eq]

/-- The axes of the frame of the epipole straight ahead, in which world up is a quarter turn away. -/
noncomputable def Triad.front : Triad :=
  ⟨⟨0, 0, 1⟩, ⟨0, 1, 0⟩, ⟨-1, 0, 0⟩,
    by simp [Vec3.inner], by simp [Vec3.inner], by simp [Vec3.inner], by simp [Vec3.inner],
    by simp [Vec3.inner], by simp [Vec3.inner]⟩

theorem Exact.rotation_front : (EpipoleFrame.ofEpipole (.unitX : Vec3 Exact)).rotation = Triad.front.matrix := by
  have front : (.unitX : Vec3 Exact) = (⟨1, 0, 0⟩ : Vec3 ℝ).exact := by simp [Vec3.unitX, Vec3.exact]
  have up : (.unitZ : Vec3 Exact) = (⟨0, 0, 1⟩ : Vec3 ℝ).exact := by simp [Vec3.unitZ, Vec3.exact]
  have unit : (⟨1, 0, 0⟩ : Vec3 ℝ).length = 1 := by simp [Vec3.length]
  have unit' : (⟨0, 0, 1⟩ : Vec3 ℝ).length = 1 := by simp [Vec3.length]
  have unit'' : (⟨0, -1, 0⟩ : Vec3 ℝ).length = 1 := by simp [Vec3.length]
  have cross : (⟨1, 0, 0⟩ : Vec3 ℝ).exact.cross (⟨0, 0, 1⟩ : Vec3 ℝ).exact = (⟨0, -1, 0⟩ : Vec3 ℝ).exact := by
    simp [Vec3.cross, Vec3.exact]
  have between : Mat3.rotationBetween (⟨1, 0, 0⟩ : Vec3 ℝ).exact (⟨0, 0, 1⟩ : Vec3 ℝ).exact =
      some (.ofAxisAngle (⟨0, -1, 0⟩ : Vec3 ℝ).exact (real (Real.pi / 2))) := by
    have positive : ¬real 1 ≤ 0 := by simp
    have long : (epsilon : Exact) * epsilon < (⟨0, -1, 0⟩ : Vec3 ℝ).exact.normSquared := by
      rw [Exact.epsilon_eq, Exact.real_mul, Vec3.normSquared, Vec3.exact_dot, Exact.real_lt, Vec3.inner]
      norm_num
    simp only [Mat3.rotationBetween, Vec3.norm_exact, unit, unit',
      Vec3.normalize_exact (Vec3.ne_zero_of_length unit), Vec3.normalize_exact (Vec3.ne_zero_of_length unit'),
      Vec3.normalize_exact (Vec3.ne_zero_of_length unit''), Vec3.normalized_of_length unit,
      Vec3.normalized_of_length unit', Vec3.normalized_of_length unit'', cross, if_neg positive, if_pos long,
      Vec3.exact_dot, Vec3.inner]
    simp [Exact.acos_real]
  have notZero : ¬(((⟨1, 0, 0⟩ : Vec3 ℝ).exact.normSquared : Exact) == 0) = true := by
    simp [Vec3.normSquared, Vec3.exact_dot, Vec3.inner]
  change Mat3.toPole .unitX = _
  rw [Mat3.toPole, front, up, if_neg notZero, between]
  have turns : ¬(real (Real.pi / 2) == 0) = true := by simp [Real.pi_ne_zero]
  rw [Option.getD_some, Mat3.ofAxisAngle, if_neg turns]
  simp [Triad.matrix, Triad.front, Vec3.exact, Mat3.ofColumns]

end SphereMotion
