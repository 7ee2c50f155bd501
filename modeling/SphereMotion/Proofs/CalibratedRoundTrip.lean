import Mathlib
import SphereMotion.Proofs.RoundTrip
import SphereMotion.Proofs.SnappedInputs

namespace SphereMotion

open Scalar
open Exact (real)

/-- Horner's rule gives the sum of the powers. -/
theorem Exact.polynomial_real (coefficients : List ℝ) (x : ℝ) :
    polynomial (coefficients.map real) (real x) =
      real (∑ k : Fin coefficients.length, coefficients[k] * x ^ k.val) := by
  induction coefficients with
  | nil => exact Exact.zero_eq
  | cons constant higher ih =>
    have raised : (∑ k : Fin higher.length, higher[k] * x ^ k.val) * x =
        ∑ k : Fin higher.length, higher[k] * x ^ (k.val + 1) := by
      simp only [Finset.sum_mul, pow_succ, mul_assoc]
    rw [polynomial, List.map_cons, List.foldr_cons, ← polynomial, ih, Exact.real_mul, Exact.real_add, raised]
    refine congrArg real ?_
    change _ = ∑ k : Fin (higher.length + 1), (constant :: higher)[k.val] * x ^ k.val
    rw [Fin.sum_univ_succ, add_comm]
    simp

namespace Vec2

theorem scaled_ofPolar (k r φ : ℝ) : (ofPolar r φ).scaled k = ofPolar (k * r) φ :=
  Vec2.ext (mul_assoc k r _).symm (mul_assoc k r _).symm

theorem ofPolar_zero (φ : ℝ) : ofPolar 0 φ = 0 := Vec2.ext (zero_mul _) (zero_mul _)

/-- The distance of two points of a ray. -/
theorem distance_ofPolar (ρ r φ : ℝ) (center : Vec2 ℝ) :
    (ofPolar ρ φ + center).distance (ofPolar r φ + center) = |ρ - r| := by
  have difference : ofPolar ρ φ - ofPolar r φ = ofPolar (ρ - r) φ :=
    Vec2.ext (sub_mul ρ r _).symm (sub_mul ρ r _).symm
  rw [distance, add_sub_add_right_eq_sub, difference, length_ofPolar_eq_abs]

end Vec2

/-- A calibrated lens and its table, by their real parameters. The polynomial has no constant part, so that
the optical axis is shown at the center. -/
structure Calibration where
  linear : ℝ
  higher : List ℝ
  center : Vec2 ℝ
  samples : Nat
  positive : 0 < linear
  enough : 2 ≤ samples

namespace Calibration

variable (c : Calibration)

def coefficients : List ℝ := 0 :: c.linear :: c.higher

def params : ProjectionParams Exact := .calibrated (c.coefficients.map real) (real c.center.x) (real c.center.y)

/-- The largest polar angle of a table, 100°. -/
noncomputable def maxAngle : ℝ := (100 : Nat) / (180 : Nat) * Real.pi

/-- The polar angle of a sample. -/
noncomputable def angle (i : Nat) : ℝ := i * (maxAngle / (c.samples - 1 : Nat))

/-- The tabulated radius of a sample. -/
noncomputable def radius (i : Fin c.samples) : ℝ :=
  ∑ k : Fin c.coefficients.length, c.coefficients[k] * c.angle i ^ k.val

/-- The largest difference of neighboring radii. -/
noncomputable def largestGap : ℝ :=
  ⨆ i : Fin (c.samples - 1), c.radius ⟨i + 1, by omega⟩ - c.radius ⟨i, by omega⟩

theorem maxAngle_eq : (CalibratedLens.maxAngle : Exact) = real maxAngle := by
  simp only [CalibratedLens.maxAngle, Exact.ofNat_eq, Exact.pi_eq]
  rw [Exact.real_div (by norm_num), Exact.real_div (by norm_num), Exact.real_add, maxAngle]
  refine congrArg real ?_
  push_cast
  ring

theorem maxAngle_mem : maxAngle ∈ Set.Ioo 0 Real.pi := by
  have pos := Real.pi_pos
  rw [maxAngle]
  push_cast
  constructor <;> linarith

theorem zero_lt_maxAngle : (0 : Exact) < CalibratedLens.maxAngle := by
  rw [maxAngle_eq, Exact.zero_lt_real]
  exact maxAngle_mem.1

noncomputable def table : SampledTable Exact :=
  ⟨0, CalibratedLens.maxAngle, c.samples, polynomial (c.coefficients.map real), c.enough, zero_lt_maxAngle⟩

noncomputable def projection : LensProjection Exact :=
  ⟨.calibrated ⟨real 0, real c.linear, c.higher.map real, c.table, Exact.zero_lt_real.mpr c.positive⟩,
    c.center.exact⟩

theorem build_eq : c.params.build c.samples = .ok (.lens c.projection) := by
  have positive : (0 : Exact) < real c.linear := Exact.zero_lt_real.mpr c.positive
  rw [params, ProjectionParams.build, coefficients, List.map_cons, List.map_cons, CalibratedLens.build,
    dif_pos positive, SampledTable.sample, dif_pos c.enough, dif_pos zero_lt_maxAngle]
  rfl

theorem spans : c.table.Spans 0 maxAngle := ⟨Exact.zero_eq, maxAngle_eq⟩

theorem input_eq (i : Nat) : c.table.input i = real (c.angle i) := by
  rw [c.spans.input_eq, zero_add, sub_zero]
  rfl

theorem tabulates : c.table.Tabulates c.radius := by
  intro i
  rw [SampledTable.output, c.input_eq]
  exact Exact.polynomial_real c.coefficients (c.angle i)

theorem radius_first (i : Fin c.samples) (first : i.val = 0) : c.radius i = 0 := by
  have axis : c.angle i = 0 := by rw [angle, first, Nat.cast_zero, zero_mul]
  rw [radius, axis]
  refine Finset.sum_eq_zero fun k _ => ?_
  obtain ⟨k, within⟩ := k
  cases k with
  | zero => exact zero_mul _
  | succ k => rw [pow_succ, mul_zero, mul_zero]

theorem angle_mem (i : Fin c.samples) : c.angle i ∈ Set.Ico 0 Real.pi := by
  obtain ⟨x, within, input⟩ := c.spans.input_mem (show i.val < c.table.samples from i.isLt)
  rw [c.input_eq, Exact.real.injEq] at input
  exact ⟨input ▸ within.1, (input ▸ within.2).trans_lt maxAngle_mem.2⟩

theorem angle_eq_zero {i : Fin c.samples} (axis : Real.sin (c.angle i) = 0) : i.val = 0 := by
  obtain ⟨nonneg, below⟩ := c.angle_mem i
  have zero := (Real.sin_eq_zero_iff_of_lt_of_lt (by linarith [Real.pi_pos]) below).mp axis
  rw [← c.spans.input_eq_low_iff, c.input_eq, zero]

variable {c}

theorem gap_le_largestGap {k : Nat} (next : k + 1 < c.samples) :
    c.radius ⟨k + 1, next⟩ - c.radius ⟨k, by omega⟩ ≤ c.largestGap :=
  le_ciSup (f := fun i : Fin (c.samples - 1) => c.radius ⟨i + 1, by omega⟩ - c.radius ⟨i, by omega⟩)
    (Set.finite_range _).bddAbove ⟨k, by omega⟩

section Rising

variable (rising : Monotone c.radius)
include rising

theorem radius_nonneg (i : Fin c.samples) : 0 ≤ c.radius i := by
  have enough := c.enough
  have first := c.radius_first ⟨0, by omega⟩ rfl
  exact first ▸ rising (Fin.mk_le_mk.mpr (Nat.zero_le _))

/-- A point comes back in its own direction from the center. -/
theorem exists_snapped (p : Vec2 ℝ) : ∃ i : Fin c.samples, Closest c.radius (p.distance c.center) i ∧
    c.projection.project (c.projection.unproject p.exact) =
      (Vec2.ofPolar (c.radius i) (p - c.center).toComplex.arg + c.center).exact := by
  obtain ⟨i, found, closest⟩ := c.tabulates.exists_closest rising (p.distance c.center)
  obtain ⟨nonneg, below⟩ := c.angle_mem i
  have direction : c.projection.unproject p.exact =
      (Vec3.ofAngles (c.angle i) (p - c.center).toComplex.arg).world.exact := by
    simp only [LensProjection.unproject, projection, Lens.angle, Vec2.exact_sub, Vec2.toPolar_exact]
    rw [← Vec2.distance, found, c.input_eq, Vec3.direction_eq_ofAngles, Vec3.ofCamera_exact]
  have radius : c.projection.lens.radius (real (c.angle i)) = real (c.radius i) := by
    change c.table.lookup (real (c.angle i)) = _
    rw [← c.input_eq, SampledTable.lookup_input i.isLt]
    exact c.tabulates i
  -- On the axis the azimuth is lost, but there the radius is zero.
  have azimuth : Vec2.ofPolar (c.radius i) (if Real.sin (c.angle i) = 0 then 0 else (p - c.center).toComplex.arg) =
      Vec2.ofPolar (c.radius i) (p - c.center).toComplex.arg := by
    split
    next axis => rw [c.radius_first i (c.angle_eq_zero axis), Vec2.ofPolar_zero, Vec2.ofPolar_zero]
    next => rfl
  refine ⟨i, closest, ?_⟩
  rw [direction, LensProjection.project, Vec3.toCamera_exact, Vec3.camera_world,
    Vec3.toSpherical_ofAngles ⟨nonneg, below.le⟩ (Complex.arg_mem_Ioc _)]
  simp only [radius, Polar.toVec2_real, azimuth]
  rfl

/-- A point at a tabulated radius stays where it is. -/
theorem project_unproject_of_radius {q : Vec2 ℝ} {i : Fin c.samples}
    (tabulated : q.distance c.center = c.radius i) :
    c.projection.project (c.projection.unproject q.exact) = q.exact := by
  obtain ⟨j, closest, again⟩ := exists_snapped rising q
  have radius : c.radius j = (q - c.center).length := closest.eq_of_hit rising tabulated.symm
  rw [again, radius, Vec2.ofPolar_length_arg, sub_add_cancel]

variable {p : Vec2 ℝ} {i : Fin c.samples} (closest : Closest c.radius (p.distance c.center) i)
include closest

/-- The closest radius lies on the ray through the point. At the center that is the center itself. -/
theorem exists_ray : ∃ k : ℝ, 0 ≤ k ∧
    Vec2.ofPolar (c.radius i) (p - c.center).toComplex.arg + c.center = (p - c.center).scaled k + c.center := by
  have enough := c.enough
  have ratio : c.radius i / (p - c.center).length * (p - c.center).length = c.radius i := by
    refine div_mul_cancel_of_imp fun atCenter => ?_
    have first : c.radius ⟨0, by omega⟩ = (p - c.center).length := (c.radius_first _ rfl).trans atCenter.symm
    exact (closest.eq_of_hit rising first).trans atCenter
  refine ⟨c.radius i / (p - c.center).length, div_nonneg (radius_nonneg rising i) (Vec2.length_nonneg _), ?_⟩
  have scaled := Vec2.scaled_ofPolar (c.radius i / (p - c.center).length) (p - c.center).length
    (p - c.center).toComplex.arg
  rw [Vec2.ofPolar_length_arg, ratio] at scaled
  rw [scaled]

theorem distance_le (within : ∃ j, p.distance c.center ≤ c.radius j) :
    (Vec2.ofPolar (c.radius i) (p - c.center).toComplex.arg + c.center).distance p ≤ c.largestGap / 2 := by
  have enough := c.enough
  have first : c.radius ⟨0, by omega⟩ ≤ p.distance c.center :=
    (c.radius_first _ rfl).trans_le (Vec2.length_nonneg _)
  obtain ⟨k, next, near⟩ := closest.exists_neighbors rising enough ⟨_, first⟩ within
  have gap := gap_le_largestGap next
  have polar : Vec2.ofPolar (p.distance c.center) (p - c.center).toComplex.arg = p - c.center :=
    (p - c.center).ofPolar_length_arg
  have error := Vec2.distance_ofPolar (c.radius i) (p.distance c.center) (p - c.center).toComplex.arg c.center
  rw [polar, sub_add_cancel] at error
  rw [error]
  linarith

end Rising

/-- A point comes back on its ray from the center, at the tabulated radius closest to its own, the lower one
on a tie and the largest one beyond them all. Within the table it is off by no more than half of the largest
difference of neighboring radii. From there it comes back to the same place. -/
theorem project_unproject_snaps (c : Calibration) (rising : Monotone c.radius) :
    ∃ projection, c.params.build c.samples = .ok projection ∧
      ∀ p : Vec2 ℝ, ∃ (i : Fin c.samples) (q : Vec2 ℝ),
        projection.project (projection.unproject p.exact) = q.exact ∧
          (∃ k : ℝ, 0 ≤ k ∧ q = (p - c.center).scaled k + c.center) ∧ q.distance c.center = c.radius i ∧
          (∀ j, |c.radius i - p.distance c.center| ≤ |c.radius j - p.distance c.center| ∧
            (|c.radius j - p.distance c.center| = |c.radius i - p.distance c.center| → c.radius i ≤ c.radius j)) ∧
          ((∀ j, c.radius j < p.distance c.center) → ∀ j, c.radius j ≤ c.radius i) ∧
          ((∃ j, p.distance c.center ≤ c.radius j) → q.distance p ≤ c.largestGap / 2) ∧
          projection.project (projection.unproject q.exact) = q.exact := by
  refine ⟨_, c.build_eq, fun p => ?_⟩
  obtain ⟨i, closest, image⟩ := exists_snapped rising p
  have tabulated : (Vec2.ofPolar (c.radius i) (p - c.center).toComplex.arg + c.center).distance c.center =
      c.radius i := by
    rw [Vec2.distance, add_sub_cancel_right, Vec2.length_ofPolar (radius_nonneg rising i)]
  refine ⟨i, _, image, exists_ray rising closest, tabulated, fun j => ?_, closest.le_of_beyond rising,
    distance_le rising closest, project_unproject_of_radius rising tabulated⟩
  exact ⟨closest.abs_sub_le rising j, closest.le_of_tie rising⟩

/-- A table that rises once and stays at its second radius. A point halfway to it goes to the center. -/
theorem project_unproject_snaps_of_halfway :
    let c : Calibration := ⟨5 * Real.pi / 6, [-1], ⟨320, 240⟩, 3, by positivity, by decide⟩
    let p : Vec2 ℝ := ⟨(5 * Real.pi / 18) ^ 2 + 320, 240⟩
    Monotone c.radius ∧ ∃ projection, c.params.build c.samples = .ok projection ∧
      projection.project (projection.unproject p.exact) = c.center.exact := by
  intro c p
  set s := (5 * Real.pi / 18) ^ 2 with square
  have radius (i : Fin c.samples) : c.radius i = if i.val = 0 then 0 else 2 * s := by
    have terms : c.radius i = ∑ k : Fin 3, [0, 5 * Real.pi / 6, -1][k] * c.angle i ^ k.val := rfl
    have place : c.angle i = i.val * (5 * Real.pi / 18) := by
      change (i.val : ℝ) * ((100 : Nat) / (180 : Nat) * Real.pi / (2 : Nat)) = _
      push_cast
      ring
    have bound : i.val < 3 := i.isLt
    rw [terms, Fin.sum_univ_three, place, square]
    rcases (by omega : i.val = 0 ∨ i.val = 1 ∨ i.val = 2) with sample | sample | sample
    all_goals rw [sample]; norm_num
    all_goals ring
  have rising : Monotone c.radius := by
    intro i j ordered
    have upTo : i.val ≤ j.val := ordered
    rw [radius, radius]
    split_ifs
    · exact le_rfl
    · positivity
    · omega
    · exact le_rfl
  obtain ⟨projection, built, each⟩ := project_unproject_snaps c rising
  obtain ⟨i, q, image, -, distance, nearest, -⟩ := each p
  have halfway : p.distance c.center = s := by
    have offset : p - c.center = ⟨s, 0⟩ := Vec2.ext (add_sub_cancel_right _ _) (sub_self _)
    rw [Vec2.distance, offset, Vec2.length_eq_sqrt, mul_zero, add_zero, Real.sqrt_mul_self (sq_nonneg _)]
  have first : c.radius ⟨0, by decide⟩ = 0 := c.radius_first _ rfl
  have tie : |c.radius ⟨0, by decide⟩ - s| = |c.radius i - s| := by
    rw [first, radius]
    split_ifs
    · rfl
    · rw [zero_sub, abs_neg, two_mul, add_sub_cancel_right]
  have least : c.radius i ≤ c.radius ⟨0, by decide⟩ := (nearest _).2 (halfway ▸ tie)
  rw [first, ← distance] at least
  have same : q = c.center := sub_eq_zero.mp (Vec2.eq_of_length_eq_zero (least.antisymm (Vec2.length_nonneg _)))
  exact ⟨rising, projection, built, same ▸ image⟩

end Calibration

end SphereMotion
