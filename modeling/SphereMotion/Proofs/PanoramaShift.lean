import Mathlib
import SphereMotion.Proofs.PoleFrames

namespace SphereMotion

open Scalar
open Exact (real)

theorem Vec3.toSpherical_of_angle {θ : ℝ} (polar : θ ∈ Set.Ioo 0 Real.pi) (φ : ℝ) :
    (ofAngles θ φ).exact.toSpherical = ⟨real 1, real θ, real (φ : Real.Angle).toReal⟩ := by
  have unit := length_ofAngles θ φ
  rw [toSpherical_exact (ne_zero_of_length unit), unit, polarAngle_ofAngles (Set.Ioo_subset_Icc_self polar),
    azimuth_ofAngles polar]

theorem ClosedForm.polar_mem_of_row {y height : ℝ} (row : y ∈ Set.Ioo 0 height) :
    y / height * Real.pi ∈ Set.Ioo 0 Real.pi := by
  have tall := row.1.trans row.2
  exact ⟨mul_pos (div_pos row.1 tall) Real.pi_pos, mul_lt_of_lt_one_left Real.pi_pos ((div_lt_one tall).mpr row.2)⟩

/-- A direction off the poles is seen in the column of its azimuth, brought into the picture by whole widths. -/
theorem ClosedForm.exists_column {width height offset θ : ℝ} (wide : 0 < width) (polar : θ ∈ Set.Ioo 0 Real.pi)
    (φ : ℝ) :
    ∃ (p : Vec2 ℝ) (n : ℤ),
      Panorama.project ⟨real width, real height, real offset⟩ (Vec3.ofAngles θ φ).exact = p.exact ∧
        p.x + offset ∈ Set.Ico 0 width ∧ p.x = -φ / (2 * Real.pi) * width - offset + n * width ∧
        p.y = θ / Real.pi * height - offset := by
  have turn := Real.two_pi_pos
  obtain ⟨west, ⟨lower, upper⟩, turned, -⟩ := exists_west (φ : Real.Angle).toReal_mem_Ioc
  have alike : (φ : Real.Angle) = west := by
    rw [← turned]
    split
    · rw [Real.Angle.coe_sub, Real.Angle.coe_two_pi, sub_zero, Real.Angle.coe_toReal]
    · rw [Real.Angle.coe_toReal]
  obtain ⟨n, turns⟩ := Real.Angle.angle_eq_iff_two_pi_dvd_sub.mp alike
  refine ⟨⟨-west / (2 * Real.pi) * width - offset, θ / Real.pi * height - offset⟩, n, ?_, ?_, ?_, rfl⟩
  · rw [Exact.project_panorama_of_toSpherical (Vec3.toSpherical_of_angle polar φ), turned]
    rfl
  · rw [sub_add_cancel]
    have fraction : -west / (2 * Real.pi) ∈ Set.Ico 0 1 :=
      ⟨div_nonneg (by linarith) turn.le, (div_lt_one turn).mpr (by linarith)⟩
    exact ⟨mul_nonneg fraction.1 wide.le, mul_lt_of_lt_one_left wide fraction.2⟩
  · have whole : φ = west + 2 * Real.pi * n := by linarith
    rw [whole]
    field_simp
    ring

namespace EpipoleFrame

variable {f : EpipoleFrame Exact}

/-- World up and the zero epipole keep the world frame. -/
theorem rotation_of_up (upward : f.epipole = .unitZ ∨ f.epipole = .zero) : f.rotation = .identity := by
  rcases upward with up | zero
  · have level : (Vec3.up.normalized.outer .up).length ≤ 1 / 2 ^ 52 := by
      rw [Vec3.normalized_of_length Vec3.length_up, Vec3.length_outer_up, Vec2.length_eq_sqrt]
      simp [Vec3.up]
    have notDown : ¬Vec3.up.normalized.z < 0 := by
      rw [Vec3.normalized_of_length Vec3.length_up]
      exact not_lt.mpr zero_le_one
    rw [f.rotation_eq, up, Vec3.unitZ_eq, Mat3.toPole_of_upright (Vec3.ne_zero_of_length Vec3.length_up) level,
      if_neg notDown]
  · rw [f.rotation_eq, zero, Mat3.toPole_zero]

variable (world : f.rotation = .identity)
include world

theorem spherical_of_world (v : Vec3 ℝ) : f.spherical v.exact = v.exact.toSpherical := by
  rw [spherical, world, Exact.identity_apply]

/-- The angles of a point of a panorama are read off its row and its column. -/
theorem spherical_panorama_of_world {width height offset : ℝ} (wide : 0 < width) {p : Vec2 ℝ}
    (row : p.y + offset ∈ Set.Ioo 0 height) :
    f.spherical (Panorama.unproject ⟨real width, real height, real offset⟩ p.exact) =
      ⟨real 1, real ((p.y + offset) / height * Real.pi),
        real ((-(p.x + offset) / width * 2 * Real.pi : ℝ) : Real.Angle).toReal⟩ := by
  rw [ClosedForm.unproject_panorama wide (row.1.trans row.2), spherical_of_world world,
    Vec3.toSpherical_of_angle (ClosedForm.polar_mem_of_row row)]

theorem direction_of_world (θ φ : ℝ) : f.direction (real θ) (real φ) = (Vec3.ofAngles θ φ).exact := by
  have transposed : Mat3.transpose (.identity : Mat3 Exact) = .identity := rfl
  rw [direction, world, transposed, Vec3.direction_eq_ofAngles, Exact.identity_apply]

end EpipoleFrame

theorem Geodesic.polarAngle_about_up {m : Geodesic Exact} {width height offset : ℝ} (wide : 0 < width)
    (panorama : m.projection = .panorama ⟨real width, real height, real offset⟩)
    (upward : m.frame.epipole = .unitZ ∨ m.frame.epipole = .zero) {p : Vec2 ℝ}
    (row : p.y + offset ∈ Set.Ioo 0 height) :
    m.polarAngle p.exact = real ((p.y + offset) / height * Real.pi) := by
  have angles := EpipoleFrame.spherical_panorama_of_world (EpipoleFrame.rotation_of_up upward) wide row
  rw [polarAngle, panorama]
  exact congrArg Spherical.polar angles

/-- About world up every row of a panorama is shifted by the horizontal component of the motion, in
the angles of rows, and every column by the vertical component, the other way round and with whole
widths taken off at the seam. -/
theorem Geodesic.move_about_up {m : Geodesic Exact} {width height offset : ℝ} (wide : 0 < width)
    (panorama : m.projection = .panorama ⟨real width, real height, real offset⟩) (flavor : m.flavor = .linear)
    (upward : m.frame.epipole = .unitZ ∨ m.frame.epipole = .zero) {motion : Vec2 ℝ} (moves : motion ≠ 0)
    (g : Grid (Vec2 Exact)) (center : Vec2 Exact) {i : Nat} {p : Vec2 ℝ} (entry : g.get? i = some p.exact)
    (row : p.y + offset ∈ Set.Ioo 0 height)
    (row' : p.y + offset + motion.x * 2 * height / width ∈ Set.Ioo 0 height) :
    ∃ moved : Vec2 ℝ, ((MotionModel.geodesic m).move g motion.exact center).get? i = some moved.exact ∧
      moved.y = p.y + motion.x * 2 * height / width ∧ (∃ n : ℤ, moved.x = p.x - motion.y + n * width) ∧
      moved.x + offset ∈ Set.Ico 0 width ∧ (width = 2 * height → moved.y = p.y + motion.x) := by
  have tall := row.1.trans row.2
  have world := EpipoleFrame.rotation_of_up upward
  have resolution : m.projection.angleResolution = real (2 * Real.pi / width) :=
    panorama ▸ Exact.angleResolution_panorama wide.ne'
  have before := EpipoleFrame.spherical_panorama_of_world world wide row
  have target : (p.y + offset) / height * Real.pi + motion.x * (2 * Real.pi / width) =
      (p.y + offset + motion.x * 2 * height / width) / height * Real.pi := by
    field_simp
  have turned : ((((-(p.x + offset) / width * 2 * Real.pi : ℝ) : Real.Angle).toReal +
      motion.y * (2 * Real.pi / width) : ℝ) :
      Real.Angle) = (-(p.x + offset - motion.y) / width * 2 * Real.pi : ℝ) := by
    rw [Real.Angle.coe_add, Real.Angle.coe_toReal, ← Real.Angle.coe_add]
    congr 1
    field_simp
    ring
  obtain ⟨moved, n, image, column, x, y⟩ := @ClosedForm.exists_column width height offset _ wide
    (ClosedForm.polar_mem_of_row row') (-(p.x + offset - motion.y) / width * 2 * Real.pi)
  refine ⟨moved, ?_, ?_, ⟨n, ?_⟩, column, fun double => ?_⟩
  · rw [MotionModel.move_eq_map, Grid.get?_map, entry, Option.map_some, m.movePoint_eq (Vec2.isZero_of_ne moves),
      panorama, Projection.unproject, before, advance, flavor, ← panorama, resolution]
    simp only [Advance.apply, Vec2.exact, Exact.real_mul, Exact.real_add]
    rw [EpipoleFrame.direction_of_world world, target, Vec3.ofAngles_congr turned, panorama]
    exact congrArg some image
  · rw [y]
    field_simp
    ring
  · rw [x]
    field_simp
    ring
  · rw [y, double]
    field_simp
    ring

/-- A point near the right edge that goes round more than twice and comes in at the left. -/
theorem Geodesic.move_about_up_of_two_turns :
    let m : Geodesic Exact := .build (.panorama ⟨real 8, real 4, real (1 / 2)⟩) .linear .unitZ
    let motion : Vec2 ℝ := ⟨1, -19⟩
    let p : Vec2 ℝ := ⟨7, 1⟩
    let g : Grid (Vec2 Exact) := .single p.exact
    (0 : ℝ) < 8 ∧ m.frame.epipole = .unitZ ∧ motion ≠ 0 ∧ g.get? 0 = some p.exact ∧
      p.y + 1 / 2 ∈ Set.Ioo 0 4 ∧ p.y + 1 / 2 + motion.x * 2 * 4 / 8 ∈ Set.Ioo 0 4 ∧
      ((MotionModel.geodesic m).move g motion.exact .origin).get? 0 = some (⟨2, 2⟩ : Vec2 ℝ).exact := by
  intro m motion p g
  have wide : (0 : ℝ) < 8 := by norm_num
  have moves : motion ≠ 0 := fun zero => one_ne_zero (congrArg Vec2.x zero)
  have row : p.y + 1 / 2 ∈ Set.Ioo 0 4 := by norm_num [p]
  have row' : p.y + 1 / 2 + motion.x * 2 * 4 / 8 ∈ Set.Ioo 0 4 := by norm_num [p, motion]
  obtain ⟨moved, lands, y, ⟨n, x⟩, column, -⟩ :=
    Geodesic.move_about_up (m := m) wide rfl rfl (.inl rfl) moves g .origin (i := 0) (p := p) rfl row row'
  have widths : n = -3 := by
    rw [x, Set.mem_Ico] at column
    simp only [p, motion] at column
    have atLeast : (-4 : ℝ) < n := by linarith [column.1]
    have atMost : (n : ℝ) < -2 := by linarith [column.2]
    have atLeast' : -4 < n := by exact_mod_cast atLeast
    have atMost' : n < -2 := by exact_mod_cast atMost
    omega
  have place : moved = ⟨2, 2⟩ := by
    rw [widths] at x
    apply Vec2.ext
    · rw [x]
      norm_num [p, motion]
    · rw [y]
      norm_num [p, motion]
  exact ⟨wide, rfl, moves, rfl, row, row', place ▸ lands⟩

end SphereMotion
