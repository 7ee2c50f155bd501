import Mathlib
import SphereMotion.Proofs.ExactTables
import SphereMotion.Proofs.PinholeImages

namespace SphereMotion

open Scalar
open Exact (real)

namespace Vec3

variable {v : Vec3 ℝ}

/-- The angle to the rear end of the viewing axis. -/
noncomputable def rearAngle (v : Vec3 ℝ) : ℝ := (-v).camera.polarAngle

theorem rearAngle_eq (v : Vec3 ℝ) : v.rearAngle = Real.pi - v.camera.polarAngle := by
  rw [rearAngle, polarAngle, polarAngle, ← Real.arccos_neg, length_camera, length_camera, length_neg, ← neg_div]
  rfl

theorem rearAngle_of_axis (below : v.x < 0) (axis : v.y = 0 ∧ v.z = 0) : v.rearAngle = 0 := by
  have depth : (-v).camera.z = -v.x := rfl
  rw [rearAngle, polarAngle, length_camera, length_neg, length_of_axis axis, abs_of_neg below, depth,
    div_self (neg_ne_zero.mpr below.ne), Real.arccos_one]

theorem pi_div_two_lt_polarAngle_iff (nonzero : v ≠ ⟨0, 0, 0⟩) : Real.pi / 2 < v.camera.polarAngle ↔ v.x < 0 := by
  have depth : v.camera.z = v.x := rfl
  rw [← not_le, polarAngle, Real.arccos_le_pi_div_two, not_le, length_camera, depth,
    div_lt_iff₀ (length_pos nonzero), zero_mul]

/-- The angle to the rear axis of a direction that goes `slope` to the side. -/
theorem rearAngle_eq_arctan {slope : ℝ} (nonneg : 0 ≤ slope) :
    (⟨-1, slope, 0⟩ : Vec3 ℝ).rearAngle = Real.arctan slope := by
  have opposite : -(⟨-1, slope, 0⟩ : Vec3 ℝ) = ⟨1, -slope, 0⟩ := Vec3.ext (neg_neg _) rfl neg_zero
  have distance : (⟨1, -slope, 0⟩ : Vec3 ℝ).axisDistance = slope := by
    rw [axisDistance, Vec2.length_eq_sqrt]
    simp [Real.sqrt_mul_self nonneg]
  rw [rearAngle, opposite, ← arctan_slope one_pos, distance, div_one]

end Vec3

namespace PlanePoint

/-- A direction lies in front of the camera or, for a virtual point, behind it. -/
theorem decide_direction_lt {a : ℝ} (upright : 0 < Real.cos a) (φ : ℝ) (isVirtual : Bool) :
    decide ((direction (real a) (real φ) isVirtual).x < 0) = isVirtual := by
  have front : (direction (real a) (real φ) false).x = real (Real.cos a) := by
    rw [direction, Vec3.direction_eq_ofAngles]
    rfl
  have back : (direction (real a) (real φ) true).x = real (-Real.cos a) := congrArg Neg.neg front
  cases isVirtual
  · rw [front]
    exact decide_eq_false (mt Exact.real_lt_zero.mp upright.not_gt)
  · rw [back]
    exact decide_eq_true (Exact.real_lt_zero.mpr (neg_neg_of_pos upright))

/-- Plane points with real coordinates for the directions of `g`, which are virtual where `side` says so. -/
def Images (g : Grid (Vec3 ℝ)) (side : Vec3 ℝ → Bool) (plane : Grid (PlanePoint Exact)) : Prop :=
  ∃ point : Vec3 ℝ → Vec2 ℝ, plane = g.map fun v => ⟨(point v).exact, side v⟩

namespace Images

variable {g : Grid (Vec3 ℝ)} {side : Vec3 ℝ → Bool} {plane : Grid (PlanePoint Exact)} (images : Images g side plane)
include images

theorem map_isVirtual : plane.map PlanePoint.isVirtual = g.map side := by
  obtain ⟨point, rfl⟩ := images
  rw [Grid.map_map]
  rfl

theorem translate (motion : Vec2 ℝ) : Images g side (plane.map (.translate motion.exact)) := by
  obtain ⟨point, rfl⟩ := images
  refine ⟨fun v => point v + motion.mirrored (side v), ?_⟩
  simp only [Grid.map_map, Function.comp_def, translate_exact]

/-- The directions that the points are taken for lie on the sides that they are marked with. -/
theorem side_unprojectGrid {angle : Exact → Exact} (front : ∀ r : ℝ, ∃ a, angle (real r) = real a ∧ 0 < Real.cos a)
    (center : Vec2 ℝ) :
    ((unprojectGrid angle center.exact plane).map fun d => decide (d.x < 0)) = g.map side := by
  obtain ⟨point, rfl⟩ := images
  rw [unprojectGrid_eq_map, Grid.map_map, Grid.map_map, Grid.map_eq_map_iff]
  intro i v _
  obtain ⟨a, polar, upright⟩ := front ((point v) - center).length
  simp only [Function.comp_apply, Vec2.exact_sub, Vec2.toPolar_exact, polar, decide_direction_lt upright]

end Images

end PlanePoint

/-- An angle behind the camera is folded to the front. -/
theorem TabulatedPerspective.radius_real (camera : TabulatedPerspective Exact) (θ : ℝ) : camera.radius (real θ) =
    if Real.pi / 2 < θ then -camera.table.lookup (real (Real.pi - θ)) else camera.table.lookup (real θ) := by
  have quarter : (pi / 2 : Exact) = real (Real.pi / 2) := by
    simp only [Exact.pi_eq, Exact.ofNat_eq, Nat.cast_ofNat, Exact.real_div two_ne_zero]
  rw [TabulatedPerspective.radius, quarter]
  simp only [Exact.real_lt, Exact.pi_eq, Exact.real_sub]

namespace Pinhole

variable (c : Pinhole)

/-- The camera with its radius read from a table of samples, evenly spaced up to the angle of `maxRadius`. -/
structure Sampled (maxRadius : ℝ) (samples : Nat) (camera : TabulatedPerspective Exact) : Prop where
  center : camera.center = c.center.exact
  spans : camera.table.Spans 0 (c.reach maxRadius)
  samples_eq : camera.table.samples = samples
  function_eq : camera.table.function = c.perspective.radius

theorem exists_sampled {maxRadius : ℝ} (wide : 0 < maxRadius) {samples : Nat} (enough : 2 ≤ samples) :
    ∃ camera, c.perspective.tabulate (real maxRadius) samples = .ok camera ∧
      c.Sampled maxRadius samples camera := by
  have range : 0 < c.perspective.angle (real maxRadius) := by
    rw [angle_exact, Exact.zero_lt_real]
    exact (c.reach_mem wide).1
  refine ⟨⟨real c.focalLength, c.center.exact, ⟨_, _, samples, c.perspective.radius, enough, range⟩⟩, ?_, rfl,
    ⟨Exact.zero_eq, c.angle_exact maxRadius⟩, rfl, rfl⟩
  rw [Perspective.tabulate, SampledTable.sample, dif_pos enough, dif_pos range]
  rfl

/-- In front of the camera only the optical axis is shown at the center. -/
theorem exists_radius {x : ℝ} (nonneg : 0 ≤ x) (acute : x < Real.pi / 2) :
    ∃ r, c.perspective.radius (real x) = real r ∧ 0 ≤ r ∧ (r = 0 ↔ x = 0) := by
  have upright : Real.cos x ≠ 0 := (Real.cos_pos_of_mem_Ioo ⟨by linarith [Real.pi_pos], acute⟩).ne'
  refine ⟨c.focalLength * Real.tan x, ?_, ?_, ?_⟩
  · exact c.radius_exact upright
  · exact mul_nonneg c.positive.le (Real.tan_nonneg_of_nonneg_of_le_pi_div_two nonneg acute.le)
  · rw [mul_eq_zero_iff_left c.positive.ne']
    refine ⟨fun zero => ?_, fun zero => by rw [zero, Real.tan_zero]⟩
    by_contra nonzero
    exact (Real.tan_pos_of_pos_of_lt_pi_div_two (lt_of_le_of_ne nonneg (Ne.symm nonzero)) acute).ne' zero

variable {c} {maxRadius : ℝ} {samples : Nat} {camera : TabulatedPerspective Exact} {v : Vec3 ℝ}

namespace Sampled

variable (sampled : c.Sampled maxRadius samples camera)
include sampled

/-- The radius that is looked up is zero less than half a step from the optical axis. -/
theorem lookup_eq (wide : 0 < maxRadius) {x : ℝ} (nonneg : 0 ≤ x) : ∃ r, camera.table.lookup (real x) = real r ∧
    0 ≤ r ∧ (r = 0 ↔ 2 * (samples - 1 : Nat) * x < c.reach maxRadius) := by
  have spans := sampled.spans
  have nearest := spans.nearestSample_eq_zero_iff nonneg
  rw [sub_zero, sub_zero, sampled.samples_eq] at nearest
  obtain ⟨y, within, input⟩ := spans.input_mem (camera.table.nearestSample_lt (real x))
  obtain ⟨r, radius, positive, center⟩ := c.exists_radius within.1 (within.2.trans_lt (c.reach_mem wide).2)
  refine ⟨r, ?_, positive, ?_⟩
  · rw [SampledTable.lookup_eq, SampledTable.output, sampled.function_eq, input, radius]
  · rw [center, ← nearest, ← spans.input_eq_low_iff, input, Exact.real.injEq]

/-- The radius is negative behind the camera, half a step or more from the rear axis. -/
theorem radius_eq (wide : 0 < maxRadius) {θ : ℝ} (angle : θ ∈ Set.Icc 0 Real.pi) :
    ∃ r, camera.radius (real θ) = real r ∧
      (r < 0 ↔ Real.pi / 2 < θ ∧ c.reach maxRadius ≤ 2 * (samples - 1 : Nat) * (Real.pi - θ)) := by
  rw [camera.radius_real]
  split
  next behind =>
    obtain ⟨r, radius, nonneg, axis⟩ := sampled.lookup_eq wide (sub_nonneg.mpr angle.2)
    refine ⟨-r, ?_, ?_⟩
    · rw [radius, Exact.real_neg]
    · rw [neg_lt_zero, and_iff_right behind, nonneg.lt_iff_ne', ← not_lt, ← axis]
  next front =>
    obtain ⟨r, radius, nonneg, -⟩ := sampled.lookup_eq wide angle.1
    exact ⟨r, radius, iff_of_false nonneg.not_gt fun within => front within.1⟩

theorem ofRadius_eq (wide : 0 < maxRadius) (depth : v.x ≠ 0) : ∃ q : Vec2 ℝ,
    PlanePoint.ofRadius camera.center (camera.radius v.exact.toCamera.toSpherical.polar)
        v.exact.toCamera.toSpherical.azimuth =
      ⟨q.exact, decide (v.Behind ∧ c.reach maxRadius ≤ 2 * (samples - 1 : Nat) * v.rearAngle)⟩ := by
  have nonzero := Vec3.ne_zero_of_depth depth
  obtain ⟨r, radius, negative⟩ := sampled.radius_eq wide v.camera.polarAngle_mem
  rw [← Vec3.rearAngle_eq, Vec3.pi_div_two_lt_polarAngle_iff nonzero] at negative
  refine ⟨Vec2.ofPolar r v.camera.azimuth + c.center, ?_⟩
  rw [Vec3.toCamera_exact, Vec3.toSpherical_exact (Vec3.camera_ne_zero nonzero), PlanePoint.ofRadius]
  simp only [radius, sampled.center, Polar.toVec2_real, Vec2.exact_add]
  have side : real r < 0 ↔ v.Behind ∧ c.reach maxRadius ≤ 2 * (samples - 1 : Nat) * v.rearAngle := by
    rw [Exact.real_lt_zero, negative]
    refine and_congr_left fun far => ⟨fun below => ⟨below, fun axis => ?_⟩, Vec3.Behind.depth⟩
    rw [Vec3.rearAngle_of_axis below axis, mul_zero] at far
    exact far.not_gt (c.reach_mem wide).1
  exact congrArg (PlanePoint.mk _) (decide_eq_decide.mpr side)

theorem images {g : Grid (Vec3 ℝ)} (wide : 0 < maxRadius) (offHorizon : ∀ i v, g.get? i = some v → v.x ≠ 0) :
    PlanePoint.Images g
      (fun v => decide (v.Behind ∧ c.reach maxRadius ≤ 2 * (samples - 1 : Nat) * v.rearAngle))
      (camera.projectGrid (g.map Vec3.exact)) := by
  choose! point shown using fun v depth => sampled.ofRadius_eq (v := v) wide depth
  refine ⟨point, ?_⟩
  rw [TabulatedPerspective.projectGrid, PlanePoint.projectGrid_eq_map, Grid.map_map, Grid.map_eq_map_iff]
  exact fun i v entry => shown v (offHorizon i v entry)

theorem exists_angle (wide : 0 < maxRadius) (r : ℝ) : ∃ a, camera.angle (real r) = real a ∧ 0 < Real.cos a := by
  obtain ⟨a, within, angle⟩ := sampled.spans.inverseLookup_mem r
  have acute := within.2.trans_lt (c.reach_mem wide).2
  exact ⟨a, angle, Real.cos_pos_of_mem_Ioo ⟨by linarith [within.1, Real.pi_pos], acute⟩⟩

end Sampled

theorem images {g : Grid (Vec3 ℝ)} (offHorizon : ∀ i v, g.get? i = some v → v.x ≠ 0) :
    PlanePoint.Images g (fun v => decide v.Behind) (c.perspective.projectGrid (g.map Vec3.exact)) := by
  refine ⟨c.image, ?_⟩
  rw [Perspective.projectGrid_eq_map, Grid.map_map, Grid.map_eq_map_iff]
  exact fun i v entry => c.project_exact (offHorizon i v entry)

theorem exists_angle (r : ℝ) : ∃ a, c.perspective.angle (real r) = real a ∧ 0 < Real.cos a :=
  ⟨_, c.angle_exact r, Real.cos_arctan_pos _⟩

/-- A camera is tabulated if the table has a range and two samples. On directions off the horizon the
tabulated camera marks the same points as virtual as the pinhole camera if and only if no direction behind it,
but for the rear axis, lies less than half a step from that axis. Either camera finds directions again on the
sides that it marked, wherever they were moved. -/
theorem isVirtual_tabulate (c : Pinhole) {maxRadius : ℝ} (wide : 0 < maxRadius) {samples : Nat}
    (enough : 2 ≤ samples) :
    ∃ camera, c.perspective.tabulate (real maxRadius) samples = .ok camera ∧
      ∀ g : Grid (Vec3 ℝ), (∀ i v, g.get? i = some v → v.x ≠ 0) →
        let sampled := camera.projectGrid (g.map Vec3.exact)
        let closed := c.perspective.projectGrid (g.map Vec3.exact)
        closed.map PlanePoint.isVirtual = g.map (fun v => decide v.Behind) ∧
          (sampled.map PlanePoint.isVirtual = closed.map PlanePoint.isVirtual ↔
            ∀ i v, g.get? i = some v → v.Behind → c.reach maxRadius ≤ 2 * (samples - 1 : Nat) * v.rearAngle) ∧
          ∀ motion : Vec2 ℝ,
            ((camera.unprojectGrid (sampled.map (.translate motion.exact))).map fun d => decide (d.x < 0)) =
                sampled.map PlanePoint.isVirtual ∧
              ((c.perspective.unprojectGrid (closed.map (.translate motion.exact))).map fun d => decide (d.x < 0)) =
                closed.map PlanePoint.isVirtual := by
  obtain ⟨camera, built, table⟩ := c.exists_sampled wide enough
  refine ⟨camera, built, fun g offHorizon => ?_⟩
  intro sampled closed
  have onTable := table.images wide offHorizon
  have onPlane := images (c := c) offHorizon
  rw [onTable.map_isVirtual, onPlane.map_isVirtual]
  refine ⟨rfl, ?_, fun motion => ⟨?_, ?_⟩⟩
  · rw [Grid.map_eq_map_iff]
    simp only [decide_eq_decide, and_iff_left_iff_imp]
  · rw [TabulatedPerspective.unprojectGrid, table.center]
    exact (onTable.translate motion).side_unprojectGrid (table.exists_angle wide) c.center
  · exact (onPlane.translate motion).side_unprojectGrid exists_angle c.center

/-- A direction behind the camera, halfway to its side. -/
theorem isVirtual_tabulate_of_halfway :
    let c : Pinhole := ⟨1, ⟨0, 0⟩, one_pos⟩
    let g : Grid (Vec3 ℝ) := .single ⟨-1, 1, 0⟩
    (0 : ℝ) < 1 ∧ 2 ≤ 2 ∧ (∀ i v, g.get? i = some v → v.x ≠ 0) ∧
      ∃ camera, c.perspective.tabulate (real 1) 2 = .ok camera ∧
        (camera.projectGrid (g.map Vec3.exact)).map PlanePoint.isVirtual =
          (c.perspective.projectGrid (g.map Vec3.exact)).map PlanePoint.isVirtual := by
  intro c g
  have offHorizon : ∀ i v, g.get? i = some v → v.x ≠ 0 := Grid.forall_single.mpr (neg_ne_zero.mpr one_ne_zero)
  obtain ⟨camera, built, each⟩ := isVirtual_tabulate c one_pos (le_refl 2)
  refine ⟨one_pos, le_rfl, offHorizon, camera, built,
    (each g offHorizon).2.1.mpr (Grid.forall_single.mpr fun _ => ?_)⟩
  have edge : c.reach 1 = Real.arctan 1 := congrArg Real.arctan (div_one 1)
  have positive := Real.arctan_pos.mpr one_pos
  rw [Vec3.rearAngle_eq_arctan zero_le_one, edge, Nat.cast_one, mul_one]
  linarith

/-- A table of two samples, and a direction behind the camera that is near the rear axis. -/
theorem isVirtual_tabulate_near_rear :
    let c : Pinhole := ⟨250, ⟨320, 240⟩, by norm_num⟩
    let g : Grid (Vec3 ℝ) := .single ⟨-1, 1 / 4, 0⟩
    (∀ i v, g.get? i = some v → v.x ≠ 0) ∧
      ∃ camera, c.perspective.tabulate (real 250) 2 = .ok camera ∧
        (c.perspective.projectGrid (g.map Vec3.exact)).map PlanePoint.isVirtual = .single true ∧
          (camera.projectGrid (g.map Vec3.exact)).map PlanePoint.isVirtual = .single false := by
  intro c g
  have offHorizon : ∀ i v, g.get? i = some v → v.x ≠ 0 := Grid.forall_single.mpr (neg_ne_zero.mpr one_ne_zero)
  have behind : (⟨-1, 1 / 4, 0⟩ : Vec3 ℝ).Behind := ⟨neg_one_lt_zero, by norm_num⟩
  have wide : (0 : ℝ) < 250 := by norm_num
  obtain ⟨camera, built, table⟩ := c.exists_sampled wide (le_refl 2)
  have near : ¬c.reach 250 ≤ 2 * (2 - 1 : Nat) * (⟨-1, 1 / 4, 0⟩ : Vec3 ℝ).rearAngle := by
    rw [not_le, Vec3.rearAngle_eq_arctan (by norm_num), Nat.cast_one, mul_one,
      Real.two_mul_arctan (by norm_num) (by norm_num)]
    exact Real.arctan_strictMono (by norm_num [c])
  refine ⟨offHorizon, camera, built, ?_, ?_⟩
  · rw [(images offHorizon).map_isVirtual, Grid.map_single, decide_eq_true behind]
  · rw [(table.images wide offHorizon).map_isVirtual, Grid.map_single, decide_eq_false fun both => near both.2]

end Pinhole

end SphereMotion
