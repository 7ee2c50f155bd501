import Mathlib
import SphereMotion.Proofs.EpipoleAngles
import SphereMotion.Proofs.SampledPinhole
import SphereMotion.Proofs.SnappedInputs

namespace SphereMotion

open Scalar
open Exact (real)

namespace Vec3

variable {θ φ ψ : ℝ}

/-- The opposite of a direction, told by the azimuth of the opposite point. -/
theorem neg_ofAngles (cosine : Real.cos ψ = -Real.cos φ) (sine : Real.sin ψ = -Real.sin φ) :
    -ofAngles θ ψ = ofAngles (Real.pi - θ) φ := by
  change (⟨-(Real.sin θ * Real.cos ψ), -(Real.sin θ * Real.sin ψ), -Real.cos θ⟩ : Vec3 ℝ) = _
  rw [cosine, sine, mul_neg, neg_neg, mul_neg, neg_neg, ofAngles, Real.sin_pi_sub, Real.cos_pi_sub]

theorem polarAngle_camera_ofAngles (polar : θ ∈ Set.Icc 0 Real.pi) (φ : ℝ) :
    (ofAngles θ φ).world.camera.polarAngle = θ := by
  rw [camera_world, polarAngle_ofAngles polar]

/-- A direction off the axis has the azimuth that it was made from. -/
theorem azimuth_camera_ofAngles (polar : θ ∈ Set.Ioo 0 Real.pi) (turn : φ ∈ Set.Ioc (-Real.pi) Real.pi) :
    (ofAngles θ φ).world.camera.azimuth = φ := by
  rw [camera_world, azimuth_ofAngles polar, Real.Angle.toReal_coe_eq_self_iff_mem_Ioc.mpr turn]

theorem onAxis_or_azimuth_camera_ofAngles (polar : θ ∈ Set.Icc 0 Real.pi) (turn : φ ∈ Set.Ioc (-Real.pi) Real.pi) :
    ((ofAngles θ φ).world.y = 0 ∧ (ofAngles θ φ).world.z = 0) ∨ (ofAngles θ φ).world.camera.azimuth = φ := by
  by_cases axis : Real.sin θ = 0
  · refine .inl ⟨?_, ?_⟩ <;> simp only [world, ofAngles, axis, zero_mul, neg_zero]
  · have ahead : θ ≠ 0 := fun zero => axis (zero ▸ Real.sin_zero)
    have behind : θ ≠ Real.pi := fun half => axis (half ▸ Real.sin_pi)
    exact .inr (azimuth_camera_ofAngles ⟨lt_of_le_of_ne polar.1 ahead.symm, lt_of_le_of_ne polar.2 behind⟩ turn)

/-- A unit vector on the side of the horizon of `v` and with its azimuth, if it has one, whose polar angle is
off by no more than `error`. -/
structure Tracks (v : Vec3 ℝ) (error : ℝ) (d : Vec3 ℝ) : Prop where
  unit : d.length = 1
  side : 0 < v.x * d.x
  polarAngle : |d.camera.polarAngle - v.camera.polarAngle| ≤ error
  azimuth : (d.y = 0 ∧ d.z = 0) ∨ d.camera.azimuth = v.camera.azimuth

theorem tracks_ofAngles {v : Vec3 ℝ} (nonzero : v ≠ ⟨0, 0, 0⟩) {error : ℝ} (polar : θ ∈ Set.Icc 0 Real.pi)
    (side : 0 < Real.cos v.camera.polarAngle * Real.cos θ) (close : |θ - v.camera.polarAngle| ≤ error) :
    v.Tracks error (ofAngles θ v.camera.azimuth).world where
  unit := (length_world _).trans (length_ofAngles _ _)
  side := by
    have positive := length_pos nonzero
    rw [cos_polarAngle_camera nonzero, div_mul_eq_mul_div] at side
    exact (div_pos_iff_of_pos_right positive).mp side
  polarAngle := by rwa [polarAngle_camera_ofAngles polar]
  azimuth := onAxis_or_azimuth_camera_ofAngles polar v.camera.azimuth_mem

end Vec3

namespace PlanePoint

/-- The image of a direction, for a camera that takes a polar angle to `radius`. -/
def project {α : Type} [Scalar α] (radius : α → α) (center : Vec2 α) (v : Vec3 α) : PlanePoint α :=
  ofRadius center (radius v.toCamera.toSpherical.polar) v.toCamera.toSpherical.azimuth

/-- The direction of an image, for a camera that takes a radius to the polar angle `angle`. -/
def unproject {α : Type} [Scalar α] (angle : α → α) (center : Vec2 α) (p : PlanePoint α) : Vec3 α :=
  direction (angle (p.point - center).toPolar.radius) (p.point - center).toPolar.azimuth p.isVirtual

variable {angle : Exact → Exact} {r θ φ : ℝ} (center : Vec2 ℝ)

theorem unproject_ofRadius (nonneg : 0 ≤ r) (found : angle (real r) = real θ) (axis : r = 0 → θ = 0)
    (turn : φ ∈ Set.Ioc (-Real.pi) Real.pi) :
    unproject angle center.exact (ofRadius center.exact (real r) (real φ)) = (Vec3.ofAngles θ φ).world.exact := by
  have polar : (Vec2.ofPolar r φ).exact.toPolar = ⟨real r, real (if r = 0 then 0 else φ)⟩ :=
    Polar.toPolar_toVec2 nonneg turn
  have side : decide (real r < 0) = false := decide_eq_false (mt Exact.real_lt_zero.mp nonneg.not_gt)
  -- At the center the azimuth is lost, but there the polar angle is zero.
  have direction : Vec3.ofAngles θ (if r = 0 then 0 else φ) = Vec3.ofAngles θ φ := by
    split
    next zero => simp only [axis zero, Vec3.ofAngles, Real.sin_zero, zero_mul]
    next => rfl
  rw [unproject, ofRadius, side, Polar.toVec2_real, Vec2.exact_add, Vec2.exact_sub, add_sub_cancel_right, polar,
    found, PlanePoint.direction, Vec3.direction_eq_ofAngles, direction]
  rfl

/-- A negative radius leads to the opposite side of the plane, and a virtual point to the opposite direction. -/
theorem unproject_ofRadius_neg (positive : 0 < r) (found : angle (real r) = real θ) (φ : ℝ) :
    unproject angle center.exact (ofRadius center.exact (real (-r)) (real φ)) =
      (Vec3.ofAngles (Real.pi - θ) φ).world.exact := by
  have length : (Vec2.ofPolar (-r) φ).length = r := by
    rw [Vec2.length_ofPolar_eq_abs, abs_neg, abs_of_pos positive]
  set ψ := (Vec2.ofPolar (-r) φ).toComplex.arg with azimuth
  have cosine : Real.cos ψ = -Real.cos φ := by
    have right := (Vec2.ofPolar (-r) φ).length_mul_cos_arg
    rw [length] at right
    exact mul_left_cancel₀ positive.ne' (right.trans (neg_mul_comm r _))
  have sine : Real.sin ψ = -Real.sin φ := by
    have down := (Vec2.ofPolar (-r) φ).length_mul_sin_arg
    rw [length] at down
    exact mul_left_cancel₀ positive.ne' (down.trans (neg_mul_comm r _))
  have side : decide (real (-r) < 0) = true := decide_eq_true (Exact.real_lt_zero.mpr (neg_neg_of_pos positive))
  rw [unproject, ofRadius, side, Polar.toVec2_real, Vec2.exact_add, Vec2.exact_sub, add_sub_cancel_right,
    Vec2.toPolar_exact, length, found, PlanePoint.direction, Vec3.direction_eq_ofAngles,
    ← Vec3.neg_ofAngles cosine sine]
  rfl

end PlanePoint

/-- Directions are projected and found again one by one. -/
theorem TabulatedPerspective.get?_unprojectGrid (camera : TabulatedPerspective Exact) {g : Grid (Vec3 Exact)}
    {i : Nat} {v : Vec3 Exact} (entry : g.get? i = some v) :
    (camera.unprojectGrid (camera.projectGrid g)).get? i =
      some (PlanePoint.unproject camera.angle camera.center
          (PlanePoint.project camera.radius camera.center v)) := by
  rw [unprojectGrid, projectGrid, PlanePoint.unprojectGrid_eq_map, PlanePoint.projectGrid_eq_map, Grid.map_map,
    Grid.get?_map, entry]
  rfl

namespace Pinhole

/-- The angle of the sample that `x` is rounded to, and the radius that is tabulated for it. -/
structure Snaps (c : Pinhole) (maxRadius : ℝ) (samples : Nat) (camera : TabulatedPerspective Exact) (x θ r : ℝ) :
    Prop where
  lookup : camera.table.lookup (real x) = real r
  angle : camera.angle (real r) = real θ
  nonneg : 0 ≤ r
  center : r = 0 ↔ θ = 0
  within : θ ∈ Set.Icc 0 (c.reach maxRadius)
  below : θ - max 0 (min x (c.reach maxRadius)) ≤ c.reach maxRadius / (samples - 1 : Nat) / 2
  above : max 0 (min x (c.reach maxRadius)) - θ < c.reach maxRadius / (samples - 1 : Nat) / 2
  beyond : c.reach maxRadius ≤ x → θ = c.reach maxRadius

variable {c : Pinhole} {maxRadius : ℝ} {samples : Nat} {camera : TabulatedPerspective Exact}

namespace Sampled

variable (sampled : c.Sampled maxRadius samples camera)
include sampled

theorem place_mem (i : Fin camera.table.samples) :
    camera.table.place 0 (c.reach maxRadius) i ∈ Set.Icc 0 (c.reach maxRadius) := by
  obtain ⟨x, within, input⟩ := sampled.spans.input_mem i.isLt
  rw [sampled.spans.input_eq_place, Exact.real.injEq] at input
  exact input ▸ within

theorem gap_eq : camera.table.gap 0 (c.reach maxRadius) = c.reach maxRadius / (samples - 1 : Nat) := by
  rw [SampledTable.gap, sampled.samples_eq, sub_zero]

variable (wide : 0 < maxRadius)
include wide

theorem place_mem_Ioo (i : Fin camera.table.samples) :
    camera.table.place 0 (c.reach maxRadius) i ∈ Set.Ioo (-(Real.pi / 2)) (Real.pi / 2) := by
  obtain ⟨nonneg, upTo⟩ := sampled.place_mem i
  exact ⟨by linarith [Real.pi_pos], upTo.trans_lt (c.reach_mem wide).2⟩

theorem tabulates :
    camera.table.Tabulates fun i => c.focalLength * Real.tan (camera.table.place 0 (c.reach maxRadius) i) := by
  intro i
  rw [SampledTable.output, sampled.function_eq, sampled.spans.input_eq_place]
  exact c.radius_exact (Real.cos_pos_of_mem_Ioo (sampled.place_mem_Ioo wide i)).ne'

theorem strictMono_radius :
    StrictMono fun i : Fin camera.table.samples =>
      c.focalLength * Real.tan (camera.table.place 0 (c.reach maxRadius) i) := by
  intro i j before
  have gap := sampled.spans.gap_pos
  have apart := sampled.spans.place_add_gap_le before
  exact mul_lt_mul_of_pos_left (Real.strictMonoOn_tan (sampled.place_mem_Ioo wide i) (sampled.place_mem_Ioo wide j)
    (by linarith)) c.positive

theorem exists_snaps (x : ℝ) : ∃ θ r, c.Snaps maxRadius samples camera x θ r := by
  obtain ⟨i, nearest, lookup⟩ := (sampled.tabulates wide).exists_lookup x
  obtain ⟨below, above⟩ := sampled.spans.place_nearestSample x
  have found := (sampled.tabulates wide).inverseLookup_value (sampled.strictMono_radius wide) i
  have within := sampled.place_mem i
  have acute := sampled.place_mem_Ioo wide i
  obtain ⟨r, radius, nonneg, center⟩ := c.exists_radius within.1 acute.2
  rw [c.radius_exact (Real.cos_pos_of_mem_Ioo acute).ne', Exact.real.injEq] at radius
  rw [sampled.spans.input_eq_place, radius] at found
  rw [← nearest, sampled.gap_eq] at below above
  exact ⟨_, r, radius ▸ lookup, found, nonneg, center, within, below, above,
    fun beyond => nearest ▸ sampled.spans.place_nearestSample_of_le beyond⟩

end Sampled

variable {x θ r : ℝ}

namespace Snaps

variable (snaps : c.Snaps maxRadius samples camera x θ r)
include snaps

theorem lt_quarter (wide : 0 < maxRadius) : θ < Real.pi / 2 := snaps.within.2.trans_lt (c.reach_mem wide).2

theorem abs_sub_le (within : x ∈ Set.Icc 0 (c.reach maxRadius)) :
    |θ - x| ≤ c.reach maxRadius / (samples - 1 : Nat) / 2 := by
  have below := snaps.below
  have above := snaps.above
  rw [min_eq_left within.2, max_eq_right within.1] at below above
  exact abs_le.mpr ⟨by linarith, below⟩

end Snaps

namespace Sampled

variable {v : Vec3 ℝ} (sampled : c.Sampled maxRadius samples camera) (nonzero : v ≠ ⟨0, 0, 0⟩)
include sampled nonzero

theorem unproject_project_of_front (snaps : c.Snaps maxRadius samples camera v.camera.polarAngle θ r)
    (front : v.camera.polarAngle ≤ Real.pi / 2) :
    PlanePoint.unproject camera.angle camera.center (PlanePoint.project camera.radius camera.center v.exact) =
      (Vec3.ofAngles θ v.camera.azimuth).world.exact := by
  rw [PlanePoint.project, Vec3.toCamera_exact, Vec3.toSpherical_exact (Vec3.camera_ne_zero nonzero),
    camera.radius_real, if_neg front.not_gt, snaps.lookup, sampled.center]
  exact PlanePoint.unproject_ofRadius c.center snaps.nonneg snaps.angle snaps.center.mp v.camera.azimuth_mem

theorem unproject_project_of_rear (snaps : c.Snaps maxRadius samples camera (Real.pi - v.camera.polarAngle) θ r)
    (rear : Real.pi / 2 < v.camera.polarAngle) (offAxis : θ ≠ 0) :
    PlanePoint.unproject camera.angle camera.center (PlanePoint.project camera.radius camera.center v.exact) =
      (Vec3.ofAngles (Real.pi - θ) v.camera.azimuth).world.exact := by
  have positive : 0 < r := lt_of_le_of_ne snaps.nonneg fun zero => offAxis (snaps.center.mp zero.symm)
  rw [PlanePoint.project, Vec3.toCamera_exact, Vec3.toSpherical_exact (Vec3.camera_ne_zero nonzero),
    camera.radius_real, if_pos rear, snaps.lookup, Exact.real_neg, sampled.center]
  exact PlanePoint.unproject_ofRadius_neg c.center positive snaps.angle _

variable (wide : 0 < maxRadius)
include wide

theorem exists_tracks_of_front (reached : v.camera.polarAngle ≤ c.reach maxRadius) : ∃ d : Vec3 ℝ,
    PlanePoint.unproject camera.angle camera.center (PlanePoint.project camera.radius camera.center v.exact) =
      d.exact ∧
      v.Tracks (c.reach maxRadius / (samples - 1 : Nat) / 2) d := by
  have acute := reached.trans_lt (c.reach_mem wide).2
  have nonneg := v.camera.polarAngle_mem.1
  obtain ⟨θ, r, snaps⟩ := sampled.exists_snaps wide v.camera.polarAngle
  have acute' := snaps.lt_quarter wide
  have pos := Real.pi_pos
  refine ⟨_, sampled.unproject_project_of_front nonzero snaps acute.le,
    Vec3.tracks_ofAngles nonzero ⟨snaps.within.1, by linarith⟩ ?_ (snaps.abs_sub_le ⟨nonneg, reached⟩)⟩
  exact mul_pos (Real.cos_pos_of_mem_Ioo ⟨by linarith, acute⟩)
    (Real.cos_pos_of_mem_Ioo ⟨by linarith [snaps.within.1], acute'⟩)

theorem exists_tracks_of_rear (reached : Real.pi - v.camera.polarAngle ≤ c.reach maxRadius)
    (far : c.reach maxRadius / (samples - 1 : Nat) / 2 < Real.pi - v.camera.polarAngle) : ∃ d : Vec3 ℝ,
    PlanePoint.unproject camera.angle camera.center (PlanePoint.project camera.radius camera.center v.exact) =
      d.exact ∧
      v.Tracks (c.reach maxRadius / (samples - 1 : Nat) / 2) d := by
  have acute := reached.trans_lt (c.reach_mem wide).2
  have upTo := v.camera.polarAngle_mem.2
  obtain ⟨θ, r, snaps⟩ := sampled.exists_snaps wide (Real.pi - v.camera.polarAngle)
  have acute' := snaps.lt_quarter wide
  have close := snaps.abs_sub_le ⟨sub_nonneg.mpr upTo, reached⟩
  have offAxis : θ ≠ 0 := by
    rintro rfl
    rw [zero_sub, abs_neg, abs_of_nonneg (sub_nonneg.mpr upTo)] at close
    exact close.not_gt far
  have error : Real.pi - θ - v.camera.polarAngle = -(θ - (Real.pi - v.camera.polarAngle)) := by ring
  refine ⟨_, sampled.unproject_project_of_rear nonzero snaps (by linarith) offAxis,
    Vec3.tracks_ofAngles nonzero ⟨by linarith, by linarith [snaps.within.1]⟩ ?_ (by rwa [error, abs_neg])⟩
  rw [Real.cos_pi_sub, ← neg_mul_comm, ← Real.cos_pi_sub]
  exact mul_pos (Real.cos_pos_of_mem_Ioo ⟨by linarith [Real.pi_pos], acute⟩)
    (Real.cos_pos_of_mem_Ioo ⟨by linarith [snaps.within.1, Real.pi_pos], acute'⟩)

/-- Beyond the table a direction in front of the camera is given back at its end. -/
theorem exists_saturated (beyond : c.reach maxRadius ≤ v.camera.polarAngle)
    (front : v.camera.polarAngle ≤ Real.pi / 2) :
    ∃ d : Vec3 ℝ, PlanePoint.unproject camera.angle camera.center
        (PlanePoint.project camera.radius camera.center v.exact) = d.exact ∧
      d.length = 1 ∧ d.camera.polarAngle = c.reach maxRadius ∧ d.camera.azimuth = v.camera.azimuth := by
  obtain ⟨θ, r, snaps⟩ := sampled.exists_snaps wide v.camera.polarAngle
  obtain ⟨positive, acute⟩ := c.reach_mem wide
  have below : c.reach maxRadius < Real.pi := by linarith [Real.pi_pos]
  have direction := sampled.unproject_project_of_front nonzero snaps front
  rw [snaps.beyond beyond] at direction
  exact ⟨_, direction, (Vec3.length_world _).trans (Vec3.length_ofAngles _ _),
    Vec3.polarAngle_camera_ofAngles ⟨positive.le, below.le⟩ _,
    Vec3.azimuth_camera_ofAngles ⟨positive, below⟩ v.camera.azimuth_mem⟩

end Sampled

/-- A direction that is not farther from the axis than the table reaches, behind the camera from the
rear axis and more than half a step, is given back within half a step, on its side of the horizon and
with its azimuth, unless it is given back on the axis. In front of the camera a direction beyond the
table is given back at its end. -/
theorem unproject_project_tabulate (c : Pinhole) {maxRadius : ℝ} (wide : 0 < maxRadius) {samples : Nat}
    (enough : 2 ≤ samples) :
    ∃ camera, c.perspective.tabulate (real maxRadius) samples = .ok camera ∧
      ∀ (g : Grid (Vec3 ℝ)) (i : Nat) (v : Vec3 ℝ), g.get? i = some v → v ≠ ⟨0, 0, 0⟩ →
        let back := camera.unprojectGrid (camera.projectGrid (g.map Vec3.exact))
        let step := c.reach maxRadius / (samples - 1 : Nat)
        let t := v.camera.polarAngle
        (t ≤ c.reach maxRadius ∨ Real.pi - t ≤ c.reach maxRadius ∧ step / 2 < Real.pi - t →
          ∃ d : Vec3 ℝ, back.get? i = some d.exact ∧ v.Tracks (step / 2) d) ∧
        (c.reach maxRadius < t → t ≤ Real.pi / 2 →
          ∃ d : Vec3 ℝ, back.get? i = some d.exact ∧ d.length = 1 ∧ d.camera.polarAngle = c.reach maxRadius ∧
            d.camera.azimuth = v.camera.azimuth) := by
  obtain ⟨camera, built, sampled⟩ := c.exists_sampled wide enough
  refine ⟨camera, built, fun g i v entry nonzero => ?_⟩
  intro back step t
  have shown : (g.map Vec3.exact).get? i = some v.exact := by rw [Grid.get?_map, entry, Option.map_some]
  have cell := camera.get?_unprojectGrid shown
  refine ⟨fun reached => ?_, fun beyond front => ?_⟩
  · rcases reached with front | ⟨reached, far⟩
    · obtain ⟨d, direction, tracks⟩ := sampled.exists_tracks_of_front nonzero wide front
      exact ⟨d, cell.trans (congrArg some direction), tracks⟩
    · obtain ⟨d, direction, tracks⟩ := sampled.exists_tracks_of_rear nonzero wide reached far
      exact ⟨d, cell.trans (congrArg some direction), tracks⟩
  · obtain ⟨d, direction, saturated⟩ := sampled.exists_saturated nonzero wide beyond.le front
    exact ⟨d, cell.trans (congrArg some direction), saturated⟩

/-- A table of two samples, a direction behind the camera, halfway to its side, and one straight to the side. -/
theorem unproject_project_tabulate_of_sides :
    let c : Pinhole := ⟨1, ⟨0, 0⟩, one_pos⟩
    let behind : Vec3 ℝ := ⟨-1, 1, 0⟩
    let side : Vec3 ℝ := ⟨0, 1, 0⟩
    ((0 : ℝ) < 1 ∧ 2 ≤ 2) ∧
      ((Real.pi - behind.camera.polarAngle ≤ c.reach 1 ∧
          c.reach 1 / (2 - 1 : Nat) / 2 < Real.pi - behind.camera.polarAngle) ∧
        c.reach 1 < side.camera.polarAngle ∧ side.camera.polarAngle ≤ Real.pi / 2) ∧
      ∃ camera, c.perspective.tabulate (real 1) 2 = .ok camera ∧
        (∃ d : Vec3 ℝ, (camera.unprojectGrid (camera.projectGrid (.single behind.exact))).get? 0 = some d.exact ∧
          behind.Tracks (c.reach 1 / (2 - 1 : Nat) / 2) d) ∧
        ∃ d : Vec3 ℝ, (camera.unprojectGrid (camera.projectGrid (.single side.exact))).get? 0 = some d.exact ∧
          d.camera.polarAngle = c.reach 1 := by
  intro c behind side
  have edge : c.reach 1 = Real.arctan 1 := congrArg Real.arctan (div_one 1)
  have positive := Real.arctan_pos.mpr one_pos
  have nonzero : side ≠ ⟨0, 0, 0⟩ := fun zero => one_ne_zero (congrArg Vec3.y zero)
  have rear : Real.pi - behind.camera.polarAngle = c.reach 1 := by
    rw [← Vec3.rearAngle_eq, Vec3.rearAngle_eq_arctan zero_le_one, edge]
  have reached : Real.pi - behind.camera.polarAngle ≤ c.reach 1 ∧
      c.reach 1 / (2 - 1 : Nat) / 2 < Real.pi - behind.camera.polarAngle := by
    rw [rear, Nat.cast_one, div_one, edge]
    exact ⟨le_rfl, half_lt_self positive⟩
  have square : side.camera.polarAngle = Real.pi / 2 := by
    rw [← Real.arccos_cos side.camera.polarAngle_mem.1 side.camera.polarAngle_mem.2,
      Vec3.cos_polarAngle_camera nonzero, zero_div, Real.arccos_zero]
  have beyond : c.reach 1 < side.camera.polarAngle := square ▸ edge ▸ Real.arctan_lt_pi_div_two 1
  obtain ⟨camera, built, each⟩ := unproject_project_tabulate c one_pos (le_refl 2)
  have back := (each (.single behind) 0 behind rfl (Vec3.ne_zero_of_depth (neg_ne_zero.mpr one_ne_zero))).1
    (.inr reached)
  rw [Grid.map_single] at back
  obtain ⟨d, shown, -, saturated, -⟩ := (each (.single side) 0 side rfl nonzero).2 beyond square.le
  rw [Grid.map_single] at shown
  exact ⟨⟨one_pos, le_rfl⟩, ⟨reached, beyond, square.le⟩, camera, built, back, d, shown, saturated⟩

end Pinhole

end SphereMotion
