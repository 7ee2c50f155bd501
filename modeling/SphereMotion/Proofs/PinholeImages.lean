import Mathlib
import SphereMotion.Perspective
import SphereMotion.Proofs.ExactSphere

namespace SphereMotion

open Scalar
open Exact (real)

namespace Vec2

/-- The displacement itself or its opposite. -/
noncomputable def mirrored (back : Bool) (p : Vec2 ℝ) : Vec2 ℝ := if back then -p else p

theorem mirrored_zero (back : Bool) : mirrored back 0 = 0 := by
  cases back
  · rfl
  · exact neg_zero

theorem mirrored_self (back : Bool) (p : Vec2 ℝ) : (p.mirrored back).mirrored back = p := by
  cases back
  · rfl
  · exact neg_neg p

end Vec2

namespace Vec3

variable {v : Vec3 ℝ}

/-- A direction behind the camera which is not on its axis. -/
structure Behind (v : Vec3 ℝ) : Prop where
  depth : v.x < 0
  offAxis : ¬(v.y = 0 ∧ v.z = 0)

noncomputable instance : Decidable v.Behind := Classical.propDecidable _

theorem behind_neg_iff : (-v).Behind ↔ 0 < v.x ∧ ¬(v.y = 0 ∧ v.z = 0) := by
  constructor
  · rintro ⟨depth, offAxis⟩
    exact ⟨neg_neg_iff_pos.mp depth, fun axis => offAxis ⟨neg_eq_zero.mpr axis.1, neg_eq_zero.mpr axis.2⟩⟩
  · rintro ⟨front, offAxis⟩
    exact ⟨neg_neg_iff_pos.mpr front, fun axis => offAxis ⟨neg_eq_zero.mp axis.1, neg_eq_zero.mp axis.2⟩⟩

theorem ne_zero_of_depth (depth : v.x ≠ 0) : v ≠ ⟨0, 0, 0⟩ := fun zero => depth (congrArg Vec3.x zero)

/-- The distance from the viewing axis. -/
noncomputable def axisDistance (v : Vec3 ℝ) : ℝ := (⟨-v.y, -v.z⟩ : Vec2 ℝ).length

theorem axisDistance_eq_zero : v.axisDistance = 0 ↔ v.y = 0 ∧ v.z = 0 := by
  rw [axisDistance, Vec2.length, norm_eq_zero]
  simp [Vec2.toComplex, Complex.ext_iff]

theorem length_of_axis (axis : v.y = 0 ∧ v.z = 0) : v.length = |v.x| := by
  rw [length, axis.1, axis.2, mul_zero, add_zero, add_zero, Real.sqrt_mul_self_eq_abs]

theorem cos_polarAngle_camera (nonzero : v ≠ ⟨0, 0, 0⟩) : Real.cos v.camera.polarAngle = v.x / v.length := by
  have within := cosine_mem (camera_ne_zero nonzero)
  rw [polarAngle, Real.cos_arccos within.1 within.2, length_camera]
  rfl

/-- The tangent of the angle to the viewing axis, negative behind the camera. -/
theorem tan_polarAngle_camera (depth : v.x ≠ 0) : Real.tan v.camera.polarAngle = v.axisDistance / v.x := by
  have nonzero := ne_zero_of_depth depth
  have positive := length_pos nonzero
  have sine : v.length * Real.sin v.camera.polarAngle = v.axisDistance := by
    rw [← length_camera]
    exact length_mul_sin_polarAngle (camera_ne_zero nonzero)
  rw [Real.tan_eq_sin_div_cos, cos_polarAngle_camera nonzero, ← sine]
  field_simp

theorem polarAngle_camera_lt (front : 0 < v.x) : v.camera.polarAngle < Real.pi / 2 := by
  rw [polarAngle, Real.arccos_lt_pi_div_two, length_camera]
  exact div_pos front (length_pos (ne_zero_of_depth front.ne'))

theorem arctan_slope (front : 0 < v.x) : Real.arctan (v.axisDistance / v.x) = v.camera.polarAngle := by
  have lower := v.camera.polarAngle_mem.1
  rw [← tan_polarAngle_camera front.ne', Real.arctan_tan (by linarith [Real.pi_pos]) (polarAngle_camera_lt front)]

/-- The vector itself or its opposite. -/
noncomputable def mirrored (back : Bool) (v : Vec3 ℝ) : Vec3 ℝ := if back then -v else v

theorem mirrored_mirrored (a b : Bool) (v : Vec3 ℝ) : (v.mirrored a).mirrored b = v.mirrored (a ^^ b) := by
  cases a <;> cases b <;> simp [mirrored]

theorem mirrored_front (depth : v.x ≠ 0) : 0 < (v.mirrored (decide (v.x < 0))).x := by
  by_cases below : v.x < 0
  · rw [decide_eq_true below]
    exact neg_pos.mpr below
  · rw [decide_eq_false below]
    exact lt_of_le_of_ne (not_lt.mp below) depth.symm

theorem normalized_mirrored (back : Bool) (v : Vec3 ℝ) :
    (v.mirrored back).normalized = v.normalized.mirrored back := by
  cases back
  · rfl
  · exact v.normalized_neg

theorem length_mirrored (back : Bool) (v : Vec3 ℝ) : (v.mirrored back).length = v.length := by
  cases back
  · rfl
  · exact v.length_neg

end Vec3

namespace PlanePoint

theorem sign_eq (p : PlanePoint Exact) : p.sign = real (if p.isVirtual then -1 else 1) := by
  rw [sign]
  split <;> simp only [Exact.ofNat_eq, Exact.real_neg, Nat.cast_one]

theorem translate_exact (q motion : Vec2 ℝ) (isVirtual : Bool) :
    PlanePoint.translate motion.exact ⟨q.exact, isVirtual⟩ =
      ⟨(q + motion.mirrored isVirtual).exact, isVirtual⟩ := by
  rw [translate, sign_eq]
  simp only [Vec2.exact, Exact.real_mul, Exact.real_add]
  cases isVirtual <;> simp only [Bool.false_eq_true, ↓reduceIte, one_mul, neg_one_mul] <;> rfl

theorem scale_sign_exact (q p : Vec2 ℝ) (isVirtual : Bool) :
    q.exact.scale (PlanePoint.sign ⟨p.exact, isVirtual⟩) = (q.mirrored isVirtual).exact := by
  rw [Vec2.scale, sign_eq]
  simp only [Vec2.exact, Exact.real_mul]
  cases isVirtual
  · simp only [Bool.false_eq_true, ↓reduceIte, mul_one, Vec2.mirrored]
  · simp only [↓reduceIte, mul_neg_one]
    rfl

end PlanePoint

/-- A pinhole camera, by its real parameters. -/
structure Pinhole where
  focalLength : ℝ
  center : Vec2 ℝ
  positive : 0 < focalLength

namespace Pinhole

variable (c : Pinhole) {v : Vec3 ℝ}

def perspective : Perspective Exact := ⟨real c.focalLength, c.center.exact⟩

/-- The polar angle of a radius. -/
noncomputable def reach (radius : ℝ) : ℝ := Real.arctan (radius / c.focalLength)

theorem reach_mem {radius : ℝ} (wide : 0 < radius) : c.reach radius ∈ Set.Ioo 0 (Real.pi / 2) :=
  ⟨Real.arctan_pos.mpr (div_pos wide c.positive), Real.arctan_lt_pi_div_two _⟩

theorem angle_exact (radius : ℝ) : c.perspective.angle (real radius) = real (c.reach radius) := by
  rw [Perspective.angle, perspective, Exact.real_div c.positive.ne', Exact.atan_real, reach]

theorem radius_exact {angle : ℝ} (upright : Real.cos angle ≠ 0) :
    c.perspective.radius (real angle) = real (c.focalLength * Real.tan angle) := by
  rw [Perspective.radius, Exact.tan_real upright]
  rfl

/-- The image of a direction off the horizon. -/
noncomputable def image (v : Vec3 ℝ) : Vec2 ℝ :=
  ⟨c.focalLength * (-v.y / v.x) + c.center.x, c.focalLength * (-v.z / v.x) + c.center.y⟩

/-- The ray to the front through an image point. -/
noncomputable def ray (q : Vec2 ℝ) : Vec3 ℝ := ⟨c.focalLength, -(q.x - c.center.x), -(q.y - c.center.y)⟩

theorem image_ray (q : Vec2 ℝ) : c.image (c.ray q) = q := by
  have := c.positive.ne'
  apply Vec2.ext <;> simp only [image, ray] <;> field_simp <;> ring

theorem ray_image (depth : v.x ≠ 0) :
    c.ray (c.image v) = v.scaled (c.focalLength / v.x) := by
  apply Vec3.ext <;> simp only [ray, image, Vec3.scaled] <;> field_simp <;> ring

theorem ray_ne_zero (q : Vec2 ℝ) : c.ray q ≠ ⟨0, 0, 0⟩ := Vec3.ne_zero_of_depth c.positive.ne'

theorem image_mirrored (back : Bool) (v : Vec3 ℝ) : c.image (v.mirrored back) = c.image v := by
  cases back
  · rfl
  · exact Vec2.ext (congrArg (c.focalLength * · + c.center.x) (neg_div_neg_eq (-v.y) v.x))
      (congrArg (c.focalLength * · + c.center.y) (neg_div_neg_eq (-v.z) v.x))

theorem image_normalized (nonzero : v ≠ ⟨0, 0, 0⟩) : c.image v.normalized = c.image v := by
  have positive := Vec3.length_pos nonzero
  apply Vec2.ext <;> simp only [image, Vec3.normalized, neg_div'] <;> congr 2 <;> field_simp

/-- The ray through the image of a direction points the same way or, from behind the camera, the opposite way. -/
theorem normalized_ray_image (depth : v.x ≠ 0) :
    (c.ray (c.image v)).normalized = (v.mirrored (decide (v.x < 0))).normalized := by
  have front := Vec3.mirrored_front depth
  rw [← c.image_mirrored (decide (v.x < 0)) v, c.ray_image front.ne',
    Vec3.normalized_scaled (div_pos c.positive front)]

/-- The radius of the image is negative behind the camera, but on its axis it is zero. -/
theorem radius_neg_iff : c.focalLength * (v.axisDistance / v.x) < 0 ↔ v.Behind := by
  have distance : 0 ≤ v.axisDistance := Vec2.length_nonneg _
  have sign : c.focalLength * (v.axisDistance / v.x) < 0 ↔ v.axisDistance / v.x < 0 :=
    smul_neg_iff_of_pos_left c.positive
  rw [sign]
  constructor
  · intro negative
    refine ⟨?_, fun axis => ?_⟩
    · by_contra front
      exact negative.not_ge (div_nonneg distance (not_lt.mp front))
    · rw [Vec3.axisDistance_eq_zero.mpr axis, zero_div] at negative
      exact negative.false
  · rintro ⟨below, offAxis⟩
    exact div_neg_of_pos_of_neg (lt_of_le_of_ne distance (mt (Vec3.axisDistance_eq_zero.mp ∘ Eq.symm) offAxis))
      below

/-- A direction off the horizon has an image, which is virtual if it lies behind the camera and off its axis. -/
theorem project_exact (depth : v.x ≠ 0) :
    c.perspective.project v.exact = ⟨(c.image v).exact, decide v.Behind⟩ := by
  have nonzero := Vec3.ne_zero_of_depth depth
  have radius : c.perspective.radius (real v.camera.polarAngle) =
      real (c.focalLength * (v.axisDistance / v.x)) := by
    have upright : Real.cos v.camera.polarAngle ≠ 0 := by
      rw [Vec3.cos_polarAngle_camera nonzero]
      exact div_ne_zero depth (Vec3.length_pos nonzero).ne'
    rw [c.radius_exact upright, Vec3.tan_polarAngle_camera depth]
  have right : v.axisDistance * Real.cos v.camera.azimuth = -v.y := Vec2.length_mul_cos_arg _
  have down : v.axisDistance * Real.sin v.camera.azimuth = -v.z := Vec2.length_mul_sin_arg _
  have point : Vec2.ofPolar (c.focalLength * (v.axisDistance / v.x)) v.camera.azimuth + c.center = c.image v := by
    apply Vec2.ext
    · change c.focalLength * (v.axisDistance / v.x) * Real.cos v.camera.azimuth + c.center.x = _
      rw [image, ← right]
      ring
    · change c.focalLength * (v.axisDistance / v.x) * Real.sin v.camera.azimuth + c.center.y = _
      rw [image, ← down]
      ring
  have side : real (c.focalLength * (v.axisDistance / v.x)) < 0 ↔ v.Behind := by
    rw [Exact.real_lt_zero, c.radius_neg_iff]
  rw [Perspective.project, Vec3.toCamera_exact, Vec3.toSpherical_exact (Vec3.camera_ne_zero nonzero),
    PlanePoint.ofRadius]
  simp only [radius, Polar.toVec2_real, side, ← point]
  rfl

/-- The direction of an image point is that of the ray through it, or the opposite one for a virtual point. -/
noncomputable def direction (q : Vec2 ℝ) (isVirtual : Bool) : Vec3 ℝ := (c.ray q).normalized.mirrored isVirtual

theorem unproject_exact (q : Vec2 ℝ) (isVirtual : Bool) :
    c.perspective.unproject ⟨q.exact, isVirtual⟩ = (c.direction q isVirtual).exact := by
  have nonzero := c.ray_ne_zero q
  have distance : (c.ray q).axisDistance = q.distance c.center :=
    congrArg Vec2.length (Vec2.ext (neg_neg _) (neg_neg _))
  have angle : c.perspective.angle (real (q.distance c.center)) = real (c.ray q).camera.polarAngle := by
    rw [c.angle_exact, reach, ← distance]
    exact congrArg real (Vec3.arctan_slope c.positive)
  have azimuth : (q - c.center).toComplex.arg = (c.ray q).camera.azimuth :=
    congrArg (fun p : Vec2 ℝ => p.toComplex.arg) (Vec2.ext (neg_neg _).symm (neg_neg _).symm)
  have front : (Spherical.direction (real (c.ray q).camera.polarAngle) (real (c.ray q).camera.azimuth)).ofCamera =
      (c.ray q).normalized.exact := by
    rw [Vec3.direction_angles (Vec3.camera_ne_zero nonzero), Vec3.ofCamera_exact, Vec3.world_normalized_camera]
  have polar : (q.exact - c.center.exact).toPolar =
      ⟨real (q.distance c.center), real (c.ray q).camera.azimuth⟩ := by
    rw [Vec2.exact_sub, Vec2.toPolar_exact, azimuth]
    rfl
  rw [Perspective.unproject]
  simp only [perspective, polar]
  rw [← perspective, angle, PlanePoint.direction]
  simp only [front]
  cases isVirtual <;> rfl

theorem length_direction (q : Vec2 ℝ) (isVirtual : Bool) : (c.direction q isVirtual).length = 1 := by
  rw [direction, Vec3.length_mirrored, Vec3.length_normalized (c.ray_ne_zero q)]

theorem depth_direction (q : Vec2 ℝ) (isVirtual : Bool) : (c.direction q isVirtual).x ≠ 0 := by
  have front : 0 < (c.ray q).normalized.x := div_pos c.positive (Vec3.length_pos (c.ray_ne_zero q))
  cases isVirtual
  · exact front.ne'
  · exact (neg_neg_of_pos front).ne

theorem image_direction (q : Vec2 ℝ) (isVirtual : Bool) : c.image (c.direction q isVirtual) = q := by
  rw [direction, image_mirrored, c.image_normalized (c.ray_ne_zero q), image_ray]

/-- The image of a vector leads back to its direction if it is marked as virtual behind the camera, and to the
opposite one if it is marked the other way. -/
theorem direction_image_normalized (depth : v.x ≠ 0) (isVirtual : Bool) :
    c.direction (c.image v) isVirtual = v.normalized.mirrored (decide (v.x < 0) ^^ isVirtual) := by
  rw [direction, c.normalized_ray_image depth, Vec3.normalized_mirrored, Vec3.mirrored_mirrored]

theorem direction_image (unit : v.length = 1) (depth : v.x ≠ 0) (isVirtual : Bool) :
    c.direction (c.image v) isVirtual = v.mirrored (decide (v.x < 0) ^^ isVirtual) := by
  rw [c.direction_image_normalized depth, Vec3.normalized_of_length unit]

theorem behind_direction {q : Vec2 ℝ} {isVirtual : Bool} (regular : ¬(q = c.center ∧ isVirtual = true)) :
    (c.direction q isVirtual).Behind ↔ isVirtual = true := by
  have positive := Vec3.length_pos (c.ray_ne_zero q)
  cases isVirtual with
  | false =>
    have front : 0 < (c.ray q).normalized.x := div_pos c.positive positive
    exact ⟨fun behind => absurd behind.depth front.not_gt, fun impossible => absurd impossible Bool.false_ne_true⟩
  | true =>
    refine ⟨fun _ => rfl, fun _ => ⟨neg_neg_of_pos (div_pos c.positive positive), fun axis => regular ⟨?_, rfl⟩⟩⟩
    have zero {x : ℝ} (onAxis : -(-x / (c.ray q).length) = 0) : x = 0 := by
      simpa [positive.ne'] using onAxis
    exact Vec2.ext (sub_eq_zero.mp (zero axis.1)) (sub_eq_zero.mp (zero axis.2))

/-- The flag of an image tells the two sides of the horizon apart, and with it the image leads back to the
direction. Opposite directions share the image point and differ in the flag, but on the axis neither is marked
as virtual. With the exception of a virtual center every image is that of the direction that it leads to. -/
theorem inverse_off_horizon (c : Pinhole) :
    (∀ v : Vec3 ℝ, v.x ≠ 0 → ¬(v.x < 0 ∧ v.y = 0 ∧ v.z = 0) →
      ∃ p : Vec2 ℝ, c.perspective.project v.exact = ⟨p.exact, decide (v.x < 0)⟩ ∧
        c.perspective.unproject ⟨p.exact, decide (v.x < 0)⟩ = v.exact.normalize ∧
        (c.perspective.project (-v.exact)).point = p.exact ∧
        ((c.perspective.project (-v.exact)).isVirtual = !decide (v.x < 0) ↔ ¬(v.y = 0 ∧ v.z = 0))) ∧
    ∀ (p : Vec2 ℝ) (isVirtual : Bool), ¬(p = c.center ∧ isVirtual = true) →
      c.perspective.project (c.perspective.unproject ⟨p.exact, isVirtual⟩) = ⟨p.exact, isVirtual⟩ := by
  refine ⟨fun v depth notRear => ⟨c.image v, ?_, ?_, ?_, ?_⟩, fun p isVirtual regular => ?_⟩
  · have side : v.Behind ↔ v.x < 0 := ⟨Vec3.Behind.depth, fun below => ⟨below, fun axis => notRear ⟨below, axis⟩⟩⟩
    rw [c.project_exact depth, decide_eq_decide.mpr side]
  · rw [c.unproject_exact, c.direction_image_normalized depth, Bool.xor_self,
      Vec3.normalize_exact (Vec3.ne_zero_of_depth depth)]
    rfl
  · rw [Vec3.exact_neg, c.project_exact (neg_ne_zero.mpr depth)]
    exact congrArg Vec2.exact (c.image_mirrored true v)
  · rw [Vec3.exact_neg, c.project_exact (neg_ne_zero.mpr depth)]
    rcases depth.lt_or_gt with below | front
    · have offAxis : ¬(v.y = 0 ∧ v.z = 0) := fun axis => notRear ⟨below, axis⟩
      simp [Vec3.behind_neg_iff, below, below.not_gt, offAxis]
    · simp only [Vec3.behind_neg_iff, front, front.not_gt, true_and, decide_false, Bool.not_false,
        decide_eq_true_iff]
  · have flag : decide (c.direction p isVirtual).Behind = isVirtual := by
      rw [Bool.eq_iff_iff, decide_eq_true_iff]
      exact c.behind_direction regular
    rw [c.unproject_exact, c.project_exact (c.depth_direction p isVirtual), c.image_direction, flag]

/-- A direction behind the camera, and the center of the image. -/
theorem inverse_off_horizon_of_rear :
    let c : Pinhole := ⟨250, ⟨320, 240⟩, by norm_num⟩
    let v : Vec3 ℝ := ⟨-1, 3, -2⟩
    v.x ≠ 0 ∧ ¬(v.x < 0 ∧ v.y = 0 ∧ v.z = 0) ∧
      (∃ p : Vec2 ℝ, c.perspective.project v.exact = ⟨p.exact, decide (v.x < 0)⟩ ∧
        c.perspective.unproject ⟨p.exact, decide (v.x < 0)⟩ = v.exact.normalize) ∧
      ¬(c.center = c.center ∧ false = true) ∧
      c.perspective.project (c.perspective.unproject ⟨c.center.exact, false⟩) = ⟨c.center.exact, false⟩ := by
  intro c v
  obtain ⟨directions, images⟩ := inverse_off_horizon c
  have depth : v.x ≠ 0 := by norm_num [v]
  have notRear : ¬(v.x < 0 ∧ v.y = 0 ∧ v.z = 0) := by norm_num [v]
  have front : ¬(c.center = c.center ∧ false = true) := fun marked => Bool.false_ne_true marked.2
  obtain ⟨p, image, back, -⟩ := directions v depth notRear
  exact ⟨depth, notRear, ⟨p, image, back⟩, front, images c.center false front⟩

/-- The two directions of the axis have the same flag. -/
theorem inverse_off_horizon_on_axis :
    let c : Pinhole := ⟨1 / 10 ^ 310, ⟨320, 240⟩, by positivity⟩
    let v : Vec3 ℝ := ⟨1, 0, 0⟩
    v.x ≠ 0 ∧ ¬(v.x < 0 ∧ v.y = 0 ∧ v.z = 0) ∧
      (c.perspective.project v.exact).isVirtual = false ∧ (c.perspective.project (-v.exact)).isVirtual = false := by
  intro c v
  have depth : v.x ≠ 0 := one_ne_zero
  have front : ¬v.Behind := fun behind => (zero_lt_one.trans behind.depth).false
  have onAxis : ¬(-v).Behind := fun behind => (Vec3.behind_neg_iff.mp behind).2 ⟨rfl, rfl⟩
  refine ⟨depth, fun rear => (zero_lt_one.trans rear.1).false, ?_, ?_⟩
  · rw [c.project_exact depth]
    exact decide_eq_false front
  · rw [Vec3.exact_neg, c.project_exact (neg_ne_zero.mpr depth)]
    exact decide_eq_false onAxis

end Pinhole

end SphereMotion
