import Mathlib
import SphereMotion.Proofs.ExactPanorama

namespace SphereMotion

open Scalar
open Exact (real)

theorem Vec3.ofAngles_add_turn (θ φ : ℝ) : ofAngles θ (φ + 2 * Real.pi) = ofAngles θ φ := by
  simp only [ofAngles, Real.cos_add_two_pi, Real.sin_add_two_pi]

/-- A polar angle and the radius at which an equisolid lens shows it. -/
structure Chord (focalLength θ r : ℝ) : Prop where
  angle : θ ∈ Set.Icc 0 Real.pi
  radius : r = 2 * focalLength * Real.sin (θ / 2)

namespace Chord

variable {f θ r : ℝ}

theorem exists_radius (f : ℝ) (angle : θ ∈ Set.Icc 0 Real.pi) : ∃ r, Chord f θ r := ⟨_, angle, rfl⟩

theorem exists_angle (positive : 0 < f) (nonneg : 0 ≤ r) (within : r ≤ 2 * f) : ∃ θ, Chord f θ r := by
  have lower : 0 ≤ r / (2 * f) := by positivity
  have upper : r / (2 * f) ≤ 1 := (div_le_one (by positivity)).mpr within
  have acute := Real.arcsin_le_pi_div_two (r / (2 * f))
  refine ⟨2 * Real.arcsin (r / (2 * f)), ⟨?_, ?_⟩, ?_⟩
  · have := Real.arcsin_nonneg.mpr lower
    positivity
  · linarith
  · rw [mul_div_cancel_left₀ _ two_ne_zero, Real.sin_arcsin (by linarith) upper]
    field_simp

theorem sin_mem (chord : Chord f θ r) : 0 ≤ Real.sin (θ / 2) ∧ Real.sin (θ / 2) ≤ 1 := by
  obtain ⟨lower, upper⟩ := chord.angle
  exact ⟨Real.sin_nonneg_of_nonneg_of_le_pi (by linarith) (by linarith), Real.sin_le_one _⟩

theorem nonneg (chord : Chord f θ r) (positive : 0 < f) : 0 ≤ r := by
  have := chord.sin_mem.1
  rw [chord.radius]
  positivity

theorem le_diameter (chord : Chord f θ r) (positive : 0 < f) : r ≤ 2 * f := by
  rw [chord.radius]
  exact mul_le_of_le_one_right (by positivity) chord.sin_mem.2

/-- The center of the image shows the optical axis only. -/
theorem angle_eq_zero (chord : Chord f θ r) (positive : 0 < f) (zero : r = 0) : θ = 0 := by
  obtain ⟨lower, upper⟩ := chord.angle
  by_contra nonzero
  have sine : 0 < Real.sin (θ / 2) :=
    Real.sin_pos_of_pos_of_lt_pi (by have := lt_of_le_of_ne lower (Ne.symm nonzero); linarith)
      (by linarith [Real.pi_pos])
  have positive' : 0 < r := by
    rw [chord.radius]
    positivity
  exact positive'.ne' zero

theorem angle_lt (chord : Chord f θ r) (inside : r < 2 * f) : θ < Real.pi := by
  refine lt_of_le_of_ne chord.angle.2 fun rear => ?_
  have edge := chord.radius
  rw [rear, Real.sin_pi_div_two, mul_one] at edge
  exact inside.ne edge

/-- A direction on the axis that is seen inside the rim is the optical axis. -/
theorem radius_eq_zero (chord : Chord f θ r) (inside : r < 2 * f) (axis : Real.sin θ = 0) : r = 0 := by
  have below := chord.angle_lt inside
  have zero := (Real.sin_eq_zero_iff_of_lt_of_lt (by linarith [chord.angle.1, Real.pi_pos]) below).mp axis
  rw [chord.radius, zero, zero_div, Real.sin_zero, mul_zero]

theorem radius_eq (chord : Chord f θ r) : (Lens.equisolid (real f)).radius (real θ) = real r := by
  rw [chord.radius]
  simp only [Lens.radius, Exact.ofNat_eq, Nat.cast_ofNat, Exact.real_div two_ne_zero, Exact.sin_real,
    Exact.real_mul]

theorem angle_eq (chord : Chord f θ r) (positive : 0 < f) :
    (Lens.equisolid (real f)).angle (real r) = real θ := by
  obtain ⟨lower, upper⟩ := chord.angle
  have diameter : 2 * f ≠ 0 := by positivity
  have ratio : r / (2 * f) = Real.sin (θ / 2) := by
    rw [chord.radius, mul_div_cancel_left₀ _ diameter]
  simp only [Lens.angle, Exact.ofNat_eq, Nat.cast_ofNat, Exact.real_mul, Exact.real_div diameter, ratio]
  rw [Exact.asin_real (Real.neg_one_le_sin _) (Real.sin_le_one _), Exact.real_mul,
    Real.arcsin_sin (by linarith [Real.pi_pos]) (by linarith), mul_div_cancel₀ _ two_ne_zero]

end Chord

/-- A projection with a closed form, by its real parameters. -/
inductive ClosedForm where
  | equisolid (focalLength : ℝ) (center : Vec2 ℝ) (positive : 0 < focalLength)
  | panorama (width height offset : ℝ) (wide : 0 < width) (tall : 0 < height)

namespace ClosedForm

def projection : ClosedForm → Projection Exact
  | equisolid f center _ => .lens ⟨.equisolid (real f), center.exact⟩
  | panorama width height offset _ _ => .panorama ⟨real width, real height, real offset⟩

/-- The points that have a direction. A panorama goes on beyond its edges. -/
inductive Sees : ClosedForm → Vec2 ℝ → Prop
  | equisolid {f : ℝ} {center p : Vec2 ℝ} {positive : 0 < f} (within : p.distance center ≤ 2 * f) :
    Sees (.equisolid f center positive) p
  | panorama {width height offset : ℝ} {p : Vec2 ℝ} {wide : 0 < width} {tall : 0 < height} :
    Sees (.panorama width height offset wide tall) p

/-- The image circle of an equisolid lens has twice the focal length as its radius. -/
theorem sees_equisolid_iff {f : ℝ} {center p : Vec2 ℝ} {positive : 0 < f} :
    (equisolid f center positive).Sees p ↔ p.distance center ≤ 2 * f :=
  ⟨fun | .equisolid within => within, .equisolid⟩

/-- The points of the picture. -/
inductive Covers : ClosedForm → Vec2 ℝ → Prop
  | equisolid {f : ℝ} {center p : Vec2 ℝ} {positive : 0 < f} (within : p.distance center ≤ 2 * f) :
    Covers (.equisolid f center positive) p
  | panorama {width height offset : ℝ} {p : Vec2 ℝ} {wide : 0 < width} {tall : 0 < height}
    (column : p.x + offset ∈ Set.Ico 0 width) (row : p.y + offset ∈ Set.Icc 0 height) :
    Covers (.panorama width height offset wide tall) p

/-- The points of the picture that are not on its rim. A panorama has no rim at its sides. -/
inductive Inside : ClosedForm → Vec2 ℝ → Prop
  | equisolid {f : ℝ} {center p : Vec2 ℝ} {positive : 0 < f} (within : p.distance center < 2 * f) :
    Inside (.equisolid f center positive) p
  | panorama {width height offset : ℝ} {p : Vec2 ℝ} {wide : 0 < width} {tall : 0 < height}
    (column : p.x + offset ∈ Set.Ico 0 width) (row : p.y + offset ∈ Set.Ioo 0 height) :
    Inside (.panorama width height offset wide tall) p

theorem Inside.sees {c : ClosedForm} {p : Vec2 ℝ} (inside : c.Inside p) : c.Sees p := by
  cases inside with
  | equisolid within => exact .equisolid within.le
  | panorama => exact .panorama

section Equisolid

variable {f : ℝ} {center p : Vec2 ℝ}

theorem unproject_equisolid (positive : 0 < f) (within : p.distance center ≤ 2 * f) :
    ∃ θ, Chord f θ (p.distance center) ∧
      (LensProjection.mk (.equisolid (real f)) center.exact).unproject p.exact =
        (Vec3.ofAngles θ (p - center).toComplex.arg).world.exact := by
  obtain ⟨θ, chord⟩ := Chord.exists_angle positive (Vec2.length_nonneg _) within
  refine ⟨θ, chord, ?_⟩
  simp only [LensProjection.unproject, Vec2.exact_sub, Vec2.toPolar_exact]
  rw [chord.angle_eq positive, Vec3.direction_eq_ofAngles, Vec3.ofCamera_exact]

theorem project_unproject_equisolid (positive : 0 < f) (inside : p.distance center < 2 * f) :
    let lens : LensProjection Exact := ⟨.equisolid (real f), center.exact⟩
    lens.project (lens.unproject p.exact) = p.exact := by
  intro lens
  obtain ⟨θ, chord, direction⟩ := unproject_equisolid positive inside.le
  have azimuth : Vec2.ofPolar (p.distance center) (if Real.sin θ = 0 then 0 else (p - center).toComplex.arg) =
      p - center := by
    split
    next axis =>
      have zero := chord.radius_eq_zero inside axis
      rw [Vec2.eq_of_length_eq_zero zero, zero]
      exact Vec2.ext (zero_mul _) (zero_mul _)
    next => exact (p - center).ofPolar_length_arg
  rw [direction, LensProjection.project, Vec3.toCamera_exact, Vec3.camera_world,
    Vec3.toSpherical_ofAngles chord.angle (Complex.arg_mem_Ioc _)]
  simp only [lens, chord.radius_eq, Polar.toVec2_real, azimuth]
  rw [Vec2.exact_add, sub_add_cancel]

theorem exists_image_equisolid (positive : 0 < f) {v : Vec3 ℝ} (nonzero : v ≠ ⟨0, 0, 0⟩) :
    let lens : LensProjection Exact := ⟨.equisolid (real f), center.exact⟩
    ∃ p : Vec2 ℝ, lens.project v.exact = p.exact ∧ p.distance center ≤ 2 * f ∧
      lens.unproject p.exact = v.normalized.exact := by
  intro lens
  have seen : v.camera ≠ ⟨0, 0, 0⟩ := Vec3.camera_ne_zero nonzero
  obtain ⟨r, chord⟩ := Chord.exists_radius f v.camera.polarAngle_mem
  have azimuth := v.camera.azimuth_mem
  refine ⟨Vec2.ofPolar r v.camera.azimuth + center, ?_, ?_, ?_⟩
  · rw [LensProjection.project, Vec3.toCamera_exact, Vec3.toSpherical_exact seen]
    simp only [lens, chord.radius_eq, Polar.toVec2_real, Vec2.exact_add]
  · rw [Vec2.distance, add_sub_cancel_right, Vec2.length_ofPolar (chord.nonneg positive)]
    exact chord.le_diameter positive
  -- In the center of the image the azimuth is lost, but there the polar angle is zero.
  · have direction : Spherical.direction (real v.camera.polarAngle) (real (if r = 0 then 0 else v.camera.azimuth)) =
        v.camera.normalized.exact := by
      rw [← Vec3.direction_angles seen]
      split
      next zero =>
        rw [chord.angle_eq_zero positive zero]
        simp [Vec3.direction_eq_ofAngles, Vec3.ofAngles]
      next => rfl
    have centered := Polar.toPolar_toVec2 (chord.nonneg positive) azimuth
    rw [Polar.toVec2_real] at centered
    simp only [LensProjection.unproject, lens, Vec2.exact_sub, add_sub_cancel_right, centered]
    rw [chord.angle_eq positive, direction, Vec3.ofCamera_exact, Vec3.world_normalized_camera]

end Equisolid

section Panorama

variable {width height offset : ℝ} {p : Vec2 ℝ}

theorem unproject_panorama (wide : 0 < width) (tall : 0 < height) (p : Vec2 ℝ) :
    Panorama.unproject ⟨real width, real height, real offset⟩ p.exact =
      (Vec3.ofAngles ((p.y + offset) / height * Real.pi) (-(p.x + offset) / width * 2 * Real.pi)).exact :=
  (Exact.unproject_panorama wide.ne' tall.ne').trans (Vec3.direction_eq_ofAngles _ _)

/-- An azimuth is brought into one turn to the right by going back a whole turn if need be. -/
theorem exists_west {φ : ℝ} (azimuth : φ ∈ Set.Ioc (-Real.pi) Real.pi) :
    ∃ west ∈ Set.Ioc (-(2 * Real.pi)) 0, (if 0 < φ then φ - 2 * Real.pi else φ) = west ∧
      ∀ θ, Vec3.ofAngles θ west = Vec3.ofAngles θ φ := by
  obtain ⟨lower, upper⟩ := azimuth
  split
  next east =>
    refine ⟨φ - 2 * Real.pi, ⟨by linarith, by linarith [Real.pi_pos]⟩, rfl, fun θ => ?_⟩
    rw [← Vec3.ofAngles_add_turn, sub_add_cancel]
  next notEast => exact ⟨φ, ⟨by linarith [Real.pi_pos], not_lt.mp notEast⟩, rfl, fun _ => rfl⟩

/-- An azimuth of one turn to the right is found again. -/
theorem exists_azimuth {west : ℝ} (within : west ∈ Set.Ioc (-(2 * Real.pi)) 0) :
    ∃ φ ∈ Set.Ioc (-Real.pi) Real.pi, (if 0 < φ then φ - 2 * Real.pi else φ) = west ∧
      ∀ θ, Vec3.ofAngles θ west = Vec3.ofAngles θ φ := by
  obtain ⟨lower, upper⟩ := within
  by_cases half : -Real.pi < west
  · exact ⟨west, ⟨half, by linarith [Real.pi_pos]⟩, if_neg (not_lt.mpr upper), fun _ => rfl⟩
  · refine ⟨west + 2 * Real.pi, ⟨by linarith, by linarith⟩, ?_, fun θ => (Vec3.ofAngles_add_turn θ west).symm⟩
    rw [if_pos (by linarith), add_sub_cancel_right]

theorem project_unproject_panorama (wide : 0 < width) (tall : 0 < height) (column : p.x + offset ∈ Set.Ico 0 width)
    (row : p.y + offset ∈ Set.Ioo 0 height) :
    let panorama : Panorama Exact := ⟨real width, real height, real offset⟩
    panorama.project (panorama.unproject p.exact) = p.exact := by
  intro panorama
  have pos := Real.pi_pos
  have within : -(p.x + offset) / width * 2 * Real.pi ∈ Set.Ioc (-(2 * Real.pi)) 0 := by
    have fraction : (p.x + offset) / width ∈ Set.Ico 0 1 :=
      ⟨div_nonneg column.1 wide.le, (div_lt_one wide).mpr column.2⟩
    rw [neg_div, neg_mul, neg_mul]
    constructor <;> nlinarith [fraction.1, fraction.2]
  have polar : (p.y + offset) / height * Real.pi ∈ Set.Ioo 0 Real.pi :=
    ⟨mul_pos (div_pos row.1 tall) pos, mul_lt_of_lt_one_left pos ((div_lt_one tall).mpr row.2)⟩
  obtain ⟨φ, azimuth, turned, same⟩ := exists_azimuth within
  rw [unproject_panorama wide tall, same, ← Vec3.direction_eq_ofAngles,
    Exact.project_panorama_of_toSpherical (Exact.toSpherical_direction ⟨polar, azimuth⟩), turned]
  refine Vec2.ext (congrArg real ?_) (congrArg real ?_)
  · field_simp
    ring
  · field_simp
    ring

theorem exists_image_panorama (wide : 0 < width) (tall : 0 < height) {v : Vec3 ℝ} (nonzero : v ≠ ⟨0, 0, 0⟩) :
    let panorama : Panorama Exact := ⟨real width, real height, real offset⟩
    ∃ p : Vec2 ℝ, panorama.project v.exact = p.exact ∧ p.x + offset ∈ Set.Ico 0 width ∧
      p.y + offset ∈ Set.Icc 0 height ∧ panorama.unproject p.exact = v.normalized.exact := by
  intro panorama
  have pos := Real.pi_pos
  obtain ⟨west, ⟨lower, upper⟩, turned, same⟩ := exists_west v.azimuth_mem
  obtain ⟨first, last⟩ := v.polarAngle_mem
  refine ⟨⟨-west / (2 * Real.pi) * width - offset, v.polarAngle / Real.pi * height - offset⟩, ?_, ?_, ?_, ?_⟩
  · rw [Exact.project_panorama_of_toSpherical (Vec3.toSpherical_exact nonzero), turned]
    rfl
  · rw [sub_add_cancel]
    have fraction : -west / (2 * Real.pi) ∈ Set.Ico 0 1 :=
      ⟨div_nonneg (by linarith) (by linarith), (div_lt_one (by linarith)).mpr (by linarith)⟩
    exact ⟨mul_nonneg fraction.1 wide.le, mul_lt_of_lt_one_left wide fraction.2⟩
  · rw [sub_add_cancel]
    exact ⟨mul_nonneg (div_nonneg first pos.le) tall.le,
      mul_le_of_le_one_left tall.le ((div_le_one pos).mpr last)⟩
  · have polar : (v.polarAngle / Real.pi * height - offset + offset) / height * Real.pi = v.polarAngle := by
      field_simp
      ring
    have azimuth : -(-west / (2 * Real.pi) * width - offset + offset) / width * 2 * Real.pi = west := by
      field_simp
      ring
    rw [unproject_panorama wide tall, polar, azimuth, same, ← Vec3.direction_eq_ofAngles,
      Vec3.direction_angles nonzero]

end Panorama

variable (c : ClosedForm) {p : Vec2 ℝ}

/-- A direction has an image in the picture, which leads back to it. -/
theorem exists_image {v : Vec3 ℝ} (nonzero : v ≠ ⟨0, 0, 0⟩) :
    ∃ p : Vec2 ℝ, c.projection.project v.exact = p.exact ∧ c.Covers p ∧
      c.projection.unproject p.exact = v.normalized.exact := by
  cases c with
  | equisolid f center positive =>
    obtain ⟨p, image, within, direction⟩ := exists_image_equisolid positive nonzero
    exact ⟨p, image, .equisolid within, direction⟩
  | panorama width height offset wide tall =>
    obtain ⟨p, image, column, row, direction⟩ := exists_image_panorama wide tall nonzero
    exact ⟨p, image, .panorama column row, direction⟩

variable {c}

theorem project_unproject (inside : c.Inside p) :
    c.projection.project (c.projection.unproject p.exact) = p.exact := by
  cases inside with
  | @equisolid f center p positive within => exact project_unproject_equisolid positive within
  | @panorama width height offset p wide tall column row => exact project_unproject_panorama wide tall column row

theorem exists_direction (sees : c.Sees p) :
    ∃ d : Vec3 ℝ, c.projection.unproject p.exact = d.exact ∧ d.length = 1 := by
  cases sees with
  | @equisolid f center p positive within =>
    obtain ⟨θ, -, direction⟩ := unproject_equisolid positive within
    exact ⟨_, direction, (Vec3.length_world _).trans (Vec3.length_ofAngles _ _)⟩
  | @panorama width height offset p wide tall =>
    exact ⟨_, unproject_panorama wide tall p, Vec3.length_ofAngles _ _⟩

/-- The image of every direction lies in the picture and has that direction, and every point inside the
picture is the image of its direction. -/
theorem inverse_on_domain (c : ClosedForm) :
    (∀ v : Vec3 ℝ, v ≠ ⟨0, 0, 0⟩ →
      c.projection.unproject (c.projection.project v.exact) = v.exact.normalize ∧
        ∃ p : Vec2 ℝ, c.projection.project v.exact = p.exact ∧ c.Covers p) ∧
    ∀ p : Vec2 ℝ, c.Inside p → c.projection.project (c.projection.unproject p.exact) = p.exact := by
  refine ⟨fun v nonzero => ?_, fun p inside => project_unproject inside⟩
  obtain ⟨p, image, covers, direction⟩ := c.exists_image nonzero
  refine ⟨?_, p, image, covers⟩
  rw [image, direction, Vec3.normalize_exact nonzero]

/-- The seam of a panorama, in a direction and in a point, and the direction behind an equisolid lens,
which is seen on its rim. -/
theorem inverse_on_domain_of_seam_and_rim :
    let panorama : ClosedForm := .panorama 8 4 (1 / 2) (by norm_num) (by norm_num)
    let lens : ClosedForm := .equisolid 100 ⟨64, 32⟩ (by norm_num)
    let seam : Vec3 ℝ := ⟨3, 0, -4⟩
    let rear : Vec3 ℝ := ⟨-2, 0, 0⟩
    let edge : Vec2 ℝ := ⟨-1 / 2, 3⟩
    (seam ≠ ⟨0, 0, 0⟩ ∧ panorama.projection.unproject (panorama.projection.project seam.exact) =
      seam.exact.normalize) ∧
      (panorama.Inside edge ∧ panorama.projection.project (panorama.projection.unproject edge.exact) = edge.exact) ∧
      rear ≠ ⟨0, 0, 0⟩ ∧ lens.projection.unproject (lens.projection.project rear.exact) = rear.exact.normalize := by
  intro panorama lens seam rear edge
  have nonzero : seam ≠ ⟨0, 0, 0⟩ := by simp [seam]
  have nonzero' : rear ≠ ⟨0, 0, 0⟩ := by simp [rear]
  have inside : panorama.Inside edge := .panorama (by norm_num) (by norm_num)
  obtain ⟨back, forth⟩ := inverse_on_domain panorama
  exact ⟨⟨nonzero, (back seam nonzero).1⟩, ⟨inside, forth edge inside⟩, nonzero',
    ((inverse_on_domain lens).1 rear nonzero').1⟩

end ClosedForm

end SphereMotion
