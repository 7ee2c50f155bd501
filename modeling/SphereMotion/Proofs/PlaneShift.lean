import Mathlib
import SphereMotion.Proofs.Displacement
import SphereMotion.Proofs.PinholeImages
import SphereMotion.Proofs.RoundTrip

namespace SphereMotion

open Scalar
open Exact (real)

namespace MotionPlane

/-- How far a direction reaches along the viewing axis of the plane. It is zero on the horizon. -/
def depth {α : Type} [Scalar α] (plane : MotionPlane) (v : Vec3 α) : α := (plane.rotation.apply v).x

/-- A vector in the frame of the plane. -/
noncomputable def turn (plane : MotionPlane) (v : Vec3 ℝ) : Vec3 ℝ :=
  match plane with
  | frontBack => v
  | leftRight => ⟨v.y, -v.x, v.z⟩
  | topBottom => ⟨v.z, v.y, -v.x⟩

/-- The vector that a vector in the frame of the plane stands for. -/
noncomputable def turnBack (plane : MotionPlane) (v : Vec3 ℝ) : Vec3 ℝ :=
  match plane with
  | frontBack => v
  | leftRight => ⟨-v.y, v.x, v.z⟩
  | topBottom => ⟨-v.z, v.y, v.x⟩

theorem turn_exact (plane : MotionPlane) (v : Vec3 ℝ) : plane.rotation.apply v.exact = (plane.turn v).exact := by
  cases plane <;> simp [rotation, turn, Mat3.apply, Vec3.dot, Mat3.identity, Vec3.unitX, Vec3.unitY, Vec3.unitZ,
    Vec3.exact]

theorem turnBack_exact (plane : MotionPlane) (v : Vec3 ℝ) :
    plane.rotation.transpose.apply v.exact = (plane.turnBack v).exact := by
  cases plane <;> simp [rotation, turnBack, Mat3.transpose, Mat3.ofColumns, Mat3.apply, Vec3.dot, Mat3.identity,
    Vec3.unitX, Vec3.unitY, Vec3.unitZ, Vec3.exact]

theorem turn_turnBack (plane : MotionPlane) (v : Vec3 ℝ) : plane.turn (plane.turnBack v) = v := by
  cases plane <;> simp [turn, turnBack]

theorem turnBack_turn (plane : MotionPlane) (v : Vec3 ℝ) : plane.turnBack (plane.turn v) = v := by
  cases plane <;> simp [turn, turnBack]

theorem length_turn (plane : MotionPlane) (v : Vec3 ℝ) : (plane.turn v).length = v.length := by
  cases plane <;> simp only [turn, Vec3.length] <;> congr 1 <;> ring

theorem length_turnBack (plane : MotionPlane) (v : Vec3 ℝ) : (plane.turnBack v).length = v.length := by
  rw [← plane.length_turn, turn_turnBack]

theorem turnBack_mirrored (plane : MotionPlane) (back : Bool) (v : Vec3 ℝ) :
    plane.turnBack (v.mirrored back) = (plane.turnBack v).mirrored back := by
  cases back
  · rfl
  · cases plane <;> rfl

end MotionPlane

/-- The point that a motion other than zero leads to. -/
theorem PlaneMotion.movePoint_eq {α : Type} [Scalar α] [LawfulSub α] (m : PlaneMotion α) {motion : Vec2 α}
    (moves : motion.isZero = false) (position center : Vec2 α) :
    (MotionModel.plane m).movePoint position motion center =
      m.projection.project (m.plane.rotation.transpose.apply
        (m.perspective.unproject (.translate motion (m.toPlanePoint (m.projection.unproject position))))) := by
  apply MotionModel.movePoint_eq_of_get?
  rw [MotionModel.move, PlaneMotion.move, moves, if_neg Bool.false_ne_true]
  simp only [moveOnPlane, ofPlane, turnOut, toPlane, turnIn, Projection.projectGrid_eq_map,
    Projection.unprojectGrid_eq_map, Perspective.projectGrid_eq_map, Perspective.unprojectGrid_eq_map,
    Grid.get?_map]
  rfl

namespace ClosedForm

variable (c : ClosedForm) (plane : MotionPlane)

/-- The camera of a motion plane is a pinhole camera. -/
theorem exists_pinhole :
    ∃ pinhole : Pinhole, (PlaneMotion.mk c.projection plane).perspective = pinhole.perspective := by
  have origin : (.origin : Vec2 Exact) = Vec2.exact 0 := Vec2.ext Exact.zero_eq Exact.zero_eq
  cases c with
  | equisolid f center positive => exact ⟨⟨f, 0, positive⟩, congrArg (Perspective.mk (real f)) origin⟩
  | panorama width height offset wide tall =>
    have turn : 0 < 2 * Real.pi := Real.two_pi_pos
    refine ⟨⟨width / (2 * Real.pi), 0, div_pos wide turn⟩, ?_⟩
    simp only [PlaneMotion.perspective, Pinhole.perspective, projection, Projection.focalLength, origin,
      Exact.ofNat_eq, Exact.pi_eq, Exact.real_mul, Nat.cast_ofNat, Exact.real_div turn.ne']

/-- A point in the direction `d`, which is off the horizon of the plane. -/
structure Shows (p : Vec2 ℝ) (d : Vec3 ℝ) : Prop where
  direction : c.projection.unproject p.exact = d.exact
  unit : d.length = 1
  offHorizon : (plane.turn d).x ≠ 0

variable {c plane} {p q : Vec2 ℝ} {d e : Vec3 ℝ} {pinhole : Pinhole}

theorem exists_shows (sees : c.Sees p) (offHorizon : plane.depth (c.projection.unproject p.exact) ≠ 0) :
    ∃ d, c.Shows plane p d := by
  obtain ⟨d, direction, unit⟩ := exists_direction sees
  refine ⟨d, direction, unit, fun zero => offHorizon ?_⟩
  rw [direction, MotionPlane.depth, MotionPlane.turn_exact, Vec3.exact, zero, Exact.zero_eq]

theorem ne_rear {x y z : ℝ} (offAxis : y ≠ 0) : (⟨x, y, z⟩ : Vec3 ℝ) ≠ -⟨1, 0, 0⟩ :=
  fun rear => offAxis ((congrArg Vec3.y rear).trans neg_zero)

namespace Shows

theorem depth_eq (shows : c.Shows plane p d) :
    plane.depth (c.projection.unproject p.exact) = real (plane.turn d).x := by
  rw [shows.direction, MotionPlane.depth, MotionPlane.turn_exact, Vec3.exact]

theorem depth_ne_zero (shows : c.Shows plane p d) : plane.depth (c.projection.unproject p.exact) ≠ 0 := by
  simpa [shows.depth_eq] using shows.offHorizon

theorem depth_pos_iff (shows : c.Shows plane p d) :
    0 < plane.depth (c.projection.unproject p.exact) ↔ 0 < (plane.turn d).x := by
  rw [shows.depth_eq, Exact.zero_lt_real]

theorem eq_unitX_iff (shows : c.Shows plane p d) :
    plane.rotation.apply (c.projection.unproject p.exact) = .unitX ↔ plane.turn d = ⟨1, 0, 0⟩ := by
  rw [shows.direction, MotionPlane.turn_exact, ← Vec3.exact_inj]
  simp [Vec3.exact, Vec3.unitX]

theorem eq_neg_unitX_iff (shows : c.Shows plane p d) :
    plane.rotation.apply (c.projection.unproject p.exact) = -.unitX ↔ plane.turn d = -⟨1, 0, 0⟩ := by
  have axis : (.unitX : Vec3 Exact) = (⟨1, 0, 0⟩ : Vec3 ℝ).exact := by simp [Vec3.exact, Vec3.unitX]
  rw [shows.direction, MotionPlane.turn_exact, axis, Vec3.exact_neg, Vec3.exact_inj]

theorem behind_iff (shows : c.Shows plane p d) (notRear : plane.turn d ≠ -⟨1, 0, 0⟩) :
    (plane.turn d).Behind ↔ (plane.turn d).x < 0 := by
  refine ⟨Vec3.Behind.depth, fun below => ⟨below, ?_⟩⟩
  intro axis
  have length := (plane.length_turn d).trans shows.unit
  rw [Vec3.length_of_axis axis, abs_of_neg below] at length
  exact notRear (Vec3.ext (neg_eq_iff_eq_neg.mp length) (axis.1.trans neg_zero.symm) (axis.2.trans neg_zero.symm))

/-- The image of the opposite direction is another point. -/
theorem project_neg_ne (shows : c.Shows plane p d) : c.projection.project (-d.exact) ≠ p.exact := by
  intro same
  have unit : (-d).length = 1 := d.length_neg.trans shows.unit
  obtain ⟨q, image, -, direction⟩ := c.exists_image (Vec3.ne_zero_of_length unit)
  rw [← image, ← Vec3.exact_neg, same, shows.direction, Vec3.normalized_of_length unit, Vec3.exact_inj] at direction
  have zero {x : ℝ} (own : x = -x) : x = 0 := by linarith
  exact Vec3.ne_zero_of_length shows.unit
    (Vec3.ext (zero (congrArg Vec3.x direction)) (zero (congrArg Vec3.y direction))
      (zero (congrArg Vec3.z direction)))

end Shows

/-- The middle row of a panorama looks around the horizon. -/
theorem shows_of_middle {width height offset φ : ℝ} {wide : 0 < width} {tall : 0 < height} {p : Vec2 ℝ}
    (middle : (p.y + offset) / height = 1 / 2) (azimuth : -(p.x + offset) / width * 2 * Real.pi = φ)
    (offHorizon : Real.cos φ ≠ 0) :
    (ClosedForm.panorama width height offset wide tall).Shows .frontBack p ⟨Real.cos φ, Real.sin φ, 0⟩ := by
  have level : Vec3.ofAngles (1 / 2 * Real.pi) φ = ⟨Real.cos φ, Real.sin φ, 0⟩ := by
    rw [one_div_mul_eq_div, Vec3.ofAngles, Real.sin_pi_div_two, Real.cos_pi_div_two, one_mul, one_mul]
  refine ⟨(unproject_panorama wide tall p).trans ?_, ?_, offHorizon⟩
  · rw [middle, azimuth, level]
  · rw [← level, Vec3.length_ofAngles]

section Columns

variable {wide : (0 : ℝ) < 8} {tall : (0 : ℝ) < 4}

/-- Four points of a small panorama, seen at an angle of an eighth turn to the viewing axis. -/
theorem shows_columns : let c : ClosedForm := .panorama 8 4 0 wide tall
    c.Shows .frontBack ⟨1, 2⟩ ⟨√2 / 2, -(√2 / 2), 0⟩ ∧ c.Shows .frontBack ⟨3, 2⟩ ⟨-(√2 / 2), -(√2 / 2), 0⟩ ∧
      c.Shows .frontBack ⟨5, 2⟩ ⟨-(√2 / 2), √2 / 2, 0⟩ ∧ c.Shows .frontBack ⟨7, 2⟩ ⟨√2 / 2, √2 / 2, 0⟩ := by
  have root : √2 / 2 ≠ 0 := by simp
  have each {x φ a b : ℝ} (azimuth : -(x + 0) / 8 * 2 * Real.pi = φ) (cosine : Real.cos φ = a)
      (sine : Real.sin φ = b)
      (offHorizon : a ≠ 0) : (ClosedForm.panorama 8 4 0 wide tall).Shows .frontBack ⟨x, 2⟩ ⟨a, b, 0⟩ := by
    rw [← cosine, ← sine]
    exact shows_of_middle (by norm_num) azimuth (cosine ▸ offHorizon)
  refine ⟨?_, ?_, ?_, ?_⟩
  · apply each (φ := -(Real.pi / 4)) (by ring) _ _ root <;> simp
  · apply each (φ := Real.pi / 4 - Real.pi) (by ring) _ _ (neg_ne_zero.mpr root) <;>
      simp [Real.cos_sub_pi, Real.sin_sub_pi]
  · apply each (φ := -(Real.pi / 4) - Real.pi) (by ring) _ _ (neg_ne_zero.mpr root) <;>
      simp [Real.cos_sub_pi, Real.sin_sub_pi]
  · apply each (φ := Real.pi / 4 - 2 * Real.pi) (by ring) _ _ root <;>
      simp [Real.cos_sub_two_pi, Real.sin_sub_two_pi]

end Columns

section Pinhole

variable (camera : (PlaneMotion.mk c.projection plane).perspective = pinhole.perspective)
include camera

theorem toPlanePoint_exact (shows : c.Shows plane p d) :
    (PlaneMotion.mk c.projection plane).toPlanePoint (c.projection.unproject p.exact) =
      ⟨(pinhole.image (plane.turn d)).exact, decide (plane.turn d).Behind⟩ := by
  rw [PlaneMotion.toPlanePoint, camera, shows.direction, MotionPlane.turn_exact,
    pinhole.project_exact shows.offHorizon]

theorem vectorFor_exact (shows : c.Shows plane p d) (shows' : c.Shows plane q e) :
    (PlaneMotion.mk c.projection plane).vectorFor p.exact q.exact =
      ((pinhole.image (plane.turn e) - pinhole.image (plane.turn d)).mirrored
        (decide (plane.turn d).Behind)).exact := by
  rw [PlaneMotion.vectorFor, toPlanePoint_exact camera shows, toPlanePoint_exact camera shows']
  simp only [Vec2.exact_sub, PlanePoint.scale_sign_exact]

theorem movePoint_exact (shows : c.Shows plane p d) {motion : Vec2 ℝ} (moves : motion ≠ 0) (center : Vec2 Exact) :
    (MotionModel.plane ⟨c.projection, plane⟩).movePoint p.exact motion.exact center =
      c.projection.project (plane.turnBack (pinhole.direction (pinhole.image (plane.turn d) +
        motion.mirrored (decide (plane.turn d).Behind)) (decide (plane.turn d).Behind))).exact := by
  rw [PlaneMotion.movePoint_eq _ (Vec2.isZero_of_ne moves), toPlanePoint_exact camera shows,
    PlanePoint.translate_exact, camera, pinhole.unproject_exact, MotionPlane.turnBack_exact]

theorem exists_moved (shows : c.Shows plane p d) {motion : Vec2 ℝ} (moves : motion ≠ 0) (center : Vec2 Exact) :
    ∃ q e, (MotionModel.plane ⟨c.projection, plane⟩).movePoint p.exact motion.exact center = Vec2.exact q ∧
      c.Shows plane q e ∧ pinhole.image (plane.turn e) =
        pinhole.image (plane.turn d) + motion.mirrored (decide (plane.turn d).Behind) := by
  set back := decide (plane.turn d).Behind with side
  set target := pinhole.image (plane.turn d) + motion.mirrored back with shift
  have unit : (plane.turnBack (pinhole.direction target back)).length = 1 := by
    rw [MotionPlane.length_turnBack, Pinhole.length_direction]
  obtain ⟨q, image, -, direction⟩ := c.exists_image (Vec3.ne_zero_of_length unit)
  rw [Vec3.normalized_of_length unit] at direction
  refine ⟨q, plane.turnBack (pinhole.direction target back), ?_, ⟨direction, unit, ?_⟩, ?_⟩
  · rw [movePoint_exact camera shows moves center, ← side, ← shift, image]
  · rw [MotionPlane.turn_turnBack]
    exact pinhole.depth_direction target back
  · rw [MotionPlane.turn_turnBack, pinhole.image_direction]

end Pinhole

/-- The vector of any motion is found again in the point that it leads to. -/
theorem vectorFor_movePoint (c : ClosedForm) (plane : MotionPlane) {position : Vec2 ℝ} (sees : c.Sees position)
    (offHorizon : plane.depth (c.projection.unproject position.exact) ≠ 0) (motion : Vec2 ℝ) (center : Vec2 Exact) :
    let model : MotionModel Exact := .plane ⟨c.projection, plane⟩
    ∃ shifted : Vec2 ℝ, model.movePoint position.exact motion.exact center = shifted.exact ∧
      model.vectorFor position.exact shifted.exact center = motion.exact := by
  intro model
  obtain ⟨d, shows⟩ := exists_shows sees offHorizon
  obtain ⟨pinhole, camera⟩ := c.exists_pinhole plane
  obtain ⟨shifted, e, moved, shows', image⟩ : ∃ shifted e, model.movePoint position.exact motion.exact center =
      shifted.exact ∧ c.Shows plane shifted e ∧ pinhole.image (plane.turn e) =
        pinhole.image (plane.turn d) + motion.mirrored (decide (plane.turn d).Behind) := by
    by_cases still : motion = 0
    · refine ⟨position, d, model.movePoint_of_isZero (Vec2.isZero_exact.mpr still) position.exact center, shows, ?_⟩
      rw [still, Vec2.mirrored_zero, add_zero]
    · exact exists_moved camera shows still center
  refine ⟨shifted, moved, (vectorFor_exact camera shows shows').trans ?_⟩
  rw [image, add_sub_cancel_left, Vec2.mirrored_self]

/-- A long motion of a point behind the plane. -/
theorem vectorFor_movePoint_of_virtual :
    let c : ClosedForm := .panorama 8 4 0 (by norm_num) (by norm_num)
    let model : MotionModel Exact := .plane ⟨c.projection, .frontBack⟩
    c.Sees ⟨3, 2⟩ ∧ MotionPlane.depth .frontBack (c.projection.unproject (⟨3, 2⟩ : Vec2 ℝ).exact) ≠ 0 ∧
      ∃ shifted : Vec2 ℝ,
        model.movePoint (⟨3, 2⟩ : Vec2 ℝ).exact (⟨-100, 7⟩ : Vec2 ℝ).exact .origin = shifted.exact ∧
          model.vectorFor (⟨3, 2⟩ : Vec2 ℝ).exact shifted.exact .origin = (⟨-100, 7⟩ : Vec2 ℝ).exact := by
  intro c model
  obtain ⟨-, shows, -⟩ : _ ∧ c.Shows .frontBack ⟨3, 2⟩ _ ∧ _ := shows_columns
  have sees : c.Sees ⟨3, 2⟩ := .panorama
  exact ⟨sees, shows.depth_ne_zero, vectorFor_movePoint c .frontBack sees shows.depth_ne_zero ⟨-100, 7⟩ .origin⟩

/-- Points whose images on the plane coincide lie in the same direction or in opposite ones. -/
theorem turn_eq_mirrored (shows : c.Shows plane p d) (shows' : c.Shows plane q e)
    (same : pinhole.image (plane.turn e) = pinhole.image (plane.turn d)) :
    plane.turn d = (plane.turn e).mirrored (decide ((plane.turn e).x < 0) ^^ decide ((plane.turn d).x < 0)) := by
  have before := pinhole.direction_image ((plane.length_turn d).trans shows.unit) shows.offHorizon
    (decide ((plane.turn d).x < 0))
  have after := pinhole.direction_image ((plane.length_turn e).trans shows'.unit) shows'.offHorizon
    (decide ((plane.turn d).x < 0))
  rw [Bool.xor_self] at before
  rw [← after, same, before]
  rfl

theorem eq_mirrored (shows : c.Shows plane p d) (shows' : c.Shows plane q e)
    (same : pinhole.image (plane.turn e) = pinhole.image (plane.turn d)) :
    d = e.mirrored (decide ((plane.turn e).x < 0) ^^ decide ((plane.turn d).x < 0)) := by
  have turned := congrArg plane.turnBack (turn_eq_mirrored shows shows' same)
  rwa [MotionPlane.turnBack_mirrored, MotionPlane.turnBack_turn, MotionPlane.turnBack_turn] at turned

/-- Two sides of the horizon compared, by the signs behind it or in front of it. -/
theorem side_eq {x y : ℝ} (first : x ≠ 0) (second : y ≠ 0) :
    (decide (y < 0) ^^ decide (x < 0)) = decide ¬(0 < x ↔ 0 < y) := by
  rcases first.lt_or_gt with behind | front <;> rcases second.lt_or_gt with behind' | front' <;>
    simp [*, not_lt_of_gt]

section Shift

variable (camera : (PlaneMotion.mk c.projection plane).perspective = pinhole.perspective)
include camera

/-- The vector for a shift leads to the direction of the shifted point or to the opposite one. -/
theorem movePoint_shift (shows : c.Shows plane p d) (shows' : c.Shows plane q e)
    (apart : pinhole.image (plane.turn e) ≠ pinhole.image (plane.turn d)) (center : Vec2 Exact) :
    let back := decide (plane.turn d).Behind
    (MotionModel.plane ⟨c.projection, plane⟩).movePoint p.exact
        ((pinhole.image (plane.turn e) - pinhole.image (plane.turn d)).mirrored back).exact center =
      c.projection.project (e.mirrored (decide ((plane.turn e).x < 0) ^^ back)).exact := by
  intro back
  have moves : (pinhole.image (plane.turn e) - pinhole.image (plane.turn d)).mirrored back ≠ 0 := by
    intro zero
    apply apart
    rw [← sub_eq_zero, ← Vec2.mirrored_self back (_ - _), zero, Vec2.mirrored_zero]
  rw [movePoint_exact camera shows moves, Vec2.mirrored_self, add_sub_cancel,
    pinhole.direction_image ((plane.length_turn e).trans shows'.unit) shows'.offHorizon,
    MotionPlane.turnBack_mirrored, MotionPlane.turnBack_turn]

theorem movePoint_of_image_eq (shows : c.Shows plane p d) (shows' : c.Shows plane q e)
    (same : pinhole.image (plane.turn e) = pinhole.image (plane.turn d)) (center : Vec2 Exact) :
    (MotionModel.plane ⟨c.projection, plane⟩).movePoint p.exact
        ((PlaneMotion.mk c.projection plane).vectorFor p.exact q.exact) center = p.exact := by
  rw [vectorFor_exact camera shows shows', same, sub_self, Vec2.mirrored_zero]
  exact MotionModel.movePoint_of_isZero _ (Vec2.isZero_exact.mpr rfl) _ _

/-- Off the rear axis the vector keeps the side of the horizon. -/
theorem movePoint_of_notRear (inside : c.Inside p) (shows : c.Shows plane p d) (shows' : c.Shows plane q e)
    (notRear : plane.turn d ≠ -⟨1, 0, 0⟩) (center : Vec2 Exact) :
    (MotionModel.plane ⟨c.projection, plane⟩).movePoint p.exact
        ((PlaneMotion.mk c.projection plane).vectorFor p.exact q.exact) center =
      c.projection.project (e.mirrored (decide ((plane.turn e).x < 0) ^^ decide ((plane.turn d).x < 0))).exact := by
  by_cases same : pinhole.image (plane.turn e) = pinhole.image (plane.turn d)
  · rw [← eq_mirrored shows shows' same, ← shows.direction, project_unproject inside]
    exact movePoint_of_image_eq camera shows shows' same center
  · rw [vectorFor_exact camera shows shows', movePoint_shift camera shows shows' same,
      decide_eq_decide.mpr (shows.behind_iff notRear)]

/-- On the rear axis the vector leads to the front. -/
theorem movePoint_of_rear (inside' : c.Inside q) (shows : c.Shows plane p d) (shows' : c.Shows plane q e)
    (rear : plane.turn d = -⟨1, 0, 0⟩) (center : Vec2 Exact) :
    (MotionModel.plane ⟨c.projection, plane⟩).movePoint p.exact
        ((PlaneMotion.mk c.projection plane).vectorFor p.exact q.exact) center = q.exact ↔
      p = q ∨ 0 < (plane.turn e).x ∧ plane.turn e ≠ ⟨1, 0, 0⟩ := by
  have below : (plane.turn d).x < 0 := by
    rw [rear]
    exact neg_one_lt_zero
  by_cases same : pinhole.image (plane.turn e) = pinhole.image (plane.turn d)
  · have onAxis : 0 < (plane.turn e).x → plane.turn e = ⟨1, 0, 0⟩ := by
      intro front
      have opposite := turn_eq_mirrored shows shows' same
      rw [decide_eq_true below, decide_eq_false front.not_gt, rear] at opposite
      exact (neg_inj.mp opposite).symm
    rw [movePoint_of_image_eq camera shows shows' same, Vec2.exact_inj]
    exact ⟨.inl, fun lies => lies.resolve_right fun ⟨front, offAxis⟩ => offAxis (onAxis front)⟩
  · have apart : p ≠ q := by
      rintro rfl
      rw [Vec3.exact_inj.mp (shows.direction.symm.trans shows'.direction)] at same
      exact same rfl
    have visible : ¬(plane.turn d).Behind := fun behind => behind.offAxis (by rw [rear]; exact ⟨neg_zero, neg_zero⟩)
    rw [vectorFor_exact camera shows shows', movePoint_shift camera shows shows' same, decide_eq_false visible,
      Bool.xor_false]
    by_cases front : 0 < (plane.turn e).x
    · have offAxis : plane.turn e ≠ ⟨1, 0, 0⟩ := by
        intro axis
        apply same
        rw [rear, axis]
        exact (pinhole.image_mirrored true ⟨1, 0, 0⟩).symm
      have lands : c.projection.project e.exact = q.exact := by
        rw [← shows'.direction, project_unproject inside']
      rw [decide_eq_false front.not_gt]
      exact ⟨fun _ => .inr ⟨front, offAxis⟩, fun _ => lands⟩
    · have behind : (plane.turn e).x < 0 := lt_of_le_of_ne (not_lt.mp front) shows'.offHorizon
      rw [decide_eq_true behind]
      exact ⟨fun lands => absurd lands shows'.project_neg_ne,
        fun lies => (lies.elim apart fun onFront => front onFront.1).elim⟩

end Shift

/-- The vector for a shift is always a real one. It leads to the shifted point if and only if both points lie on one
side of the horizon, and to the opposite direction if they do not. From the rear axis, which counts as the front,
it leads to the points in front of the plane that are off its axis. -/
theorem movePoint_vectorFor (c : ClosedForm) (plane : MotionPlane) {position shifted : Vec2 ℝ}
    (inside : c.Inside position) (inside' : c.Inside shifted)
    (offHorizon : plane.depth (c.projection.unproject position.exact) ≠ 0)
    (offHorizon' : plane.depth (c.projection.unproject shifted.exact) ≠ 0) (center : Vec2 Exact) :
    let model : MotionModel Exact := .plane ⟨c.projection, plane⟩
    let before := c.projection.unproject position.exact
    let after := c.projection.unproject shifted.exact
    let vector := model.vectorFor position.exact shifted.exact center
    (∃ m : Vec2 ℝ, vector = m.exact) ∧
      (plane.rotation.apply before ≠ -.unitX →
        (model.movePoint position.exact vector center = shifted.exact ↔
          (0 < plane.depth before ↔ 0 < plane.depth after)) ∧
        (¬(0 < plane.depth before ↔ 0 < plane.depth after) →
          model.movePoint position.exact vector center = c.projection.project (-after))) ∧
      (plane.rotation.apply before = -.unitX →
        (model.movePoint position.exact vector center = shifted.exact ↔
          position = shifted ∨ 0 < plane.depth after ∧ plane.rotation.apply after ≠ .unitX)) := by
  intro model before after vector
  obtain ⟨d, shows⟩ := exists_shows inside.sees offHorizon
  obtain ⟨e, shows'⟩ := exists_shows inside'.sees offHorizon'
  obtain ⟨pinhole, camera⟩ := c.exists_pinhole plane
  refine ⟨⟨_, vectorFor_exact camera shows shows'⟩, fun notRear => ?_, fun rear => ?_⟩
  · have moved : model.movePoint position.exact vector center = _ :=
      movePoint_of_notRear camera inside shows shows' (mt shows.eq_neg_unitX_iff.mpr notRear) center
    rw [shows.depth_pos_iff, shows'.depth_pos_iff]
    have direction : after = e.exact := shows'.direction
    have lands : c.projection.project e.exact = shifted.exact := direction ▸ project_unproject inside'
    rw [moved, side_eq shows.offHorizon shows'.offHorizon, direction]
    by_cases oneSide : 0 < (plane.turn d).x ↔ 0 < (plane.turn e).x
    · rw [decide_eq_false (not_not_intro oneSide)]
      exact ⟨⟨fun _ => oneSide, fun _ => lands⟩, fun apart => absurd oneSide apart⟩
    · rw [decide_eq_true oneSide]
      exact ⟨⟨fun same => absurd same shows'.project_neg_ne, fun same => absurd same oneSide⟩, fun _ => rfl⟩
  · rw [shows'.depth_pos_iff, Ne, shows'.eq_unitX_iff]
    exact movePoint_of_rear camera inside' shows shows' (shows.eq_neg_unitX_iff.mp rear) center

/-- Two points behind the plane. -/
theorem movePoint_vectorFor_of_rear_points :
    let c : ClosedForm := .panorama 8 4 0 (by norm_num) (by norm_num)
    let model : MotionModel Exact := .plane ⟨c.projection, .frontBack⟩
    let position := (⟨3, 2⟩ : Vec2 ℝ).exact
    let shifted := (⟨5, 2⟩ : Vec2 ℝ).exact
    c.Inside ⟨3, 2⟩ ∧ c.Inside ⟨5, 2⟩ ∧ MotionPlane.depth .frontBack (c.projection.unproject position) ≠ 0 ∧
      MotionPlane.depth .frontBack (c.projection.unproject shifted) ≠ 0 ∧
      model.movePoint position (model.vectorFor position shifted .origin) .origin = shifted := by
  intro c model position shifted
  obtain ⟨-, shows, shows', -⟩ : _ ∧ c.Shows .frontBack ⟨3, 2⟩ _ ∧ c.Shows .frontBack ⟨5, 2⟩ _ ∧ _ := shows_columns
  have inside : c.Inside ⟨3, 2⟩ := .panorama (by norm_num) (by norm_num)
  have inside' : c.Inside ⟨5, 2⟩ := .panorama (by norm_num) (by norm_num)
  have notRear : (MotionPlane.rotation .frontBack : Mat3 Exact).apply (c.projection.unproject position) ≠
      -.unitX := by
    rw [Ne, shows.eq_neg_unitX_iff]
    exact ne_rear (by simp)
  obtain ⟨-, sides, -⟩ :=
    movePoint_vectorFor c .frontBack inside inside' shows.depth_ne_zero shows'.depth_ne_zero .origin
  refine ⟨inside, inside', shows.depth_ne_zero, shows'.depth_ne_zero, (sides notRear).1.mpr ?_⟩
  rw [shows.depth_pos_iff, shows'.depth_pos_iff]
  rfl

/-- A point in front of the plane and one behind it. The vector for the shift leads to the opposite column. -/
theorem movePoint_vectorFor_across :
    let c : ClosedForm := .panorama 8 4 0 (by norm_num) (by norm_num)
    let model : MotionModel Exact := .plane ⟨c.projection, .frontBack⟩
    let position := (⟨1, 2⟩ : Vec2 ℝ).exact
    let shifted := (⟨3, 2⟩ : Vec2 ℝ).exact
    let vector := model.vectorFor position shifted .origin
    c.Inside ⟨1, 2⟩ ∧ c.Inside ⟨3, 2⟩ ∧ MotionPlane.depth .frontBack (c.projection.unproject position) ≠ 0 ∧
      MotionPlane.depth .frontBack (c.projection.unproject shifted) ≠ 0 ∧
      isUndefined vector.x = false ∧ isUndefined vector.y = false ∧
      model.movePoint position vector .origin = (⟨7, 2⟩ : Vec2 ℝ).exact ∧ (⟨7, 2⟩ : Vec2 ℝ).exact ≠ shifted := by
  intro c model position shifted vector
  obtain ⟨shows, shows', -, opposite⟩ :
    c.Shows .frontBack ⟨1, 2⟩ _ ∧ c.Shows .frontBack ⟨3, 2⟩ _ ∧ _ ∧ c.Shows .frontBack ⟨7, 2⟩ _ := shows_columns
  obtain ⟨pinhole, camera⟩ := c.exists_pinhole .frontBack
  have inside : c.Inside ⟨1, 2⟩ := .panorama (by norm_num) (by norm_num)
  have inside' : c.Inside ⟨3, 2⟩ := .panorama (by norm_num) (by norm_num)
  have inside'' : c.Inside ⟨7, 2⟩ := .panorama (by norm_num) (by norm_num)
  have real : vector = _ := vectorFor_exact camera shows shows'
  refine ⟨inside, inside', shows.depth_ne_zero, shows'.depth_ne_zero, ?_, ?_, ?_, ?_⟩
  · rw [real]
    exact Exact.isUndefined_real
  · rw [real]
    exact Exact.isUndefined_real
  · have positive : 0 < √2 / 2 := by simp
    have moved : model.movePoint position vector .origin = _ :=
      movePoint_of_notRear camera inside shows shows' (ne_rear (by simp)) .origin
    have mirrored : Vec3.mirrored true ⟨-(√2 / 2), -(√2 / 2), 0⟩ = ⟨√2 / 2, √2 / 2, 0⟩ :=
      Vec3.ext (neg_neg _) (neg_neg _) neg_zero
    rw [moved, side_eq shows.offHorizon shows'.offHorizon, decide_eq_true, mirrored, ← opposite.direction,
      project_unproject inside'']
    simp [MotionPlane.turn, positive, positive.le]
  · rw [Ne, Vec2.exact_inj]
    norm_num

end ClosedForm

end SphereMotion
