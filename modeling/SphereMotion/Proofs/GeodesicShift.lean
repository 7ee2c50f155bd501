import Mathlib
import SphereMotion.Proofs.EpipoleAngles
import SphereMotion.Proofs.ReturningPoints

namespace SphereMotion

open Scalar
open Exact (real)

/-- Polar angles that one parallax flow connects: it takes `s` to `t` and `r` to `w`. -/
structure Parallax (s t r w : ℝ) : Prop where
  start : s ∈ Set.Ioo 0 Real.pi
  target : t ∈ Set.Ioo 0 Real.pi
  start' : r ∈ Set.Ioo 0 Real.pi
  target' : w ∈ Set.Ioo 0 Real.pi
  ratio : Real.tan (w / 2) * Real.tan (s / 2) = Real.tan (t / 2) * Real.tan (r / 2)

namespace Parallax

variable {s t r w : ℝ}

theorem half_mem (angle : s ∈ Set.Ioo 0 Real.pi) : s / 2 ∈ Set.Ioo (-(Real.pi / 2)) (Real.pi / 2) := by
  obtain ⟨lower, upper⟩ := angle
  constructor <;> linarith

theorem tan_half_pos (angle : s ∈ Set.Ioo 0 Real.pi) : 0 < Real.tan (s / 2) :=
  Real.tan_pos_of_pos_of_lt_pi_div_two (by linarith [angle.1]) (by linarith [angle.2])

theorem tan_half_eq_iff (angle : s ∈ Set.Ioo 0 Real.pi) (angle' : t ∈ Set.Ioo 0 Real.pi) :
    Real.tan (s / 2) = Real.tan (t / 2) ↔ s = t := by
  rw [Real.strictMonoOn_tan.injOn.eq_iff (half_mem angle) (half_mem angle'), div_left_inj' two_ne_zero]

theorem tan_half_exact (angle : s ∈ Set.Ioo 0 Real.pi) : Scalar.tan (real s / 2) = real (Real.tan (s / 2)) := by
  rw [Exact.two_eq, Exact.real_div two_ne_zero, Exact.tan_real (Real.cos_pos_of_mem_Ioo (half_mem angle)).ne']

theorem symm (flow : Parallax s t r w) : Parallax r w s t :=
  ⟨flow.start', flow.target', flow.start, flow.target, flow.ratio.symm⟩

theorem exists_target (start : s ∈ Set.Ioo 0 Real.pi) (target : t ∈ Set.Ioo 0 Real.pi)
    (start' : r ∈ Set.Ioo 0 Real.pi) :
    ∃ w, Parallax s t r w := by
  have positive : 0 < Real.tan (t / 2) / Real.tan (s / 2) * Real.tan (r / 2) :=
    mul_pos (div_pos (tan_half_pos target) (tan_half_pos start)) (tan_half_pos start')
  have upper := Real.arctan_lt_pi_div_two (Real.tan (t / 2) / Real.tan (s / 2) * Real.tan (r / 2))
  refine ⟨2 * Real.arctan (Real.tan (t / 2) / Real.tan (s / 2) * Real.tan (r / 2)), start, target, start', ?_, ?_⟩
  · exact ⟨mul_pos two_pos (Real.arctan_pos.mpr positive), by linarith⟩
  · rw [mul_div_cancel_left₀ _ two_ne_zero, Real.tan_arctan]
    field_simp [(tan_half_pos start).ne']

theorem apply_eq (flow : Parallax s t r w) :
    (Advance.parallaxBetween (real s) (real t)).apply (real r) = real w := by
  have divisor := tan_half_pos flow.start
  have growth : Real.tan (t / 2) / Real.tan (s / 2) * Real.tan (r / 2) = Real.tan (w / 2) := by
    rw [div_mul_eq_mul_div, ← flow.ratio, mul_div_cancel_right₀ _ divisor.ne']
  obtain ⟨lower, upper⟩ := half_mem flow.target'
  rw [Advance.parallaxBetween, Advance.apply, tan_half_exact flow.start, tan_half_exact flow.target,
    tan_half_exact flow.start', Exact.real_div divisor.ne',
    Exact.log_real (div_pos (tan_half_pos flow.target) divisor), Exact.exp_real,
    Real.exp_log (div_pos (tan_half_pos flow.target) divisor), Exact.real_mul, growth, Exact.atan_real,
    Real.arctan_tan lower upper, Exact.two_eq, Exact.real_mul, mul_div_cancel₀ _ two_ne_zero]

/-- The flow that leaves one angle in its place moves none. -/
theorem target_eq_iff (flow : Parallax s t r w) : t = s ↔ w = r := by
  rw [← tan_half_eq_iff flow.target flow.start, ← tan_half_eq_iff flow.target' flow.start']
  have ratio := flow.ratio
  constructor
  · intro still
    rw [still, mul_comm] at ratio
    exact mul_left_cancel₀ (tan_half_pos flow.start).ne' ratio
  · intro still
    rw [still, mul_comm] at ratio
    exact mul_right_cancel₀ (tan_half_pos flow.start').ne' ratio.symm

end Parallax

namespace Geodesic

section Forms

variable {α : Type} [Scalar α] (m : Geodesic α)

/-- The advance by an angle in the block around `center`. -/
def advanceBy (delta : α) (center : Vec2 α) : Advance α :=
  match m.flavor with
  | .linear => .linear delta
  | .modulated => m.advanceBetween (m.polarAngle center) (m.polarAngle center + delta)

/-- The angle by which one polar angle advances to another in the block around `center`. -/
def angleBetween (start target : α) (center : Vec2 α) : α :=
  match m.flavor with
  | .linear => target - start
  | .modulated =>
    let mid := m.polarAngle center
    if m.nearPole mid then target - start else (m.advanceBetween start target).apply mid - mid

/-- The polar angle to which the horizontal motion of a point is added. -/
def pivot (position center : Vec2 α) : α :=
  match m.flavor with
  | .linear => m.polarAngle position
  | .modulated => if m.nearPole (m.polarAngle center) then m.polarAngle position else m.polarAngle center

theorem advance_eq (motion center : Vec2 α) :
    m.advance motion center = m.advanceBy (motion.x * m.projection.angleResolution) center := rfl

theorem vectorFor_eq (position shifted center : Vec2 α) : m.vectorFor position shifted center =
    let before := m.frame.spherical (m.projection.unproject position)
    let after := m.frame.spherical (m.projection.unproject shifted)
    Vec2.unscale ⟨m.angleBetween before.polar after.polar center, wrapAngle (after.azimuth - before.azimuth)⟩
      m.projection.angleResolution := rfl

end Forms

variable {m : Geodesic Exact} {center : Vec2 Exact} {a start shift target pivot mid : ℝ}

/-- Whether a polar angle is that of a direction off the poles. -/
def OffPoles {α : Type} [Scalar α] (angle : α) : Prop := 0 < angle ∧ angle < pi

theorem offPoles_real {θ : ℝ} : OffPoles (real θ) ↔ θ ∈ Set.Ioo 0 Real.pi := by
  rw [OffPoles, Exact.zero_lt_real, Exact.pi_eq, Exact.real_lt, Set.mem_Ioo]

theorem nearPole_eq_false_iff (resolution : m.projection.angleResolution = real a) :
    m.nearPole (real start) = false ↔ start ∈ Set.Icc a (Real.pi - a) := by
  rw [nearPole, resolution, Bool.or_eq_false_iff, decide_eq_false_iff_not, decide_eq_false_iff_not, Exact.pi_eq,
    Exact.real_sub, Exact.real_lt, Exact.real_lt, not_lt, not_lt, Set.mem_Icc]

theorem polarAngle_mem_of_not_nearPole (resolution : m.projection.angleResolution = real a) (positive : 0 < a)
    (apart : m.nearPole (real start) = false) : start ∈ Set.Ioo 0 Real.pi := by
  obtain ⟨lower, upper⟩ := (nearPole_eq_false_iff resolution).mp apart
  constructor <;> linarith

/-- Off the poles the parallax flow is set by where the center goes. -/
theorem advanceBy_of_apart (flavor : m.flavor = .modulated) (atCenter : m.polarAngle center = real mid)
    (apart : m.nearPole (real mid) = false) :
    m.advanceBy (real shift) center = .parallaxBetween (real mid) (real (mid + shift)) := by
  rw [advanceBy, flavor]
  simp only [atCenter, advanceBetween, apart, Bool.false_eq_true, if_false, Exact.real_add]

/-- A horizontal motion by the angle `shift` takes the polar angle `start` to `target`, and the angle from
`start` to `target` is `shift` again. -/
structure Leads (m : Geodesic Exact) (center : Vec2 Exact) (start shift target : ℝ) : Prop where
  forward : (m.advanceBy (real shift) center).apply (real start) = real target
  back : m.angleBetween (real start) (real target) center = real shift
  still : shift = 0 ↔ target = start

/-- How motions of a point with the polar angle `start` are told: by adding to its own angle or, under the
parallax flow, to the angle of the center. -/
inductive Pivots (m : Geodesic Exact) (center : Vec2 Exact) (start : ℝ) : ℝ → Prop
  | linear (flavor : m.flavor = .linear) : Pivots m center start start
  | nearPole {mid : ℝ} (flavor : m.flavor = .modulated) (atCenter : m.polarAngle center = real mid)
    (near : m.nearPole (real mid) = true) : Pivots m center start start
  | parallax {mid : ℝ} (flavor : m.flavor = .modulated) (atCenter : m.polarAngle center = real mid)
    (apart : m.nearPole (real mid) = false) (apart' : m.nearPole (real start) = false) : Pivots m center start mid

theorem Leads.of_linear (flavor : m.flavor = .linear) (sum : start + shift = target) :
    Leads m center start shift target := by
  subst sum
  refine ⟨?_, ?_, add_eq_left.symm⟩
  · rw [advanceBy, flavor]
    rfl
  · rw [angleBetween, flavor]
    exact congrArg real (add_sub_cancel_left start shift)

theorem Leads.of_nearPole (flavor : m.flavor = .modulated) (atCenter : m.polarAngle center = real mid)
    (near : m.nearPole (real mid) = true) (sum : start + shift = target) : Leads m center start shift target := by
  subst sum
  refine ⟨?_, ?_, add_eq_left.symm⟩
  · rw [advanceBy, flavor]
    simp only [atCenter, advanceBetween, near, if_true, Exact.real_add, Exact.real_sub, add_sub_cancel_left,
      Advance.apply]
  · rw [angleBetween, flavor]
    simp only [atCenter, near, if_true, Exact.real_sub, add_sub_cancel_left]

theorem Leads.of_parallax (flavor : m.flavor = .modulated) (atCenter : m.polarAngle center = real mid)
    (apart : m.nearPole (real mid) = false) (apart' : m.nearPole (real start) = false)
    (flow : Parallax mid (mid + shift) start target) : Leads m center start shift target := by
  refine ⟨?_, ?_, ?_⟩
  · rw [advanceBy_of_apart flavor atCenter apart, flow.apply_eq]
  · rw [angleBetween, flavor]
    simp only [atCenter, advanceBetween, apart, apart', Bool.false_eq_true, if_false]
    -- The flow that takes the position along takes the center along as well.
    rw [flow.symm.apply_eq, Exact.real_sub, add_sub_cancel_left]
  · rw [← flow.target_eq_iff, add_eq_left]

namespace Pivots

variable (pivots : Pivots m center start pivot)
include pivots

theorem exists_target (resolution : m.projection.angleResolution = real a) (positive : 0 < a)
    (within : pivot + shift ∈ Set.Ioo 0 Real.pi) :
    ∃ target ∈ Set.Ioo 0 Real.pi, Leads m center start shift target := by
  cases pivots with
  | linear flavor => exact ⟨start + shift, within, .of_linear flavor rfl⟩
  | nearPole flavor atCenter near => exact ⟨start + shift, within, .of_nearPole flavor atCenter near rfl⟩
  | parallax flavor atCenter apart apart' =>
    obtain ⟨target, flow⟩ :=
      Parallax.exists_target (polarAngle_mem_of_not_nearPole resolution positive apart) within
      (polarAngle_mem_of_not_nearPole resolution positive apart')
    exact ⟨target, flow.target', .of_parallax flavor atCenter apart apart' flow⟩

theorem exists_shift (resolution : m.projection.angleResolution = real a) (positive : 0 < a)
    (within : start ∈ Set.Ioo 0 Real.pi) (within' : target ∈ Set.Ioo 0 Real.pi) :
    ∃ shift, Leads m center start shift target := by
  cases pivots with
  | linear flavor => exact ⟨target - start, .of_linear flavor (add_sub_cancel start target)⟩
  | nearPole flavor atCenter near =>
    exact ⟨target - start, .of_nearPole flavor atCenter near (add_sub_cancel start target)⟩
  | parallax flavor atCenter apart apart' =>
    obtain ⟨reached, flow⟩ := Parallax.exists_target within within'
      (polarAngle_mem_of_not_nearPole resolution positive apart)
    exact ⟨reached - pivot, .of_parallax flavor atCenter apart apart' (by rw [add_sub_cancel]; exact flow.symm)⟩

end Pivots

end Geodesic

namespace ClosedForm

open Geodesic

/-- A point whose direction has these angles about the epipole, and is made from them. -/
structure Placed (c : ClosedForm) (f : EpipoleFrame Exact) (p : Vec2 ℝ) (θ φ : ℝ) : Prop where
  made : f.direction (real θ) (real φ) = c.projection.unproject p.exact
  angles : f.spherical (c.projection.unproject p.exact) = ⟨real 1, real θ, real φ⟩

variable {c : ClosedForm} {m : Geodesic Exact} {position shifted : Vec2 ℝ} {center : Vec2 Exact} {t : Triad}
  {a start target shift θ φ ψ : ℝ}

section Frame

variable {f : EpipoleFrame Exact} (axes : f.rotation = t.matrix)
include axes

theorem exists_placed (sees : c.Sees position) : ∃ θ φ, c.Placed f position θ φ := by
  obtain ⟨d, direction, unit⟩ := exists_direction sees
  refine ⟨(t.turn d).polarAngle, (t.turn d).azimuth, ?_, ?_⟩
  · rw [direction, EpipoleFrame.direction_angles axes unit]
  · rw [direction, EpipoleFrame.spherical_exact axes unit]

/-- Angles off the poles belong to a point of the picture. -/
theorem exists_placed_image (polar : θ ∈ Set.Ioo 0 Real.pi) (φ : ℝ) : ∃ p : Vec2 ℝ,
    c.projection.project (f.direction (real θ) (real φ)) = p.exact ∧ c.Placed f p θ (φ : Real.Angle).toReal := by
  have unit : (t.turnBack (Vec3.ofAngles θ φ)).length = 1 := (t.length_turnBack _).trans (Vec3.length_ofAngles θ φ)
  obtain ⟨p, image, -, direction⟩ := c.exists_image (Vec3.ne_zero_of_length unit)
  rw [Vec3.normalized_of_length unit] at direction
  refine ⟨p, by rw [EpipoleFrame.direction_exact axes, image], ?_, ?_⟩
  · rw [direction, EpipoleFrame.direction_congr axes (Real.Angle.coe_toReal φ), EpipoleFrame.direction_exact axes]
  · rw [direction, EpipoleFrame.spherical_exact axes unit, Triad.turn_turnBack,
      Vec3.polarAngle_ofAngles (Set.Ioo_subset_Icc_self polar), Vec3.azimuth_ofAngles polar]

end Frame

/-- Only a point in the same direction is no shift. -/
theorem Placed.shift_eq_zero_iff (axes : m.frame.rotation = t.matrix)
    (placed : c.Placed m.frame position start φ) (placed' : c.Placed m.frame shifted target ψ) {motion : Vec2 ℝ}
    (leads : Leads m center start (a * motion.x) target)
    (turn : a * motion.y = ((ψ - φ : ℝ) : Real.Angle).toReal) (positive : 0 < a) :
    motion = 0 ↔ c.projection.unproject position.exact = c.projection.unproject shifted.exact := by
  constructor
  · rintro rfl
    have stays : target = start := leads.still.mp (mul_zero a)
    have level : ((ψ - φ : ℝ) : Real.Angle) = 0 := Real.Angle.toReal_eq_zero_iff.mp (turn.symm.trans (mul_zero a))
    have alike : (φ : Real.Angle) = ψ := by rwa [Real.Angle.coe_sub, sub_eq_zero, eq_comm] at level
    rw [← placed.made, ← placed'.made, stays, EpipoleFrame.direction_congr axes alike]
  · intro same
    have alike := placed'.angles
    rw [← same, placed.angles, Spherical.mk.injEq, Exact.real.injEq, Exact.real.injEq, Exact.real.injEq] at alike
    obtain ⟨-, polar, azimuth⟩ := alike
    rw [azimuth, sub_self, Real.Angle.coe_zero, Real.Angle.toReal_zero] at turn
    exact Vec2.ext ((mul_eq_zero.mp (leads.still.mpr polar.symm)).resolve_left positive.ne')
      ((mul_eq_zero.mp turn).resolve_left positive.ne')

section Motion

variable (projects : m.projection = c.projection) (resolution : c.projection.angleResolution = real a)
  (placed : c.Placed m.frame position start φ)
include projects resolution placed

theorem movePoint_geodesic {motion : Vec2 ℝ} (moves : motion ≠ 0)
    (forward : (m.advanceBy (real (a * motion.x)) center).apply (real start) = real target) :
    (MotionModel.geodesic m).movePoint position.exact motion.exact center =
      c.projection.project (m.frame.direction (real target) (real (φ + a * motion.y))) := by
  rw [Geodesic.movePoint_eq _ (Vec2.isZero_of_ne moves), projects, placed.angles, advance_eq, projects, resolution,
    Vec2.exact, Exact.real_mul, Exact.real_mul, mul_comm motion.x, mul_comm motion.y, forward, Exact.real_add]

theorem vectorFor_geodesic (positive : 0 < a) (placed' : c.Placed m.frame shifted target ψ)
    (leads : Leads m center start shift target) : m.vectorFor position.exact shifted.exact center =
      (Vec2.scaled a⁻¹ ⟨shift, ((ψ - φ : ℝ) : Real.Angle).toReal⟩).exact := by
  rw [vectorFor_eq, projects, placed.angles, placed'.angles]
  simp only [leads.back, Exact.real_sub, Exact.wrapAngle_real]
  rw [resolution, ← Vec2.exact_unscale positive.ne']
  rfl

/-- The moved point, with its angles. -/
theorem exists_moved_geodesic (axes : m.frame.rotation = t.matrix) (polar : target ∈ Set.Ioo 0 Real.pi)
    {motion : Vec2 ℝ} (forward : (m.advanceBy (real (a * motion.x)) center).apply (real start) = real target)
    (level : motion.x = 0 → target = start) : ∃ moved ψ,
      (MotionModel.geodesic m).movePoint position.exact motion.exact center = Vec2.exact moved ∧
        c.Placed m.frame moved target ψ ∧ ((ψ - φ : ℝ) : Real.Angle) = (a * motion.y : ℝ) := by
  by_cases still : motion = 0
  · subst still
    rw [level rfl]
    refine ⟨position, φ, MotionModel.movePoint_of_isZero _ (Vec2.isZero_exact.mpr rfl) _ _, placed, ?_⟩
    exact congrArg _ ((sub_self φ).trans (mul_zero a).symm)
  · obtain ⟨moved, image, placed'⟩ := exists_placed_image axes polar (φ + a * motion.y)
    refine ⟨moved, _, (movePoint_geodesic projects resolution placed still forward).trans image, placed', ?_⟩
    rw [Real.Angle.coe_sub, Real.Angle.coe_toReal, Real.Angle.coe_add, add_sub_cancel_left]

/-- The vector for a shift leads to the shifted point, but a zero one leads nowhere. -/
theorem movePoint_geodesic_shift (axes : m.frame.rotation = t.matrix) (placed' : c.Placed m.frame shifted target ψ)
    {motion : Vec2 ℝ} (leads : Leads m center start (a * motion.x) target)
    (turn : a * motion.y = ((ψ - φ : ℝ) : Real.Angle).toReal) (positive : 0 < a) (returns : c.Returns shifted) :
    (MotionModel.geodesic m).movePoint position.exact motion.exact center = shifted.exact ↔
      position = shifted ∨ c.projection.unproject position.exact ≠ c.projection.unproject shifted.exact := by
  refine MotionModel.movePoint_shift_iff (placed.shift_eq_zero_iff axes placed' leads turn positive) fun moves => ?_
  have turned : ((φ + a * motion.y : ℝ) : Real.Angle) = ψ := by
    rw [turn, Real.Angle.coe_add, Real.Angle.coe_toReal, Real.Angle.coe_sub, add_sub_cancel]
  rw [movePoint_geodesic projects resolution placed moves leads.forward, EpipoleFrame.direction_congr axes turned,
    placed'.made, returns]

end Motion

theorem Placed.polarAngle_eq (projects : m.projection = c.projection) (placed : c.Placed m.frame position θ φ) :
    m.polarAngle position.exact = real θ := by
  rw [Geodesic.polarAngle, projects, placed.angles]

theorem exists_pivots (projects : m.projection = c.projection) (rigid : m.frame.rotation.Orthogonal)
    {center : Vec2 ℝ} (atPosition : m.polarAngle position.exact = real start)
    (tied : m.flavor = .modulated → c.Sees center ∧
      (m.nearPole (m.polarAngle center.exact) = true ∨ m.nearPole (m.polarAngle position.exact) = false)) :
    ∃ pivot, m.pivot position.exact center.exact = real pivot ∧ Pivots m center.exact start pivot := by
  cases flavor : m.flavor with
  | linear => exact ⟨start, by rw [Geodesic.pivot, flavor, atPosition], .linear flavor⟩
  | modulated =>
    obtain ⟨sees, apart⟩ := tied flavor
    obtain ⟨t, axes⟩ := rigid.exists_triad
    obtain ⟨mid, φ, placed⟩ := exists_placed axes sees
    have atCenter := placed.polarAngle_eq projects
    rw [atCenter, atPosition] at apart
    by_cases near : m.nearPole (real mid) = true
    · refine ⟨start, ?_, .nearPole flavor atCenter near⟩
      simp only [Geodesic.pivot, flavor, atCenter, near, if_true, atPosition]
    · refine ⟨mid, ?_, .parallax flavor atCenter (Bool.eq_false_of_not_eq_true near) (apart.resolve_left near)⟩
      simp only [Geodesic.pivot, flavor, atCenter, if_neg near]

/-- The vector of a motion is found again in the moved point, and the vector for a shift leads to the
shifted point. It is zero, and leads nowhere, for another point in the direction of the position. For the
parallax flow both the position and the center have to be off the poles by a pixel, unless the center is not
and all points advance alike. -/
theorem geodesic_inverse (projects : m.projection = c.projection) (rigid : m.frame.rotation.Orthogonal)
    {position center : Vec2 ℝ} (sees : c.Sees position)
    (tied : m.flavor = .modulated → c.Sees center ∧
      (m.nearPole (m.polarAngle center.exact) = true ∨ m.nearPole (m.polarAngle position.exact) = false)) :
    let model : MotionModel Exact := .geodesic m
    let a := m.projection.angleResolution
    (∀ motion : Vec2 ℝ, real |motion.y| * a < pi →
      OffPoles (m.pivot position.exact center.exact + real motion.x * a) →
      ∃ moved : Vec2 ℝ, model.movePoint position.exact motion.exact center.exact = moved.exact ∧
        model.vectorFor position.exact moved.exact center.exact = motion.exact) ∧
    ∀ shifted : Vec2 ℝ, c.Returns shifted → OffPoles (m.polarAngle shifted.exact) →
      OffPoles (m.polarAngle position.exact) →
      ∃ vector : Vec2 ℝ, model.vectorFor position.exact shifted.exact center.exact = vector.exact ∧
        (vector = 0 ↔ c.projection.unproject position.exact = c.projection.unproject shifted.exact) ∧
        (model.movePoint position.exact vector.exact center.exact = shifted.exact ↔
          position = shifted ∨ c.projection.unproject position.exact ≠ c.projection.unproject shifted.exact) := by
  intro model a
  obtain ⟨t, axes⟩ := rigid.exists_triad
  obtain ⟨start, φ, placed⟩ := exists_placed axes sees
  have atPosition := placed.polarAngle_eq projects
  obtain ⟨pivot, value, pivots⟩ := exists_pivots projects rigid atPosition tied
  obtain ⟨k, positive, resolution⟩ := c.exists_resolution
  have resolution' : m.projection.angleResolution = real k := projects ▸ resolution
  refine ⟨fun motion turns within => ?_, fun shifted returns within within' => ?_⟩
  · rw [Exact.pi_eq] at turns
    simp only [a, resolution', value, Exact.real_mul, Exact.real_add, offPoles_real, Exact.real_lt,
      mul_comm _ k] at turns within
    obtain ⟨target, polar, leads⟩ := pivots.exists_target resolution' positive within
    obtain ⟨moved, ψ, lands, placed', turned⟩ :=
      exists_moved_geodesic projects resolution placed axes polar leads.forward
      fun level => leads.still.mp (by rw [level, mul_zero])
    refine ⟨moved, lands, (vectorFor_geodesic projects resolution placed positive placed' leads).trans ?_⟩
    have level : ((ψ - φ : ℝ) : Real.Angle).toReal = k * motion.y := by
      rw [← abs_of_pos positive, ← abs_mul, abs_lt] at turns
      rw [turned, Real.Angle.toReal_coe_eq_self_iff_mem_Ioc.mpr ⟨turns.1, turns.2.le⟩]
    rw [level]
    exact congrArg Vec2.exact (Vec2.inv_scaled positive.ne' motion)
  · obtain ⟨target, ψ, placed'⟩ := exists_placed axes returns.sees
    rw [placed'.polarAngle_eq projects, offPoles_real] at within
    rw [atPosition, offPoles_real] at within'
    obtain ⟨shift, leads⟩ := pivots.exists_shift resolution' positive within' within
    have whole : k * (k⁻¹ * shift) = shift := mul_inv_cancel_left₀ positive.ne' shift
    have turn := mul_inv_cancel_left₀ positive.ne' ((ψ - φ : ℝ) : Real.Angle).toReal
    exact ⟨_, vectorFor_geodesic projects resolution placed positive placed' leads,
      placed.shift_eq_zero_iff axes placed' (whole.symm ▸ leads) turn positive,
      movePoint_geodesic_shift projects resolution placed axes placed' (whole.symm ▸ leads) turn positive returns⟩

section Front

variable {flavor : GeodesicFlavor} {p : Vec2 ℝ} {v : Vec3 ℝ}

theorem polarAngle_front (seen : c.projection.unproject p.exact = v.exact) (unit : v.length = 1) :
    (Geodesic.build c.projection flavor .unitX).polarAngle p.exact = real (Real.arccos v.x) := by
  have angles := EpipoleFrame.spherical_exact Exact.rotation_front unit
  have turned : Triad.front.turn v = ⟨-v.z, v.y, v.x⟩ := by simp [Triad.turn, Triad.front]
  have unit' := (Triad.front.length_turn v).trans unit
  rw [turned] at angles unit'
  rw [Geodesic.polarAngle, Geodesic.build, seen, angles, Vec3.polarAngle, unit', div_one]

/-- The angle from straight ahead of a point on the horizon of a panorama is that of its column. -/
theorem polarAngle_front_of_column {width height offset φ θ : ℝ} {wide : 0 < width} {tall : 0 < height}
    (level : (p.y + offset) / height * Real.pi = Real.pi / 2)
    (column : -(p.x + offset) / width * 2 * Real.pi = φ) (same : Real.cos φ = Real.cos θ)
    (polar : θ ∈ Set.Icc 0 Real.pi) :
    (Geodesic.build (panorama width height offset wide tall).projection flavor .unitX).polarAngle p.exact =
      real θ := by
  refine (polarAngle_front (unproject_of_angles level column) (Vec3.length_ofAngles _ _)).trans ?_
  rw [Vec3.ofAngles, Real.sin_pi_div_two, one_mul, same, Real.arccos_cos polar.1 polar.2]

/-- Three points on the horizon of a small panorama, the last of them behind the camera. -/
theorem polarAngle_front_of_columns {wide : (0 : ℝ) < 8} {tall : (0 : ℝ) < 4} (flavor : GeodesicFlavor) :
    let m : Geodesic Exact := .build (panorama 8 4 0 wide tall).projection flavor .unitX
    m.polarAngle (⟨1, 2⟩ : Vec2 ℝ).exact = real (Real.pi / 4) ∧
      m.polarAngle (⟨2, 2⟩ : Vec2 ℝ).exact = real (Real.pi / 2) ∧
      m.polarAngle (⟨5, 2⟩ : Vec2 ℝ).exact = real (Real.pi - Real.pi / 4) := by
  have pos := Real.pi_pos
  have level : ((2 : ℝ) + 0) / 4 * Real.pi = Real.pi / 2 := by ring
  refine ⟨polarAngle_front_of_column level (φ := -(Real.pi / 4)) (by ring) (Real.cos_neg _) ?_,
    polarAngle_front_of_column level (φ := -(Real.pi / 2)) (by ring) (Real.cos_neg _) ?_,
    polarAngle_front_of_column level (φ := -(2 * Real.pi - (Real.pi - Real.pi / 4))) (by ring)
      ((Real.cos_neg _).trans (Real.cos_two_pi_sub _)) ?_⟩
  all_goals constructor <;> linarith

end Front

/-- A motion past the edge of the picture and a shift across the back, in the frame of the epipole
straight ahead. -/
theorem geodesic_inverse_of_front :
    let c : ClosedForm := .panorama 8 4 0 (by norm_num) (by norm_num)
    let m : Geodesic Exact := .build c.projection .modulated .unitX
    let model : MotionModel Exact := .geodesic m
    let a := m.projection.angleResolution
    let position : Vec2 ℝ := ⟨1, 2⟩
    let center : Vec2 ℝ := ⟨2, 2⟩
    let motion : Vec2 ℝ := ⟨1 / 2, 3⟩
    let shifted : Vec2 ℝ := ⟨5, 2⟩
    (m.projection = c.projection ∧ m.frame.rotation.Orthogonal ∧ c.Sees position ∧ c.Sees center ∧
        m.nearPole (m.polarAngle center.exact) = false ∧ m.nearPole (m.polarAngle position.exact) = false) ∧
      (real |motion.y| * a < pi ∧ OffPoles (m.pivot position.exact center.exact + real motion.x * a) ∧
        ∃ moved : Vec2 ℝ, model.movePoint position.exact motion.exact center.exact = moved.exact ∧
          model.vectorFor position.exact moved.exact center.exact = motion.exact) ∧
      c.Returns shifted ∧ OffPoles (m.polarAngle shifted.exact) ∧ OffPoles (m.polarAngle position.exact) ∧
      model.movePoint position.exact (model.vectorFor position.exact shifted.exact center.exact) center.exact =
        shifted.exact := by
  intro c m model a position center motion shifted
  have pos := Real.pi_pos
  obtain ⟨atPosition, atCenter, atShifted⟩ : m.polarAngle position.exact = _ ∧ m.polarAngle center.exact = _ ∧
    m.polarAngle shifted.exact = _ := polarAngle_front_of_columns .modulated
  have resolution : a = real (Real.pi / 4) := by
    refine (Exact.angleResolution_panorama (by norm_num)).trans (congrArg real ?_)
    ring
  have far : m.nearPole (m.polarAngle position.exact) = false :=
    atPosition ▸ (nearPole_eq_false_iff resolution).mpr ⟨le_rfl, by linarith⟩
  have far' : m.nearPole (m.polarAngle center.exact) = false :=
    atCenter ▸ (nearPole_eq_false_iff resolution).mpr ⟨by linarith, by linarith⟩
  have rigid : m.frame.rotation.Orthogonal := Exact.rotation_front ▸ Triad.front.orthogonal_matrix
  have returns : c.Returns position := (Inside.panorama (by norm_num) (by norm_num)).returns
  have returns' : c.Returns shifted := (Inside.panorama (by norm_num) (by norm_num)).returns
  have turns : real |motion.y| * a < pi := by
    rw [resolution, Exact.real_mul, Exact.pi_eq, Exact.real_lt, abs_of_pos three_pos]
    linarith
  have within : OffPoles (m.pivot position.exact center.exact + real motion.x * a) := by
    have value : m.pivot position.exact center.exact = real (Real.pi / 2) :=
      (if_neg (Bool.eq_false_iff.mp far')).trans atCenter
    rw [value, resolution, Exact.real_mul, Exact.real_add, offPoles_real]
    constructor <;> linarith
  have off : OffPoles (m.polarAngle position.exact) :=
    atPosition ▸ offPoles_real.mpr ⟨by linarith, by linarith⟩
  have off' : OffPoles (m.polarAngle shifted.exact) :=
    atShifted ▸ offPoles_real.mpr ⟨by linarith, by linarith⟩
  have elsewhere : position ≠ shifted := by
    rw [Ne, Vec2.ext_iff]
    norm_num [position, shifted]
  obtain ⟨back, forth⟩ := geodesic_inverse (m := m) (c := c) rfl rigid .panorama fun _ => ⟨.panorama, .inr far⟩
  obtain ⟨vector, value, -, lands⟩ := forth shifted returns' off' off
  exact ⟨⟨rfl, rigid, .panorama, .panorama, far', far⟩, ⟨turns, within, back motion turns within⟩,
    returns', off', off, value ▸ lands.mpr (.inr (returns.unproject_ne returns' elsewhere))⟩

/-- Two points that show the upper pole, which the epipole straight ahead is a quarter turn away from. The
vector from one to the other is zero. -/
theorem geodesic_inverse_on_top_row :
    let c : ClosedForm := .panorama 8 4 0 (by norm_num) (by norm_num)
    let m : Geodesic Exact := .build c.projection .linear .unitX
    let model : MotionModel Exact := .geodesic m
    let position : Vec2 ℝ := ⟨3, 0⟩
    let center : Vec2 ℝ := ⟨0, 1⟩
    let shifted : Vec2 ℝ := ⟨0, 0⟩
    m.frame.rotation.Orthogonal ∧ c.Covers position ∧ c.Covers center ∧ c.Covers shifted ∧ c.Returns shifted ∧
      OffPoles (m.polarAngle shifted.exact) ∧ OffPoles (m.polarAngle position.exact) ∧
      model.movePoint position.exact (model.vectorFor position.exact shifted.exact center.exact) center.exact ≠
        shifted.exact := by
  intro c m model position center shifted
  have top {p : Vec2 ℝ} (first : p.y + 0 = 0) : OffPoles (m.polarAngle p.exact) := by
    have value : m.polarAngle p.exact = _ := polarAngle_front (unproject_top first) (by simp [Vec3.length])
    rw [value, Real.arccos_zero, offPoles_real]
    constructor <;> linarith [Real.pi_pos]
  have same : c.projection.unproject position.exact = c.projection.unproject shifted.exact :=
    (unproject_top (add_zero 0)).trans (unproject_top (add_zero 0)).symm
  obtain ⟨k, positive, resolution⟩ := c.exists_resolution
  have axes : m.frame.rotation = Triad.front.matrix := Exact.rotation_front
  obtain ⟨start, φ, placed⟩ : ∃ θ φ, c.Placed m.frame position θ φ := exists_placed axes .panorama
  have placed' : c.Placed m.frame shifted start φ := ⟨placed.made.trans same, same ▸ placed.angles⟩
  have still : model.vectorFor position.exact shifted.exact center.exact = (0 : Vec2 ℝ).exact := by
    have leads : Leads m center.exact start 0 start := .of_linear rfl (add_zero start)
    refine (vectorFor_geodesic rfl resolution placed positive placed' leads).trans ?_
    rw [sub_self, Real.Angle.coe_zero, Real.Angle.toReal_zero]
    exact congrArg Vec2.exact (Vec2.scaled_zero k⁻¹)
  refine ⟨axes ▸ Triad.front.orthogonal_matrix, .panorama (by norm_num) (by norm_num),
    .panorama (by norm_num) (by norm_num), .panorama (by norm_num) (by norm_num),
    returns_corner (add_zero 0) (add_zero 0),
    top (add_zero 0), top (add_zero 0), ?_⟩
  rw [still, MotionModel.movePoint_of_isZero _ (Vec2.isZero_exact.mpr rfl), Ne, Vec2.exact_inj]
  norm_num [position, shifted, Vec2.ext_iff]

end ClosedForm

end SphereMotion
