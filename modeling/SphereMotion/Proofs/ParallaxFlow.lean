import Mathlib
import SphereMotion.Proofs.GeodesicShift
import SphereMotion.Proofs.PoleFrames

namespace SphereMotion

open Scalar
open Exact (real)

namespace Parallax

variable {s t r r' w w' : ℝ}

theorem tan_half_lt_iff (angle : s ∈ Set.Ioo 0 Real.pi) (angle' : t ∈ Set.Ioo 0 Real.pi) :
    Real.tan (s / 2) < Real.tan (t / 2) ↔ s < t := by
  rw [Real.strictMonoOn_tan.lt_iff_lt (half_mem angle) (half_mem angle'), div_lt_div_iff_of_pos_right two_pos]

/-- The flow the other way. -/
theorem back (flow : Parallax s t r w) : Parallax t s w r :=
  ⟨flow.target, flow.start, flow.target', flow.start', by linarith [flow.ratio]⟩

theorem lt_iff_lt (flow : Parallax s t r w) (flow' : Parallax s t r' w') : w < w' ↔ r < r' := by
  have start := tan_half_pos flow.start
  have target := tan_half_pos flow.target
  rw [← tan_half_lt_iff flow.target' flow'.target', ← tan_half_lt_iff flow.start' flow'.start',
    ← mul_lt_mul_iff_left₀ start, flow.ratio, flow'.ratio, mul_lt_mul_iff_right₀ target]

/-- All angles go the way that one of them goes. -/
theorem start_lt_iff (flow : Parallax s t r w) : r < w ↔ s < t := by
  rw [← tan_half_lt_iff flow.start' flow.target', ← tan_half_lt_iff flow.start flow.target,
    ← mul_lt_mul_iff_left₀ (tan_half_pos flow.start), flow.ratio, mul_comm,
    mul_lt_mul_iff_left₀ (tan_half_pos flow.start')]

theorem target_lt_iff (flow : Parallax s t r w) : w < r ↔ t < s := flow.back.start_lt_iff

theorem target_unique (flow : Parallax s t r w) (flow' : Parallax s t r w') : w = w' := by
  have notBelow : ¬w < w' := fun below => lt_irrefl r ((flow.lt_iff_lt flow').mp below)
  have notAbove : ¬w' < w := fun above => lt_irrefl r ((flow'.lt_iff_lt flow).mp above)
  exact le_antisymm (not_lt.mp notAbove) (not_lt.mp notBelow)

/-- A map of the polar angles off the poles by a parallax flow. -/
structure Flow (s t : ℝ) (flow : ℝ → ℝ) : Prop where
  flows {r : ℝ} : r ∈ Set.Ioo 0 Real.pi → Parallax s t r (flow r)

theorem exists_flow (start : s ∈ Set.Ioo 0 Real.pi) (target : t ∈ Set.Ioo 0 Real.pi) : ∃ flow, Flow s t flow := by
  choose! flow flows using fun r (start' : r ∈ Set.Ioo 0 Real.pi) => exists_target start target start'
  exact ⟨flow, ⟨fun {r} => flows r⟩⟩

namespace Flow

variable {flow : ℝ → ℝ} (isFlow : Flow s t flow)
include isFlow

theorem strictMonoOn : StrictMonoOn flow (Set.Ioo 0 Real.pi) :=
  fun _ mem _ mem' below => ((isFlow.flows mem).lt_iff_lt (isFlow.flows mem')).mpr below

theorem bijOn (start : s ∈ Set.Ioo 0 Real.pi) (target : t ∈ Set.Ioo 0 Real.pi) :
    Set.BijOn flow (Set.Ioo 0 Real.pi) (Set.Ioo 0 Real.pi) := by
  refine ⟨fun r mem => (isFlow.flows mem).target', isFlow.strictMonoOn.injOn, fun w mem => ?_⟩
  obtain ⟨r, origin⟩ := exists_target target start mem
  exact ⟨r, origin.target', (isFlow.flows origin.target').target_unique origin.back⟩

theorem apply_start (start : s ∈ Set.Ioo 0 Real.pi) (target : t ∈ Set.Ioo 0 Real.pi) : flow s = t :=
  (isFlow.flows start).target_unique ⟨start, target, start, target, rfl⟩

end Flow

end Parallax

/-- The angles from the epipole under which a point is seen. -/
def Geodesic.Lies (m : Geodesic Exact) (p : Vec2 ℝ) (θ φ : ℝ) : Prop :=
  m.frame.spherical (m.projection.unproject p.exact) = ⟨real 1, real θ, real φ⟩

namespace ClosedForm

open Geodesic Parallax

variable {c : ClosedForm} {m : Geodesic Exact} {center : Vec2 ℝ} {f mid : ℝ}

theorem sees_of_polarAngle (projects : m.projection = c.projection)
    (atCenter : m.polarAngle center.exact = real mid) :
    c.Sees center := by
  by_contra blind
  rw [Geodesic.polarAngle, projects, unproject_of_not_sees blind, EpipoleFrame.spherical_undefined] at atCenter
  cases atCenter

theorem focalLength_pos (focal : c.projection.focalLength = real f) : 0 < f := by
  obtain ⟨f', positive, focal', -⟩ := c.exists_focalLength
  exact real.inj (focal.symm.trans focal') ▸ positive

/-- A modulated motion takes the block center on by exactly its own angles. All points of a block that are
seen off the poles go along: their polar angles through a map of the open interval from pole to pole onto
itself that keeps their order and moves all of them the same way, and their azimuths by the same angle. -/
theorem modulated_flow (projects : m.projection = c.projection) (flavor : m.flavor = .modulated)
    (focal : c.projection.focalLength = real f) (atCenter : m.polarAngle center.exact = real mid)
    (apart : mid ∈ Set.Icc (1 / f) (Real.pi - 1 / f)) {motion : Vec2 ℝ}
    (within : mid + motion.x / f ∈ Set.Ioo 0 Real.pi) :
    let model : MotionModel Exact := .geodesic m
    ∃ flow : ℝ → ℝ,
      (StrictMonoOn flow (Set.Ioo 0 Real.pi) ∧ Set.BijOn flow (Set.Ioo 0 Real.pi) (Set.Ioo 0 Real.pi)) ∧
      (∀ θ ∈ Set.Ioo 0 Real.pi, (θ < flow θ ↔ 0 < motion.x) ∧ (flow θ < θ ↔ motion.x < 0)) ∧
      (∃ moved φ ψ, model.movePoint center.exact motion.exact center.exact = Vec2.exact moved ∧
        m.Lies center mid φ ∧
        m.Lies moved (mid + motion.x / f) ψ ∧ (ψ : Real.Angle) = (φ + motion.y / f : ℝ)) ∧
      ∀ (g : Grid (Vec2 Exact)) (i : Nat) (p : Vec2 ℝ), g.get? i = some p.exact → c.Sees p →
        OffPoles (m.polarAngle p.exact) → ∃ θ φ moved ψ, m.Lies p θ φ ∧
          (model.move g motion.exact center.exact).get? i = some (Vec2.exact moved) ∧ m.Lies moved (flow θ) ψ ∧
          (ψ : Real.Angle) = (φ + motion.y / f : ℝ) := by
  intro model
  obtain ⟨t, axes⟩ := m.frame.exists_axes
  have positive := focalLength_pos focal
  have resolution := Projection.angleResolution_real focal positive.ne'
  have resolution' : m.projection.angleResolution = real (1 / f) := projects ▸ resolution
  have far := (nearPole_eq_false_iff resolution').mpr apart
  have middle := polarAngle_mem_of_not_nearPole resolution' (one_div_pos.mpr positive) far
  obtain ⟨flow, isFlow⟩ := exists_flow middle within
  have each {p : Vec2 ℝ} {θ φ : ℝ} (placed : c.Placed m.frame p θ φ) (polar : θ ∈ Set.Ioo 0 Real.pi) :
      ∃ moved ψ, model.movePoint p.exact motion.exact center.exact = Vec2.exact moved ∧ m.Lies moved (flow θ) ψ ∧
        (ψ : Real.Angle) = (φ + motion.y / f : ℝ) := by
    have through := isFlow.flows polar
    have forward : (m.advanceBy (real (1 / f * motion.x)) center.exact).apply (real θ) = real (flow θ) := by
      rw [advanceBy_of_apart flavor atCenter far, one_div_mul_eq_div, through.apply_eq]
    have level (still : motion.x = 0) : flow θ = θ := by
      rw [← through.target_eq_iff, still, zero_div, add_zero]
    obtain ⟨moved, ψ, lands, placed', turned⟩ :=
      exists_moved_geodesic projects resolution placed axes through.target' forward level
    refine ⟨moved, ψ, lands, ?_, ?_⟩
    · rw [Lies, projects, placed'.angles]
    · rw [one_div_mul_eq_div, Real.Angle.coe_sub, sub_eq_iff_eq_add'] at turned
      rw [turned, Real.Angle.coe_add]
  refine ⟨flow, ⟨isFlow.strictMonoOn, isFlow.bijOn middle within⟩, fun θ polar => ⟨?_, ?_⟩, ?_,
    fun g i p entry sees off => ?_⟩
  · rw [(isFlow.flows polar).start_lt_iff, lt_add_iff_pos_right, div_pos_iff_of_pos_right positive]
  · rw [(isFlow.flows polar).target_lt_iff, add_lt_iff_neg_left, div_lt_iff₀ positive, zero_mul]
  · obtain ⟨θ, φ, placed⟩ := exists_placed axes (sees_of_polarAngle projects atCenter)
    obtain rfl : θ = mid := real.inj ((placed.polarAngle_eq projects).symm.trans atCenter)
    obtain ⟨moved, ψ, lands, lies, turned⟩ := each placed middle
    rw [isFlow.apply_start middle within] at lies
    exact ⟨moved, φ, ψ, lands, by rw [Lies, projects, placed.angles], lies, turned⟩
  · obtain ⟨θ, φ, placed⟩ := exists_placed axes sees
    rw [placed.polarAngle_eq projects, offPoles_real] at off
    obtain ⟨moved, ψ, lands, lies, turned⟩ := each placed off
    refine ⟨θ, φ, moved, ψ, by rw [Lies, projects, placed.angles], ?_, lies, turned⟩
    rw [MotionModel.move_eq_map, Grid.get?_map, entry, Option.map_some, lands]

/-- A block center at a quarter turn from the epipole straight ahead, and a point less than a pixel
away from the epipole. -/
theorem modulated_flow_of_front :
    let c : ClosedForm := .panorama 8 4 0 (by norm_num) (by norm_num)
    let m : Geodesic Exact := .build c.projection .modulated .unitX
    let model : MotionModel Exact := .geodesic m
    let f : ℝ := 8 / (2 * Real.pi)
    let center : Vec2 ℝ := ⟨2, 2⟩
    let position : Vec2 ℝ := ⟨1 / 2, 2⟩
    let motion : Vec2 ℝ := ⟨1 / 2, 3⟩
    (c.projection.focalLength = real f ∧ m.polarAngle center.exact = real (Real.pi / 2) ∧
        Real.pi / 2 ∈ Set.Icc (1 / f) (Real.pi - 1 / f) ∧ Real.pi / 2 + motion.x / f ∈ Set.Ioo 0 Real.pi ∧
        c.Sees position ∧ OffPoles (m.polarAngle position.exact)) ∧
      ∃ flow : ℝ → ℝ,
        (StrictMonoOn flow (Set.Ioo 0 Real.pi) ∧ Set.BijOn flow (Set.Ioo 0 Real.pi) (Set.Ioo 0 Real.pi)) ∧
        (∀ θ ∈ Set.Ioo 0 Real.pi, θ < flow θ) ∧
        (∃ moved φ ψ, model.movePoint center.exact motion.exact center.exact = Vec2.exact moved ∧
          m.Lies center (Real.pi / 2) φ ∧ m.Lies moved (Real.pi / 2 + motion.x / f) ψ ∧
          (ψ : Real.Angle) = (φ + motion.y / f : ℝ)) ∧
        ∃ θ φ moved ψ, m.Lies position θ φ ∧
          (model.move (.single position.exact) motion.exact center.exact).get? 0 = some (Vec2.exact moved) ∧
          m.Lies moved (flow θ) ψ ∧ (ψ : Real.Angle) = (φ + motion.y / f : ℝ) := by
  intro c m model f center position motion
  have pos := Real.pi_pos
  have focal : c.projection.focalLength = real f := Exact.focalLength_panorama
  have pixel : 1 / f = Real.pi / 4 := by
    rw [div_div_eq_mul_div]
    ring
  have step : motion.x / f = Real.pi / 8 := by
    rw [div_div_eq_mul_div]
    ring
  have level : ((2 : ℝ) + 0) / 4 * Real.pi = Real.pi / 2 := by ring
  have atCenter : m.polarAngle center.exact = real (Real.pi / 2) :=
    (polarAngle_front_of_columns .modulated).2.1
  have atPosition : m.polarAngle position.exact = real (Real.pi / 8) :=
    polarAngle_front_of_column level (φ := -(Real.pi / 8)) (by simp only [position]; ring) (Real.cos_neg _)
      ⟨by linarith, by linarith⟩
  have off : OffPoles (m.polarAngle position.exact) :=
    atPosition ▸ offPoles_real.mpr ⟨by linarith, by linarith⟩
  have apart : Real.pi / 2 ∈ Set.Icc (1 / f) (Real.pi - 1 / f) := by
    rw [pixel]
    constructor <;> linarith
  have within : Real.pi / 2 + motion.x / f ∈ Set.Ioo 0 Real.pi := by
    rw [step]
    constructor <;> linarith
  obtain ⟨flow, order, ways, atMiddle, block⟩ :=
    modulated_flow (m := m) (c := c) rfl rfl focal atCenter apart within
  have east : 0 < motion.x := by norm_num [motion]
  exact ⟨⟨focal, atCenter, apart, within, .panorama, off⟩, flow, order,
    fun θ polar => (ways θ polar).1.mpr east, atMiddle,
    block (.single position.exact) 0 position rfl .panorama off⟩

end ClosedForm

end SphereMotion
