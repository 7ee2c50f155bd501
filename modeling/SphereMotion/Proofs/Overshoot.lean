import Mathlib
import SphereMotion.Proofs.BlockConversion
import SphereMotion.Proofs.PanoramaShift
import SphereMotion.Proofs.ParallaxFlow

namespace SphereMotion

open Scalar
open Exact (real)

namespace Parallax

variable {s t : ℝ}

theorem half_sub_turns (t : ℝ) (n : ℤ) : (t - n * (2 * Real.pi)) / 2 = t / 2 - n * Real.pi := by ring

/-- The half of an angle has a positive tangent if whole turns bring the angle between the poles. -/
theorem tan_half_pos_iff : 0 < Real.tan (t / 2) ↔ ∃ n : ℤ, t - n * (2 * Real.pi) ∈ Set.Ioo 0 Real.pi := by
  have alike (n : ℤ) : Real.tan ((t - n * (2 * Real.pi)) / 2) = Real.tan (t / 2) := by
    rw [half_sub_turns, Real.tan_sub_int_mul_pi]
  constructor
  · intro positive
    obtain ⟨n, ⟨lower, upper⟩, -⟩ := existsUnique_sub_zsmul_mem_Ico Real.two_pi_pos t 0
    rw [zsmul_eq_mul] at lower upper
    rw [← alike n] at positive
    refine ⟨n, lower.lt_of_ne fun zero => ?_, not_le.mp fun far => ?_⟩
    · rw [← zero, zero_div, Real.tan_zero] at positive
      exact lt_irrefl 0 positive
    · -- Half a turn back the angle is not positive, and neither is the tangent of its half.
      rw [← Real.tan_sub_pi] at positive
      exact positive.not_ge (Real.tan_nonpos_of_nonpos_of_neg_pi_div_two_le (by linarith) (by linarith))
  · rintro ⟨n, within⟩
    exact alike n ▸ tan_half_pos within

theorem tan_half_exact_sub_turns (t : ℝ) (n : ℤ) :
    Scalar.tan (real (t - n * (2 * Real.pi)) / 2) = Scalar.tan (real t / 2) := by
  have cosine : Real.cos (t / 2 - n * Real.pi) = 0 ↔ Real.cos (t / 2) = 0 := by
    rw [Real.cos_sub_int_mul_pi, mul_eq_zero, or_iff_right (zpow_ne_zero n (by norm_num))]
  rw [Exact.two_eq, Exact.real_div two_ne_zero, Exact.real_div two_ne_zero, half_sub_turns]
  by_cases pole : Real.cos (t / 2) = 0
  · rw [Exact.tan_of_cos_eq_zero pole, Exact.tan_of_cos_eq_zero (cosine.mpr pole)]
  · rw [Exact.tan_real pole, Exact.tan_real (mt cosine.mp pole), Real.tan_sub_int_mul_pi]

/-- Between half a turn and a whole one there is no angle that whole turns bring between the poles. -/
theorem sub_turns_not_mem (past : t ∈ Set.Icc Real.pi (2 * Real.pi)) (n : ℤ) :
    t - n * (2 * Real.pi) ∉ Set.Ioo 0 Real.pi := by
  rintro ⟨lower, upper⟩
  rcases le_or_gt n 0 with back | forth
  · have whole : n * (2 * Real.pi) ≤ 0 :=
      mul_nonpos_of_nonpos_of_nonneg (by exact_mod_cast back) Real.two_pi_pos.le
    linarith [past.1]
  · have whole : 2 * Real.pi ≤ n * (2 * Real.pi) :=
      le_mul_of_one_le_left Real.two_pi_pos.le (by exact_mod_cast Int.add_one_le_iff.mpr forth)
    linarith [past.2]

end Parallax

namespace Advance

variable {s t : ℝ}

theorem parallaxBetween_sub_turns (start : Exact) (t : ℝ) (n : ℤ) :
    parallaxBetween start (real (t - n * (2 * Real.pi))) = parallaxBetween start (real t) := by
  rw [parallaxBetween, parallaxBetween, Parallax.tan_half_exact_sub_turns]

theorem parallaxBetween_of_beyond (start : s ∈ Set.Ioo 0 Real.pi)
    (beyond : ∀ n : ℤ, t - n * (2 * Real.pi) ∉ Set.Ioo 0 Real.pi) :
    parallaxBetween (real s) (real t) = .parallax undefined := by
  have divisor := Parallax.tan_half_pos start
  have unsigned : ¬0 < Real.tan (t / 2) := mt Parallax.tan_half_pos_iff.mp (not_exists.mpr beyond)
  rw [parallaxBetween, Parallax.tan_half_exact start, Exact.two_eq, Exact.real_div two_ne_zero]
  by_cases pole : Real.cos (t / 2) = 0
  · rw [Exact.tan_of_cos_eq_zero pole, Exact.undefined_div]
    rfl
  · rw [Exact.tan_real pole, Exact.real_div divisor.ne',
      Exact.log_of_not_pos (by rwa [div_pos_iff_of_pos_right divisor])]
    rfl

theorem apply_parallax_undefined (angle : Exact) : (parallax undefined).apply angle = undefined := by
  have growth : exp (undefined : Exact) = undefined := rfl
  rw [apply, growth, Exact.undefined_eq, Exact.undefined_mul]
  exact Exact.mul_undefined 2

end Advance

/-- A block with its vector that an engine of this picture size accepts, told as the motion around its center. -/
structure MovedBlock.Tells (moved : MovedBlock) (width height : Nat) (motion center : Vec2 Exact) : Prop where
  accepted : moved.block.Accepted moved.component moved.chroma width height
  atCenter : (moved.block.located moved.component moved.chroma : LocatedBlock Exact).center = center
  motion : moved.vector.toVec2 moved.precision = motion

/-- A motion that no point follows. Engines leave all sub-blocks of such a block on their corners, as they do
for the zero vector, and tell no vector of plain translation for it. -/
structure Geodesic.Reverts (m : Geodesic Exact) (motion center : Vec2 Exact) : Prop where
  points {g : Grid (Vec2 Exact)} {i : Nat} {position : Vec2 Exact} : g.get? i = some position →
    ((MotionModel.geodesic m).move g motion center).get? i = some ⟨undefined, undefined⟩
  corners {width height offsetIndex : Nat} {moved : MovedBlock} {answer : Except EngineError SubblockCorners} :
    Answers width height offsetIndex moved (.geodesic m) answer → moved.Tells width height motion center →
    moved.CornersFit → ∃ corners, answer = .ok corners ∧ ∀ {row col : Nat}, row < moved.block.height / 4 →
      col < moved.block.width / 4 → corners.displacement? row col moved.block.x moved.block.y = some .zero
  unmoved {width height offsetIndex : Nat} {moved : MovedBlock} {answer : Except EngineError SubblockCorners} :
    Answers width height offsetIndex moved (.geodesic m) answer → moved.Tells width height motion center →
    moved.precision < 52 → ∀ {model : MotionModel Exact} {answer' : Except EngineError SubblockCorners},
      Answers width height offsetIndex { moved with vector := .zero } model answer' → answer = answer'
  conversions {projection : Projection Exact} {width height : Nat} {config : Config} {epipoles : EpipoleList}
    {e : Engine Exact} : Engine.build projection width height config epipoles = .ok e →
    ∀ (requests : List (Request Exact)) {id : ModelId}, config.active.contains id = true →
    ∀ {pair : PicturePair} {epipole : Option (Vec3 Exact)},
      (e.serveAll requests).epipoles.forModel id pair = .ok epipole →
      id.motionModel config.flavor projection epipole = .geodesic m →
    ∀ {vector : MotionVector} {precision : Nat}, vector.toVec2 precision = motion →
    ∀ (position currentCenter : Vec2 Exact) (targetPair : PicturePair),
      ((e.serveAll requests).convert ⟨vector, precision, id, .classic, position, center, currentCenter, pair,
        targetPair⟩).map Prod.fst = .ok .zero

namespace SubblockPicture

/-- A sample that is lost leaves its sub-block in its place. -/
theorem corner_of_undefined (p : SubblockPicture Exact) (block : LocatedBlock Exact) (precision : Nat)
    (start : Vec2 Exact) :
    p.corner block precision start ⟨undefined, undefined⟩ = p.corner block precision start start := by
  have lost : isUndefined (undefined : Exact) = true := Exact.isUndefined_undefined
  simp only [corner, place, lost, Bool.or_true, if_true, ite_self]

end SubblockPicture

namespace Geodesic

variable {m : Geodesic Exact} {center : Vec2 Exact} {motion : Vec2 ℝ} {f mid : ℝ}

theorem movePoint_of_undefined {motion : Vec2 Exact} (moves : motion.isZero = false)
    (lost : ∀ angle, (m.advance motion center).apply angle = undefined) (position : Vec2 Exact) :
    (MotionModel.geodesic m).movePoint position motion center = ⟨undefined, undefined⟩ := by
  rw [m.movePoint_eq moves, lost]
  exact (congrArg _ (m.frame.direction_undefined _)).trans m.projection.project_undefined

theorem reverts_of_undefined {motion : Vec2 Exact} (moves : motion.isZero = false)
    (lost : ∀ angle, (m.advance motion center).apply angle = undefined) : m.Reverts motion center := by
  have nowhere := movePoint_of_undefined moves lost
  refine ⟨fun entry => ?_, ?_, ?_, ?_⟩
  · rw [MotionModel.move_eq_map, Grid.get?_map, entry, Option.map_some, nowhere]
  · intro width height offsetIndex moved answer answers tells fit
    obtain ⟨picture, made, rfl⟩ := answers.exists_picture tells.accepted
    obtain ⟨rfl, rfl, halves, regular⟩ := SubblockPicture.onLattice_of_made made
    obtain ⟨corners, isCorners, lands⟩ := SubblockPicture.exists_lands regular tells.accepted fit (.geodesic m)
    refine ⟨corners, isCorners, fun inRow inCol => lands.undefined inRow inCol (.inl ?_)⟩
    rw [MovedBlock.target, tells.atCenter, tells.motion, nowhere]
    exact Exact.isUndefined_undefined
  · intro width height offsetIndex moved answer answers tells small model answer' answers'
    obtain ⟨picture, made, rfl⟩ := answers.exists_picture tells.accepted
    obtain ⟨picture', made', rfl⟩ := answers'.exists_picture tells.accepted
    obtain rfl : picture = picture' := Except.ok.inj (made.symm.trans made')
    have still (start center : Vec2 Exact) :
        model.movePoint start (MotionVector.zero.toVec2 moved.precision) center = start :=
      model.movePoint_of_isZero (MotionVector.isZero_toVec2_zero small) start center
    simp only [SubblockPicture.moveBlock_eq, tells.atCenter, tells.motion, nowhere, still,
      SubblockPicture.corner_of_undefined]
  · intro projection width height config epipoles e built requests id active pair epipole given
      source vector precision told position currentCenter targetPair
    obtain ⟨picture, made, sound, plan⟩ := Engine.run_of_built built requests
    have other : id ≠ .classic := by
      rintro rfl
      cases source
    have current : (e.serveAll requests).epipoles = requests.foldl EpipoleList.edit epipoles :=
      congrArg Plan.epipoles plan
    rw [(sound.convert _).map_fst, plan, Plan.convert_to_classic_eq _ active other (current ▸ given),
      Plan.motionModel, source, told, nowhere]
    exact congrArg Except.ok (ite_self _)

/-- Motions that advance alike move alike. -/
theorem move_congr {motion motion' : Vec2 Exact} (moves : motion.isZero = false)
    (moves' : motion'.isZero = false) (advance : m.advance motion center = m.advance motion' center)
    (turn : motion.y = motion'.y) (g : Grid (Vec2 Exact)) :
    (MotionModel.geodesic m).move g motion center = (MotionModel.geodesic m).move g motion' center := by
  simp only [MotionModel.move, move, moves, moves', moveRotated, advance, turn]

section Modulated

variable (flavor : m.flavor = .modulated) (focal : m.projection.focalLength = real f) (positive : 0 < f)
  (atCenter : m.polarAngle center = real mid) (apart : mid ∈ Set.Icc (1 / f) (Real.pi - 1 / f))
include flavor focal positive atCenter apart

theorem advance_of_apart (motion : Vec2 ℝ) :
    m.advance motion.exact center = .parallaxBetween (real mid) (real (mid + motion.x / f)) := by
  have resolution := Projection.angleResolution_real focal positive.ne'
  have shift : motion.exact.x * m.projection.angleResolution = real (motion.x / f) := by
    rw [resolution, div_eq_mul_one_div motion.x]
    rfl
  rw [advance_eq, shift, advanceBy_of_apart flavor atCenter ((nearPole_eq_false_iff resolution).mpr apart)]

theorem advance_apply {n : ℤ} {θ θ' : ℝ} (flow : Parallax mid (mid + motion.x / f - n * (2 * Real.pi)) θ θ') :
    (m.advance motion.exact center).apply (real θ) = real θ' := by
  rw [advance_of_apart flavor focal positive atCenter apart, ← Advance.parallaxBetween_sub_turns _ _ n,
    flow.apply_eq]

/-- A motion past a pole leaves the block in its place if no whole turns bring the polar angle that the center
would come to between the poles. If some do, the block goes on as if those turns had not been asked for. -/
theorem motion_past_pole (past : mid + motion.x / f ∉ Set.Icc 0 Real.pi) :
    let target (n : ℤ) := mid + motion.x / f - n * (2 * Real.pi)
    ((∀ n, target n ∉ Set.Ioo 0 Real.pi) → m.Reverts motion.exact center) ∧
      ∀ n, target n ∈ Set.Ioo 0 Real.pi →
        (∀ θ ∈ Set.Ioo 0 Real.pi, ∃ θ', Parallax mid (target n) θ θ' ∧
          (m.advance motion.exact center).apply (real θ) = real θ') ∧
        ∀ shorter : Vec2 ℝ, shorter ≠ 0 → shorter.x = motion.x - n * (2 * Real.pi) * f → shorter.y = motion.y →
          ∀ g, (MotionModel.geodesic m).move g motion.exact center =
            (MotionModel.geodesic m).move g shorter.exact center := by
  intro target
  have pixel := one_div_pos.mpr positive
  have start : mid ∈ Set.Ioo 0 Real.pi := ⟨pixel.trans_le apart.1, by linarith [apart.2]⟩
  have advance := advance_of_apart flavor focal positive atCenter apart
  have moves : motion.exact.isZero = false := by
    refine Vec2.isZero_of_ne fun zero => past ?_
    have still : motion.x = 0 := congrArg Vec2.x zero
    rw [still, zero_div, add_zero]
    exact Set.Ioo_subset_Icc_self start
  refine ⟨fun beyond => reverts_of_undefined moves fun angle => ?_, fun n within => ⟨fun θ polar => ?_, ?_⟩⟩
  · rw [advance, Advance.parallaxBetween_of_beyond start beyond]
    exact Advance.apply_parallax_undefined angle
  · obtain ⟨θ', flow⟩ := Parallax.exists_target start within polar
    exact ⟨θ', flow, advance_apply flavor focal positive atCenter apart flow⟩
  · intro shorter nonzero x y g
    refine move_congr moves (Vec2.isZero_of_ne nonzero) ?_ (congrArg real y.symm) g
    have reached : mid + shorter.x / f = target n := by
      simp only [target, x, sub_div, mul_div_cancel_right₀ _ positive.ne', add_sub_assoc]
    rw [advance, advance, reached, Advance.parallaxBetween_sub_turns]

end Modulated

/-- The center of a block in the lowest rows of a panorama, and what a motion by a quarter turn comes to. -/
theorem past_pole_of_lowest_rows :
    let m : Geodesic Exact := .build (.panorama ⟨real 16, real 8, real 0⟩) .modulated .unitZ
    let f : ℝ := 16 / (2 * Real.pi)
    m.polarAngle (⟨2, 6⟩ : Vec2 ℝ).exact = real (6 / 8 * Real.pi) ∧
      6 / 8 * Real.pi ∈ Set.Icc (1 / f) (Real.pi - 1 / f) ∧
      6 / 8 * Real.pi + 4 / f ∈ Set.Ioo Real.pi (2 * Real.pi) := by
  intro m f
  have pos := Real.pi_pos
  have row : (6 : ℝ) + 0 ∈ Set.Ioo 0 8 := by norm_num
  rw [div_div_eq_mul_div, div_div_eq_mul_div]
  refine ⟨?_, ⟨by linarith, by linarith⟩, by linarith, by linarith⟩
  refine (polarAngle_about_up (m := m) (p := ⟨2, 6⟩) (by norm_num) rfl (.inl rfl) row).trans ?_
  norm_num

theorem tells_of_lowest_rows :
    MovedBlock.Tells ⟨⟨0, 4, 4, 4⟩, ⟨4, 0⟩, 0, .y, .yuv420⟩ 16 8 (⟨4, 0⟩ : Vec2 ℝ).exact
      (⟨2, 6⟩ : Vec2 ℝ).exact := by
  refine ⟨⟨.inl rfl, by decide, by decide, by decide⟩, ?_, ?_⟩
  · simp [Block.located, Component.shifts, Component.isLuma, Vec2.exact]
  · rw [MotionVector.toVec2_precision_zero]
    simp [Vec2.exact]

/-- A block of the lowest rows of a panorama that is moved down by a quarter turn, past the pole. -/
theorem motion_past_pole_of_lowest_rows :
    let projection : Projection Exact := .panorama ⟨real 16, real 8, real 0⟩
    let config : Config := { active := .everything, flavor := .modulated, offsetIndex := 0 }
    let requests : List (Request Exact) := [.makeAvailable PicturePair.anyPicture]
    let m : Geodesic Exact := .build projection .modulated .unitZ
    let f : ℝ := 16 / (2 * Real.pi)
    let center : Vec2 ℝ := ⟨2, 6⟩
    let motion : Vec2 ℝ := ⟨4, 0⟩
    let moved : MovedBlock := ⟨⟨0, 4, 4, 4⟩, ⟨4, 0⟩, 0, .y, .yuv420⟩
    let conversion : Conversion Exact :=
      ⟨⟨4, 0⟩, 0, .geodesicZ, .classic, .origin, center.exact, .origin, .global, .global⟩
    (m.projection.focalLength = real f ∧ 0 < f ∧ m.polarAngle center.exact = real (6 / 8 * Real.pi) ∧
        6 / 8 * Real.pi ∈ Set.Icc (1 / f) (Real.pi - 1 / f) ∧ 6 / 8 * Real.pi + motion.x / f ∉ Set.Icc 0 Real.pi ∧
        ∀ n : ℤ, 6 / 8 * Real.pi + motion.x / f - n * (2 * Real.pi) ∉ Set.Ioo 0 Real.pi) ∧
      ∃ e corners, Engine.build projection 16 8 config .initial = .ok e ∧
        ((e.serveAll requests).reproject moved .geodesicZ .global).map Prod.fst = .ok corners ∧
        corners.displacement? 0 0 0 4 = some .zero ∧
        ((e.serveAll requests).convert conversion).map Prod.fst = .ok .zero := by
  intro projection config requests m f center motion moved conversion
  have focal : m.projection.focalLength = real f := Exact.focalLength_panorama
  have positive : 0 < f := div_pos (by norm_num) Real.two_pi_pos
  obtain ⟨atCenter, apart, reached⟩ := past_pole_of_lowest_rows
  have past : 6 / 8 * Real.pi + motion.x / f ∉ Set.Icc 0 Real.pi := fun within => reached.1.not_ge within.2
  have beyond := Parallax.sub_turns_not_mem (Set.Ioo_subset_Icc_self reached)
  have reverts : m.Reverts motion.exact center.exact :=
    (motion_past_pole rfl focal positive atCenter apart past).1 beyond
  have built : ∃ e, Engine.build projection 16 8 config .initial = .ok e := ⟨_, rfl⟩
  obtain ⟨e, built⟩ := built
  have tells : moved.Tells 16 8 motion.exact center.exact := tells_of_lowest_rows
  have fit : moved.CornersFit := ⟨by decide, by decide, by decide⟩
  have answers : Answers 16 8 0 moved (ModelId.geodesicZ.motionModel config.flavor projection none)
      (((e.serveAll requests).reproject moved .geodesicZ .global).map Prod.fst) :=
    .models built rfl requests rfl rfl
  obtain ⟨corners, answer, still⟩ := reverts.corners answers tells fit
  exact ⟨⟨focal, positive, atCenter, apart, past, beyond⟩, e, corners, built, answer, still (by decide) (by decide),
    reverts.conversions built requests rfl rfl rfl tells.motion .origin .origin .global⟩

/-- A point halfway between the poles of a panorama, seen from world up. -/
theorem spherical_of_middle :
    let m : Geodesic Exact := .build (.panorama ⟨real 8, real 4, real 0⟩) .modulated .unitZ
    m.frame.spherical (m.projection.unproject (⟨1, 2⟩ : Vec2 ℝ).exact) =
      ⟨real 1, real (2 / 4 * Real.pi), real (-(Real.pi / 4))⟩ := by
  intro m
  have pos := Real.pi_pos
  have row : (2 : ℝ) + 0 ∈ Set.Ioo 0 4 := by norm_num
  have column : -((1 : ℝ) + 0) / 8 * 2 * Real.pi = -(Real.pi / 4) := by ring
  have angles : m.frame.spherical (m.projection.unproject (⟨1, 2⟩ : Vec2 ℝ).exact) = _ :=
    EpipoleFrame.spherical_panorama_of_world (EpipoleFrame.rotation_of_up (.inl rfl)) (by norm_num) row
  rw [angles, column, Real.Angle.toReal_coe_eq_self_iff_mem_Ioc.mpr ⟨by linarith, by linarith⟩, add_zero]

/-- The point below it. -/
theorem project_below_middle :
    let m : Geodesic Exact := .build (.panorama ⟨real 8, real 4, real 0⟩) .modulated .unitZ
    m.projection.project (m.frame.direction (real (3 / 4 * Real.pi)) (real (-(Real.pi / 4)))) =
      (⟨1, 3⟩ : Vec2 ℝ).exact := by
  intro m
  have pos := Real.pi_pos
  rw [EpipoleFrame.direction_of_world (EpipoleFrame.rotation_of_up (.inl rfl)), ← Vec3.direction_eq_ofAngles]
  refine (Exact.project_panorama ⟨⟨by linarith, by linarith⟩, by linarith, by linarith⟩ (by linarith)).trans ?_
  apply Vec2.ext <;> refine congrArg real ?_ <;> field_simp <;> norm_num

/-- The center of a block halfway between the poles that is moved down by nine pixels, of which eight are a
whole turn. It goes down by one pixel. -/
theorem movePoint_past_pole_of_nine_pixels :
    let m : Geodesic Exact := .build (.panorama ⟨real 8, real 4, real 0⟩) .modulated .unitZ
    let f : ℝ := 8 / (2 * Real.pi)
    let center : Vec2 ℝ := ⟨1, 2⟩
    let motion : Vec2 ℝ := ⟨9, 0⟩
    m.projection.focalLength = real f ∧ m.polarAngle center.exact = real (2 / 4 * Real.pi) ∧
      2 / 4 * Real.pi ∈ Set.Icc (1 / f) (Real.pi - 1 / f) ∧ 2 / 4 * Real.pi + motion.x / f ∉ Set.Icc 0 Real.pi ∧
      (MotionModel.geodesic m).movePoint center.exact motion.exact center.exact = (⟨1, 3⟩ : Vec2 ℝ).exact := by
  intro m f center motion
  have pos := Real.pi_pos
  have focal : m.projection.focalLength = real f := Exact.focalLength_panorama
  have positive : 0 < f := div_pos (by norm_num) Real.two_pi_pos
  have seen : m.frame.spherical (m.projection.unproject center.exact) = _ := spherical_of_middle
  have atCenter : m.polarAngle center.exact = real (2 / 4 * Real.pi) := congrArg Spherical.polar seen
  have apart : 2 / 4 * Real.pi ∈ Set.Icc (1 / f) (Real.pi - 1 / f) := by
    rw [div_div_eq_mul_div]
    constructor <;> linarith
  have step : motion.x / f = 9 / 4 * Real.pi := by
    rw [div_div_eq_mul_div]
    ring
  have past : 2 / 4 * Real.pi + motion.x / f ∉ Set.Icc 0 Real.pi := by
    rw [step]
    exact fun within => by linarith [within.2]
  refine ⟨focal, atCenter, apart, past, ?_⟩
  have moves : motion ≠ 0 := fun zero => (by norm_num : (9 : ℝ) ≠ 0) (congrArg Vec2.x zero)
  have through : (m.advance motion.exact center.exact).apply (real (2 / 4 * Real.pi)) = real (3 / 4 * Real.pi) := by
    have turned : 2 / 4 * Real.pi + motion.x / f - (1 : ℤ) * (2 * Real.pi) = 3 / 4 * Real.pi := by
      rw [step]
      push_cast
      ring
    have start : 2 / 4 * Real.pi ∈ Set.Ioo 0 Real.pi := by constructor <;> linarith
    have target : 3 / 4 * Real.pi ∈ Set.Ioo 0 Real.pi := by constructor <;> linarith
    refine advance_apply (n := 1) rfl focal positive atCenter apart ?_
    rw [turned]
    exact ⟨start, target, start, target, rfl⟩
  have level : real (-(Real.pi / 4)) + motion.exact.y * m.projection.angleResolution = real (-(Real.pi / 4)) := by
    have still : motion.exact.y = real 0 := rfl
    rw [Projection.angleResolution_real focal positive.ne', still, Exact.real_mul, Exact.real_add, zero_mul,
      add_zero]
  rw [m.movePoint_eq (Vec2.isZero_of_ne moves), seen, through, level]
  exact project_below_middle

end Geodesic

end SphereMotion
