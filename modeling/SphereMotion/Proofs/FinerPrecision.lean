import Mathlib
import SphereMotion.Proofs.Displacement
import SphereMotion.Proofs.ExactReal
import SphereMotion.Proofs.ExactWords
import SphereMotion.Proofs.History

namespace SphereMotion

open Scalar

/-- A number does not pass a whole number by being rounded. -/
theorem halfAway_le_of_le {x : ℝ} {n : ℤ} (most : x ≤ n) : halfAway x ≤ n := by
  obtain ⟨-, near⟩ := abs_le.mp (abs_halfAway_sub_le x)
  have less : (halfAway x : ℝ) < n + 1 := by linarith
  have less' : halfAway x < n + 1 := by exact_mod_cast less
  omega

theorem le_halfAway_of_le {x : ℝ} {n : ℤ} (least : n ≤ x) : n ≤ halfAway x := by
  obtain ⟨near, -⟩ := abs_le.mp (abs_halfAway_sub_le x)
  have less : (n : ℝ) < halfAway x + 1 := by linarith
  have less' : n < halfAway x + 1 := by exact_mod_cast less
  omega

/-- Finer units are rounded to within half a coarse unit. -/
theorem abs_halfAway_mul_two_pow_sub_le (x : ℝ) (k : Nat) :
    |halfAway (x * 2 ^ (k + 1)) - 2 ^ (k + 1) * halfAway x| ≤ 2 ^ k := by
  obtain ⟨lower, upper⟩ := abs_le.mp (abs_halfAway_sub_le x)
  have positive : (0 : ℝ) < 2 ^ k := by positivity
  have finer : (2 : ℝ) ^ (k + 1) = 2 * 2 ^ k := pow_succ' 2 k
  have most : x * 2 ^ (k + 1) ≤ (2 ^ (k + 1) * halfAway x + 2 ^ k : ℤ) := by
    push_cast
    rw [finer]
    nlinarith
  have least : (2 ^ (k + 1) * halfAway x - 2 ^ k : ℤ) ≤ x * 2 ^ (k + 1) := by
    push_cast
    rw [finer]
    nlinarith
  have upper' := halfAway_le_of_le most
  have lower' := le_halfAway_of_le least
  rw [abs_le]
  omega

/-- Scalars in which a fraction over a power of two may be reduced. -/
class LawfulFractions (α : Type) [Scalar α] : Prop where
  reduce {m j k : Nat} : m < 2 ^ j → j + k ≤ 53 →
    (ofInt (m * 2 ^ k : Nat) / ofInt (2 ^ (j + k) : Nat) : α) = ofInt m / ofInt (2 ^ j : Nat)

open Double Denotes in
instance : LawfulFractions Double where
  reduce {m j k} proper small := by
    have quotient : ((m * 2 ^ k : Nat) : ℝ) / (2 ^ (j + k) : Nat) = m / (2 ^ j : Nat) := by
      push_cast
      rw [pow_add]
      field_simp
    have scaled : m * 2 ^ k ≤ 2 ^ (j + k) := by
      rw [pow_add]
      exact Nat.mul_le_mul_right _ proper.le
    have fits : 2 ^ (j + k) ≤ 2 ^ 53 := Nat.pow_le_pow_right (by decide) small
    have fits' : 2 ^ j ≤ 2 ^ 53 := Nat.pow_le_pow_right (by decide) (by omega)
    have float : IsFloat ((m : ℝ) / (2 ^ j : Nat)) := by
      have held := IsFloat.div_two_pow (m := m) (j := j)
        (by rw [Nat.abs_cast]; exact_mod_cast proper.le.trans fits')
        (by omega)
      push_cast at held ⊢
      exact held
    have few : (m : ℝ) / (2 ^ j : Nat) < 2 ^ 1023 := by
      have less : (m : ℝ) / (2 ^ j : Nat) < 1 := (div_lt_one (by positivity)).mpr (by exact_mod_cast proper)
      exact less.trans (one_lt_pow₀ (by norm_num) (by norm_num))
    have left := (Denotes.ofInt (scaled.trans fits)).div (.ofInt fits) (by positivity) (quotient ▸ float)
      (quotient ▸ few)
    have right := (Denotes.ofInt (proper.le.trans fits')).div (.ofInt fits') (by positivity) float few
    exact (quotient ▸ left).eq right

instance : LawfulFractions Exact where
  reduce {m j k} _ _ := by
    rw [Exact.ofInt_eq, Exact.ofInt_eq, Exact.ofInt_eq, Exact.ofInt_eq, Exact.real_div (by positivity),
      Exact.real_div (by positivity)]
    congr 1
    push_cast
    rw [pow_add]
    field_simp

/-- A vector with `k` more fractional bits that tells the same motion. -/
structure MotionVector.Refines (fine mv : MotionVector) (k : Nat) : Prop where
  horizontal : fine.horizontal.toInt = mv.horizontal.toInt * 2 ^ k
  vertical : fine.vertical.toInt = mv.vertical.toInt * 2 ^ k

namespace FixedPoint

/-- A word in finer units, within half a coarse unit of another one. -/
def Near (fine word : Int32) (k : Nat) : Prop := |fine.toInt - 2 ^ k * word.toInt| ≤ 2 ^ (k - 1)

variable {α : Type} [Scalar α] {precision k : Nat}

/-- A word is read alike with any number of fractional bits that it is told in. -/
theorem toScalar_of_refines [LawfulFractions α] {fine word : Int32} (refines : fine.toInt = word.toInt * 2 ^ k)
    (small : precision + k ≤ 53) : (toScalar fine (precision + k) : α) = toScalar word precision := by
  have unit : (0 : ℤ) < 2 ^ k := by positivity
  obtain ⟨rest, isRest⟩ := Int.eq_ofNat_of_zero_le
    (Int.emod_nonneg word.toInt (by positivity : (2 : ℤ) ^ precision ≠ 0))
  have proper : rest < 2 ^ precision := by
    have less := Int.emod_lt_of_pos word.toInt (by positivity : (0 : ℤ) < 2 ^ precision)
    rw [isRest] at less
    exact_mod_cast less
  have reduced := LawfulFractions.reduce (α := α) proper small
  rw [toScalar, toScalar, scale_eq (by omega), scale_eq (by omega), refines]
  push_cast at reduced ⊢
  rw [pow_add, mul_comm word.toInt, mul_comm (2 ^ precision), Int.mul_ediv_mul_of_pos _ _ unit,
    Int.mul_emod_mul_of_pos _ _ unit, isRest, mul_comm _ (rest : ℤ), mul_comm (2 ^ k), ← pow_add, reduced]

variable [RealValued α]

/-- Where the finer of two roundings of a scalar is a word, so is the other one. -/
theorem exists_near_of_fits {x : α} (positive : 0 < k) (small : precision + k < 63)
    (fits : (ofScalar? x (precision + k)).isSome) :
    ∃ fine word, ofScalar? x (precision + k) = some fine ∧ ofScalar x (precision + k) = fine ∧
      ofScalar? x precision = some word ∧ ofScalar x precision = word ∧ Near fine word k := by
  obtain ⟨j, rfl⟩ : ∃ j, k = j + 1 := ⟨k - 1, by omega⟩
  obtain ⟨r, real, ⟨lower, upper⟩, told, rounded⟩ := exists_of_isSome small fits
  have near := abs_halfAway_mul_two_pow_sub_le (r * 2 ^ precision) j
  rw [mul_assoc, ← pow_add] at near
  have unit : (1 : ℤ) ≤ 2 ^ j := one_le_pow₀ (by norm_num)
  have twice : (2 : ℤ) ^ (j + 1) = 2 * 2 ^ j := pow_succ' 2 j
  have fitsWord : FitsWord r precision := by
    obtain ⟨below, above⟩ := abs_le.mp near
    rw [twice] at below above
    constructor <;> nlinarith
  have fitsCoarse : (ofScalar? x precision).isSome :=
    Option.isSome_of_eq_some ((ofScalar?_eq_some_iff (by omega)).mpr
    ⟨r, real, fitsWord, .of_rounded (Int32.toInt_ofInt_of_le fitsWord.lower fitsWord.upper)⟩)
  obtain ⟨r', real', -, toldWord, roundedWord⟩ := exists_of_isSome (by omega) fitsCoarse
  obtain rfl : r = r' := Extended.real.inj (real.symm.trans real')
  refine ⟨_, _, told, rounded, toldWord, roundedWord, ?_⟩
  rwa [Near, Int32.toInt_ofInt_of_le lower upper, Int32.toInt_ofInt_of_le fitsWord.lower fitsWord.upper]

end FixedPoint

namespace MotionVector

variable {α : Type} [Scalar α] {fine mv : MotionVector} {precision k : Nat}

/-- The motion that both vectors tell. -/
theorem Refines.toVec2_eq [LawfulFractions α] (refines : fine.Refines mv k) (small : precision + k ≤ 53) :
    (fine.toVec2 (precision + k) : Vec2 α) = mv.toVec2 precision :=
  Vec2.ext (FixedPoint.toScalar_of_refines refines.horizontal small)
    (FixedPoint.toScalar_of_refines refines.vertical small)

theorem Refines.isZero_eq (refines : fine.Refines mv k) : fine.isZero = mv.isZero := by
  have unit : (2 : ℤ) ^ k ≠ 0 := by positivity
  have each {fine word : Int32} (scaled : fine.toInt = word.toInt * 2 ^ k) : fine = 0 ↔ word = 0 := by
    rw [← Int32.toInt_inj, ← Int32.toInt_inj, scaled, Int32.toInt_zero, mul_eq_zero, or_iff_left unit]
  rw [isZero, isZero, Bool.eq_iff_iff]
  simp only [Bool.and_eq_true, beq_iff_eq, each refines.horizontal, each refines.vertical]

/-- Two vectors, the first one in finer units, that are within half a coarse unit of each other. -/
def Near (fine mv : MotionVector) (k : Nat) : Prop :=
  FixedPoint.Near fine.horizontal mv.horizontal k ∧ FixedPoint.Near fine.vertical mv.vertical k

theorem Refines.near (refines : fine.Refines mv k) : fine.Near mv k := by
  have each {fine word : Int32} (scaled : fine.toInt = word.toInt * 2 ^ k) : FixedPoint.Near fine word k := by
    rw [FixedPoint.Near, scaled, mul_comm, sub_self, abs_zero]
    positivity
  exact ⟨each refines.horizontal, each refines.vertical⟩

theorem near_of_fits [RealValued α] {motion : Vec2 α} (positive : 0 < k) (small : precision + k < 63)
    (fits : (ofVec2? motion (precision + k)).isSome) :
    ∃ fine mv, ofVec2? motion (precision + k) = some fine ∧ ofVec2? motion precision = some mv ∧
      fine.Near mv k := by
  obtain ⟨fitsX, fitsY⟩ := isSome_ofVec2?_iff.mp fits
  obtain ⟨fineX, wordX, toldX, -, coarseX, -, nearX⟩ := FixedPoint.exists_near_of_fits positive small fitsX
  obtain ⟨fineY, wordY, toldY, -, coarseY, -, nearY⟩ := FixedPoint.exists_near_of_fits positive small fitsY
  exact ⟨⟨fineX, fineY⟩, ⟨wordX, wordY⟩, ofVec2?_eq_some toldX toldY, ofVec2?_eq_some coarseX coarseY, nearX, nearY⟩

end MotionVector

/-- The block moved by the same motion, told in another vector with `k` more fractional bits. -/
def MovedBlock.retold (moved : MovedBlock) (fine : MotionVector) (k : Nat) : MovedBlock :=
  { moved with vector := fine, precision := moved.precision + k }

def Conversion.retold {α : Type} (c : Conversion α) (fine : MotionVector) (k : Nat) : Conversion α :=
  { c with vector := fine, precision := c.precision + k }

section Pictures

variable {α : Type} [Scalar α]

/-- A block that is moved by the same motion twice. The samples go to the same points, and each
corner is rounded from the same place: where the finer one is still a word, the two words are within
half a coarse unit. -/
structure SubblockPicture.MovesAlike (p : SubblockPicture α) (block : LocatedBlock α) (model : MotionModel α)
    (moved finer : MovedBlock) (samples targets : Grid (Vec2 α)) (corners finerCorners : SubblockCorners)
    (k : Nat) :
    Prop where
  moves : model.move samples (moved.vector.toVec2 moved.precision) block.center = targets
  moves_finer : model.move samples (finer.vector.toVec2 finer.precision) block.center = targets
  settles : p.settle block moved.precision samples targets = corners
  settles_finer : p.settle block finer.precision samples targets = finerCorners
  near {row col : Nat} {start : Vec2 α} : samples.cell? row col = some start →
    ∃ target word fine, targets.cell? row col = some target ∧ corners.corners.cell? row col = some word ∧
      finerCorners.corners.cell? row col = some fine ∧
      ((FixedPoint.ofScalar? (p.place block start target).x finerCorners.precisionX).isSome →
        FixedPoint.Near fine.x word.x k) ∧
      ((FixedPoint.ofScalar? (p.place block start target).y finerCorners.precisionY).isSome →
        FixedPoint.Near fine.y word.y k)

/-- Two answers to a block, moved by one motion that is told twice. -/
inductive Plan.ReprojectsAlike (plan : Plan α) (moved finer : MovedBlock) (id : ModelId) (pair : PicturePair)
    (k : Nat) : Except EngineError SubblockCorners → Except EngineError SubblockCorners → Prop
  | refused (cause : EngineError) : ReprojectsAlike plan moved finer id pair k (.error cause) (.error cause)
  | moved {block : LocatedBlock α} {epipole : Option (Vec3 α)} {samples targets : Grid (Vec2 α)}
      {corners finerCorners : SubblockCorners}
      (located : plan.picture.locate moved.block moved.component moved.chroma = .ok block)
      (given : plan.epipoles.forModel id pair = .ok epipole) (found : plan.picture.samples block = .ok samples)
      (alike : plan.picture.MovesAlike block (plan.motionModel id epipole) moved finer samples targets corners
        finerCorners k) : ReprojectsAlike plan moved finer id pair k (.ok corners) (.ok finerCorners)

/-- Two answers to a conversion of one motion that is told twice. A vector is kept as it is told, or both are the
rounding of one motion. -/
inductive Plan.ConvertsAlike (plan : Plan α) (c finer : Conversion α) (k : Nat) :
    Except EngineError MotionVector → Except EngineError MotionVector → Prop
  | refused (cause : EngineError) : ConvertsAlike plan c finer k (.error cause) (.error cause)
  | kept (near : finer.vector.Near c.vector k) : ConvertsAlike plan c finer k (.ok c.vector) (.ok finer.vector)
  | explained {sourceEpipole targetEpipole : Option (Vec3 α)} {shifted motion : Vec2 α}
      (source : plan.epipoles.forModel c.source c.sourcePair = .ok sourceEpipole)
      (target : plan.epipoles.forModel c.target c.targetPair = .ok targetEpipole)
      (shifts : (plan.motionModel c.source sourceEpipole).movePoint c.position (c.vector.toVec2 c.precision)
        c.candidateCenter = shifted)
      (shifts_finer : (plan.motionModel c.source sourceEpipole).movePoint c.position
        (finer.vector.toVec2 finer.precision) c.candidateCenter = shifted)
      (explains : (plan.motionModel c.target targetEpipole).vectorFor c.position shifted c.currentCenter = motion)
      (near : (MotionVector.ofVec2? motion finer.precision).isSome → ∃ fine mv,
        MotionVector.ofVec2? motion finer.precision = some fine ∧
          MotionVector.ofVec2? motion c.precision = some mv ∧ fine.Near mv k) :
      ConvertsAlike plan c finer k (.ok ((MotionVector.ofVec2? motion c.precision).getD .zero))
        (.ok ((MotionVector.ofVec2? motion finer.precision).getD .zero))

variable [LawfulFractions α] [RealValued α] {fine : MotionVector} {k : Nat}

theorem SubblockPicture.movesAlike_retold (p : SubblockPicture α) {block : LocatedBlock α} (model : MotionModel α)
    {moved : MovedBlock} (samples : Grid (Vec2 α)) (refines : fine.Refines moved.vector k) (positive : 0 < k)
    (small : moved.precision + k ≤ 53) (boundedX : block.shiftX ≤ 1) (boundedY : block.shiftY ≤ 1) :
    let targets := model.move samples (moved.vector.toVec2 moved.precision) block.center
    p.MovesAlike block model moved (moved.retold fine k) samples targets
      (p.settle block moved.precision samples targets)
      (p.settle block (moved.precision + k) samples targets) k := by
  intro targets
  have moves := model.move_eq_map samples (moved.vector.toVec2 moved.precision) block.center
  refine ⟨rfl, by rw [MovedBlock.retold, refines.toVec2_eq small], rfl, rfl, fun {row col start} atCell => ?_⟩
  let target := model.movePoint start (moved.vector.toVec2 moved.precision) block.center
  have near (x : α) {shift : Nat} (bounded : shift ≤ 1)
      (fits : (FixedPoint.ofScalar? x (moved.precision + k + shift)).isSome) :
      FixedPoint.Near (FixedPoint.ofScalar x (moved.precision + k + shift))
        (FixedPoint.ofScalar x (moved.precision + shift)) k := by
    have sum : moved.precision + k + shift = moved.precision + shift + k := by omega
    rw [sum] at fits ⊢
    obtain ⟨-, -, -, rfl, -, rfl, near⟩ := FixedPoint.exists_near_of_fits positive (by omega) fits
    exact near
  refine ⟨target, p.corner block moved.precision start target, p.corner block (moved.precision + k) start target,
    ?_, ?_, ?_, near _ boundedX, near _ boundedY⟩
  · rw [show targets = _ from moves, Grid.cell?_map, atCell]
    rfl
  · rw [show targets = _ from moves, settle_map, Grid.cell?_map, atCell]
    rfl
  · rw [show targets = _ from moves, settle_map, Grid.cell?_map, atCell]
    rfl

/-- Calls that begin alike are related if they go on so, as long as common refusals are. -/
theorem related_bind {ε β γ : Type} {Related : Except ε β → Except ε β → Prop}
    (refused : ∀ cause, Related (.error cause) (.error cause)) {first : Except ε γ} {next next' : γ → Except ε β}
    (each : ∀ value, first = .ok value → Related (next value) (next' value)) :
    Related (first >>= next) (first >>= next') := by
  cases first with
  | error cause => exact refused cause
  | ok value => exact each value rfl

namespace Plan

/-- What is told again is refused again, or all goes the same way up to the last rounding. -/
theorem reprojectsAlike_retold (plan : Plan α) {moved : MovedBlock} (id : ModelId) (pair : PicturePair)
    (refines : fine.Refines moved.vector k) (positive : 0 < k) (small : moved.precision + k ≤ 53) :
    plan.ReprojectsAlike moved (moved.retold fine k) id pair k (plan.reproject moved id pair)
      (plan.reproject (moved.retold fine k) id pair) := by
  refine related_bind .refused fun _ _ => related_bind .refused fun block located => ?_
  refine related_bind .refused fun epipole given => related_bind .refused fun samples found => ?_
  obtain ⟨-, rfl⟩ := SubblockPicture.accepted_of_locate located
  obtain ⟨boundedX, boundedY⟩ := moved.component.shifts_le moved.chroma
  simp only [MovedBlock.retold, refines.toVec2_eq small]
  exact .moved located given found
    (plan.picture.movesAlike_retold _ samples refines positive small boundedX boundedY)

theorem convertsAlike_retold (plan : Plan α) {c : Conversion α} (refines : fine.Refines c.vector k)
    (positive : 0 < k) (small : c.precision + k ≤ 53) :
    plan.ConvertsAlike c (c.retold fine k) k (plan.convert c) (plan.convert (c.retold fine k)) := by
  refine related_bind .refused fun _ _ => related_bind .refused fun _ _ => ?_
  refine related_bind .refused fun sourceEpipole source => related_bind .refused fun targetEpipole target => ?_
  have shortcut : ((c.retold fine k).vector.isZero ||
      decide ((c.retold fine k).source = (c.retold fine k).target) &&
      Engine.sameEpipole sourceEpipole targetEpipole) =
        (c.vector.isZero || decide (c.source = c.target) && Engine.sameEpipole sourceEpipole targetEpipole) :=
    congrArg (· || _) refines.isZero_eq
  by_cases stays : (c.vector.isZero ||
      decide (c.source = c.target) && Engine.sameEpipole sourceEpipole targetEpipole) = true
  · rw [if_pos stays, if_pos (shortcut.trans stays)]
    exact .kept refines.near
  · have same : ((c.retold fine k).vector.toVec2 (c.retold fine k).precision : Vec2 α) =
        c.vector.toVec2 c.precision :=
      refines.toVec2_eq small
    rw [if_neg stays, if_neg (shortcut ▸ stays), same]
    exact .explained source target rfl (congrArg (MotionModel.movePoint _ _ · _) same) rfl
      (MotionVector.near_of_fits positive (small.trans_lt (by decide)))

end Plan

/-- Whatever was asked of an engine before, one motion that is told with fewer and with more fractional bits
moves the samples of a block to the same points, and is converted by way of the same motion. Only the last
rounding differs, by at most half a coarse unit where the finer result is a word. -/
theorem Engine.answers_alike_of_refines [LawfulSame α] {projection : Projection α} {width height : Nat}
    {config : Config} {epipoles : EpipoleList} {e : Engine α}
    (built : build projection width height config epipoles = .ok e) (requests : List (Request α))
    {mv : MotionVector} (refines : fine.Refines mv k) (positive : 0 < k) {precision : Nat}
    (small : precision + k ≤ 53) :
    let asked := e.serveAll requests
    (∀ (moved : MovedBlock) (id : ModelId) (pair : PicturePair), moved.vector = mv → moved.precision = precision →
      asked.plan.ReprojectsAlike moved (moved.retold fine k) id pair k
        ((asked.reproject moved id pair).map Prod.fst)
        ((asked.reproject (moved.retold fine k) id pair).map Prod.fst)) ∧
    ∀ c : Conversion α, c.vector = mv → c.precision = precision →
      asked.plan.ConvertsAlike c (c.retold fine k) k ((asked.convert c).map Prod.fst)
        ((asked.convert (c.retold fine k)).map Prod.fst) := by
  intro asked
  obtain ⟨-, -, sound, -⟩ := run_of_built built requests
  constructor
  · rintro moved id pair rfl rfl
    rw [(sound.reproject _ id pair).map_fst, (sound.reproject _ id pair).map_fst]
    exact asked.plan.reprojectsAlike_retold id pair refines positive small
  · rintro c rfl rfl
    rw [(sound.convert _).map_fst, (sound.convert _).map_fst]
    exact asked.plan.convertsAlike_retold refines positive small

end Pictures

/-- Quarters told in sixteenths, below zero as well: a chroma block of the camera pose, and a
conversion from a plane. -/
theorem Engine.answers_alike_of_refines_of_quarters :
    let projection : Projection Double :=
      .panorama ⟨.ofBits 0x4030000000000000, .ofBits 0x4020000000000000, .ofBits 0⟩
    let config : Config := { active := .everything, offsetIndex := 4 }
    let requests : List (Request Double) := [.addEpipole .unitX .global true]
    let mv : MotionVector := ⟨-5, 3⟩
    let fine : MotionVector := ⟨-20, 12⟩
    let moved : MovedBlock := ⟨⟨0, 0, 8, 4⟩, mv, 2, .cb, .yuv420⟩
    let conversion : Conversion Double :=
      ⟨mv, 2, .planeLeftRight, .geodesicCameraPose, .origin, .origin, .origin, .global, .global⟩
    fine.Refines mv 2 ∧ 0 < 2 ∧ 2 + 2 ≤ 53 ∧ ∃ e, build projection 16 8 config .initial = .ok e ∧
      let asked := e.serveAll requests
      (∃ corners, (asked.reproject moved .geodesicCameraPose .global).map Prod.fst = .ok corners) ∧
        asked.plan.ReprojectsAlike moved (moved.retold fine 2) .geodesicCameraPose .global 2
          ((asked.reproject moved .geodesicCameraPose .global).map Prod.fst)
          ((asked.reproject (moved.retold fine 2) .geodesicCameraPose .global).map Prod.fst) ∧
        asked.plan.ConvertsAlike conversion (conversion.retold fine 2) 2 ((asked.convert conversion).map Prod.fst)
          ((asked.convert (conversion.retold fine 2)).map Prod.fst) := by
  intro projection config requests mv fine moved conversion
  have refines : fine.Refines mv 2 := ⟨by decide, by decide⟩
  have built : ∃ e, build projection 16 8 config .initial = .ok e := ⟨_, rfl⟩
  obtain ⟨e, built⟩ := built
  obtain ⟨reprojects, converts⟩ :=
    answers_alike_of_refines built requests refines (by decide) (by decide : 2 + 2 ≤ 53)
  have given : ∃ epipole, (e.serveAll requests).epipoles.forModel .geodesicCameraPose .global =
      (.ok epipole : Except EngineError (Option (Vec3 Double))) := by
    cases built
    exact ⟨_, rfl⟩
  obtain ⟨epipole, given⟩ := given
  have accepted : moved.block.Accepted moved.component moved.chroma 16 8 :=
    ⟨.inr rfl, by decide, by decide, by decide⟩
  have answered : ∃ corners, ((e.serveAll requests).reproject moved .geodesicCameraPose .global).map Prod.fst =
      .ok corners := by
    obtain ⟨picture, made, answer⟩ := Answers.exists_picture (.models built rfl requests rfl given) accepted
    obtain ⟨width, height, halves, regular⟩ := SubblockPicture.onLattice_of_made made
    obtain ⟨samples, isSamples, -⟩ := SubblockPicture.exists_samples regular (by rwa [width, height])
    rw [answer, SubblockPicture.moveBlock_eq, isSamples]
    exact ⟨_, rfl⟩
  exact ⟨refines, by decide, by decide, e, built, answered, reprojects moved _ _ rfl rfl,
    converts conversion rfl rfl⟩

end SphereMotion
