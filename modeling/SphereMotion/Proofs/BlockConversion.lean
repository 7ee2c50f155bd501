import Mathlib
import SphereMotion.Proofs.BlockSamples
import SphereMotion.Proofs.Displacement
import SphereMotion.Proofs.ExactPanorama
import SphereMotion.Proofs.FixedPoints
import SphereMotion.Proofs.History
import SphereMotion.Proofs.RoundedShift

namespace SphereMotion

open Scalar

open RealValued hiding ofInt

variable {α : Type} [Scalar α]

/-- A scalar that is not in the middle between two fixed-point numbers. -/
structure FixedPoint.OffMiddle [RealValued α] (x : α) (precision : Nat) : Prop where
  differs {r : ℝ} : value x = .real r → ∀ m : ℤ, r * 2 ^ precision ≠ m + 1 / 2

namespace SameShift

variable {a : Arithmetic} {x o : ℝ} {n k : Nat} {t d : ℝ}

theorem toInt_sub (same : SameShift a x o n k t d) (fine : k < 31) :
    (Int32.ofInt (halfAway (t * 2 ^ k)) - Int32.ofNat n <<< Int32.ofNat k).toInt =
      halfAway (t * 2 ^ k) - n * 2 ^ k := by
  have lower := same.neg_le fine
  have upper := same.cornerFits.upper
  have positive : (0 : ℤ) ≤ n * 2 ^ k := by positivity
  rw [FixedPoint.ofNat_shiftLeft n (by omega), ← Int32.ofInt_sub]
  push_cast
  exact Int32.toInt_ofInt_of_le lower (by omega)

theorem toInt_shift (same : SameShift a x o n k t d) :
    (Int32.ofInt (halfAway (d * 2 ^ k))).toInt = halfAway (d * 2 ^ k) :=
  Int32.toInt_ofInt_of_le same.shiftFits.lower same.shiftFits.upper

end SameShift

/-- A coordinate of a motion sample, some sub-blocks from the edge of the picture and some halves beyond. -/
def sampleCoordinate (halves steps : Nat) : α := half halves + ofInt steps * 4

/-- The same coordinate of the corner that belongs to a luma sample. -/
def cornerCoordinate (halves : Nat) (x : α) : α := x / ofInt (1 : Nat) - half halves

section Coordinates

variable [RealValued α] {halves steps k : Nat} {x : α}

/-- A sample that is not too far away is few steps away. -/
theorem steps_lt_of_value_sampleCoordinate (few : halves ≤ 6) {r : ℝ}
    (isReal : value (sampleCoordinate halves steps : α) = .real r) (near : r < 2 ^ 40) : steps < 2 ^ 50 := by
  by_contra far
  obtain ⟨offset, product, isOffset, isProduct⟩ := real_of_add isReal
  obtain ⟨count, four, isCount, isFour⟩ := real_of_mul isProduct
  have counted := RealValued.ofInt (α := α) steps
  have multiplied := mul isCount isFour
  have added := add isOffset isProduct
  rw [isCount] at counted
  rw [isProduct] at multiplied
  rw [show half halves + ofInt steps * 4 = (sampleCoordinate halves steps : α) from rfl, isReal] at added
  have atFour : value (4 : α) = .real (4 : ℤ) := value_ofInt (by norm_num)
  rw [value_half (by omega)] at isOffset
  obtain rfl := Extended.real.inj isOffset
  obtain rfl := Extended.real.inj (atFour.symm.trans isFour)
  have holds : (arithmetic α).Holds (2 ^ 50) :=
    .of_isFloat (by exact_mod_cast IsFloat.two_zpow (e := 50) (by norm_num))
  have many : (2 ^ 50 : ℝ) ≤ steps := by exact_mod_cast not_lt.mp far
  have count_le := counted.rounds.le_of_le holds many
  have product_le := multiplied.rounds.le_of_le holds (by push_cast; linarith)
  have positive : (0 : ℝ) ≤ halves / 2 := by positivity
  have sum_le := added.rounds.le_of_le holds (by linarith)
  norm_num at near sum_le
  linarith

/-- A corner that fits belongs to a real number, from which the offset is taken. -/
theorem exists_of_fits_cornerCoordinate (few : halves ≤ 6) (fine : k < 31)
    (fits : (FixedPoint.ofScalar? (cornerCoordinate halves x) k).isSome) :
    ∃ v t, value x = .real v ∧ (arithmetic α).Rounds (v - halves / 2) t ∧ FitsWord t k ∧
      FixedPoint.ofScalar (cornerCoordinate halves x) k = Int32.ofInt (halfAway (t * 2 ^ k)) := by
  obtain ⟨t, isCorner, fitsWord, -, word⟩ := FixedPoint.exists_of_isSome (by omega) fits
  obtain ⟨quotient, offset, isQuotient, isOffset⟩ := real_of_sub isCorner
  have one : value (ofInt (1 : Nat) : α) = .real (1 : ℤ) := value_ofInt (by norm_num)
  obtain ⟨v, isReal⟩ := real_of_div isQuotient one
  have divided := div isReal one (by norm_num)
  rw [isQuotient, Int.cast_one, div_one] at divided
  obtain rfl : quotient = v := divided.rounds.eq_of_holds (holds_value isReal)
  have subtracted := sub isQuotient isOffset
  rw [show x / ofInt (1 : Nat) - half halves = cornerCoordinate halves x from rfl, isCorner] at subtracted
  rw [value_half (by omega)] at isOffset
  obtain rfl := Extended.real.inj isOffset
  exact ⟨quotient, t, isReal, subtracted.rounds, fitsWord, word⟩

variable [LawfulHalves α]

/-- The value of a sample that is not too far away. -/
theorem value_sampleCoordinate (few : halves ≤ 6) {r : ℝ}
    (isReal : value (sampleCoordinate halves steps : α) = .real r) (near : r < 2 ^ 40) :
    r = (4 * steps : Nat) + halves / 2 := by
  have close := steps_lt_of_value_sampleCoordinate few isReal near
  have isHalf : (sampleCoordinate halves steps : α) = half (2 * (4 * steps) + halves) := by
    have lattice : (half halves + ofInt (0 / 4 + steps : Nat) * 4 : α) = half (2 * (0 + 4 * steps) + halves) :=
      LawfulHalves.half_add_steps rfl (by omega)
    simpa [sampleCoordinate] using lattice
  rw [isHalf, value_half (by omega)] at isReal
  rw [← Extended.real.inj isReal]
  push_cast
  ring

/-- The corner of a sample that stays is its whole number of samples. -/
theorem ofScalar_cornerCoordinate_of_stays (few : halves ≤ 6) (fine : k < 31)
    (fits : (FixedPoint.ofScalar? (cornerCoordinate halves (sampleCoordinate halves steps) : α) k).isSome) :
    FixedPoint.ofScalar (cornerCoordinate halves (sampleCoordinate halves steps) : α) k =
      Int32.ofNat (4 * steps) <<< Int32.ofNat k := by
  obtain ⟨v, t, isReal, rounds, fitsWord, word⟩ := exists_of_fits_cornerCoordinate few fine fits
  have bound := (abs_le.mp (rounds.abs_le_two_pow_of_fits fine fitsWord)).2
  have few' : (halves : ℝ) ≤ 6 := by exact_mod_cast few
  have near : v < 2 ^ 40 := by
    norm_num at bound ⊢
    linarith
  have close := steps_lt_of_value_sampleCoordinate few isReal near
  obtain rfl := value_sampleCoordinate few isReal near
  rw [add_sub_cancel_right] at rounds
  have whole : (arithmetic α).Holds ((4 * steps : Nat) : ℤ) := .of_isFloat (.intCast (by rw [abs_le]; omega))
  obtain rfl := rounds.eq_of_holds (by exact_mod_cast whole)
  have rounded : halfAway ((4 * steps : Nat) * 2 ^ k) = (4 * steps * 2 ^ k : Nat) := by
    exact_mod_cast halfAway_intCast (4 * steps * 2 ^ k : Nat)
  rw [word, rounded, FixedPoint.ofNat_shiftLeft _ (by omega)]

/-- Corner and shift of a sample that is moved. -/
theorem exists_sameShift (few : halves ≤ 6) (fine : k < 31)
    (cornerFits : (FixedPoint.ofScalar? (cornerCoordinate halves x) k).isSome)
    (shiftFits : (FixedPoint.ofScalar? (x - sampleCoordinate halves steps) k).isSome) :
    ∃ v t d, SameShift (arithmetic α) v (halves / 2) (4 * steps) k t d ∧
      value (x - sampleCoordinate halves steps) = .real d ∧
      FixedPoint.ofScalar (cornerCoordinate halves x) k = Int32.ofInt (halfAway (t * 2 ^ k)) ∧
      FixedPoint.ofScalar? (x - sampleCoordinate halves steps) k = some (Int32.ofInt (halfAway (d * 2 ^ k))) := by
  obtain ⟨v, t, isTarget, corner, fitsCorner, cornerWord⟩ := exists_of_fits_cornerCoordinate few fine cornerFits
  obtain ⟨d, isShift, fitsShift, shiftWord, -⟩ := FixedPoint.exists_of_isSome (by omega) shiftFits
  obtain ⟨v', start, isTarget', isStart⟩ := real_of_sub isShift
  obtain rfl : v = v' := Extended.real.inj (isTarget.symm.trans isTarget')
  have shift := sub isTarget isStart
  rw [isShift] at shift
  have cornerBound := (abs_le.mp (corner.abs_le_two_pow_of_fits fine fitsCorner)).2
  have shiftBound := (abs_le.mp (shift.rounds.abs_le_two_pow_of_fits fine fitsShift)).1
  have few' : (halves : ℝ) ≤ 6 := by exact_mod_cast few
  have near : start < 2 ^ 40 := by
    norm_num at cornerBound shiftBound ⊢
    linarith
  obtain rfl := value_sampleCoordinate few isStart near
  exact ⟨v, t, d, ⟨corner, shift.rounds, fitsCorner, fitsShift⟩, isShift, cornerWord, shiftWord⟩

/-- One coordinate of a displacement and of the vector that tells the shift. -/
theorem exists_word_of_fits (few : halves ≤ 6) (fine : k < 31)
    (cornerFits : (FixedPoint.ofScalar? (cornerCoordinate halves x) k).isSome)
    (shiftFits : (FixedPoint.ofScalar? (x - sampleCoordinate halves steps) k).isSome) :
    let displacement :=
      FixedPoint.ofScalar (cornerCoordinate halves x) k - Int32.ofNat (4 * steps) <<< Int32.ofNat k
    ∃ word, FixedPoint.ofScalar? (x - sampleCoordinate halves steps) k = some word ∧
      |displacement.toInt - word.toInt| ≤ 1 ∧
      (arithmetic α = .exact → FixedPoint.OffMiddle (x - sampleCoordinate halves steps) k →
        displacement = word) := by
  intro displacement
  obtain ⟨v, t, d, same, isShift, cornerWord, shiftWord⟩ := exists_sameShift few fine cornerFits shiftFits
  have isDisplacement : displacement.toInt = halfAway (t * 2 ^ k) - (4 * steps : Nat) * 2 ^ k := by
    rw [← same.toInt_sub fine, ← cornerWord]
  refine ⟨_, shiftWord, ?_, fun exact offMiddle => ?_⟩
  · rw [isDisplacement, same.toInt_shift]
    exact same.abs_sub_le fine
  · rw [← Int32.toInt_inj, isDisplacement, same.toInt_shift]
    rw [exact] at same
    exact same.eq_of_exact (offMiddle.differs isShift)

end Coordinates

/-- The displacement of a sub-block, whose motion sample goes from `start` to `target`, and its converted
vector tell the same story. -/
structure Concur [RealValued α] (start target : Vec2 α) (precision : Nat) (displacement converted : MotionVector) :
    Prop where
  degenerate : isUndefined target.x = true ∨ isUndefined target.y = true → displacement = .zero ∧ converted = .zero
  near : (MotionVector.ofVec2? (target - start) precision).isSome →
    |displacement.horizontal.toInt - converted.horizontal.toInt| ≤ 1 ∧
      |displacement.vertical.toInt - converted.vertical.toInt| ≤ 1
  exact : arithmetic α = .exact → (MotionVector.ofVec2? (target - start) precision).isSome →
    (FixedPoint.OffMiddle (target.x - start.x) precision → displacement.horizontal = converted.horizontal) ∧
      (FixedPoint.OffMiddle (target.y - start.y) precision → displacement.vertical = converted.vertical)

namespace SubblockPicture

variable {p : SubblockPicture α} {halves : Nat} {block : Block} {chroma : ChromaFormat}

/-- Each sub-block of a luma block has its motion sample in the picture and its displacement. -/
theorem exists_displacement (regular : p.OnLattice halves) (accepted : block.Accepted .y chroma p.width p.height)
    {row col : Nat} (inRow : row < block.height / 4) (inCol : col < block.width / 4) (model : MotionModel α)
    (vector : MotionVector) (precision : Nat) :
    let start : Vec2 α := ⟨sampleCoordinate halves (block.x / 4 + col), sampleCoordinate halves (block.y / 4 + row)⟩
    let target := model.movePoint start (vector.toVec2 precision) (block.located .y chroma : LocatedBlock α).center
    let place := p.place (block.located .y chroma) start target
    p.grid.cell? (block.y / 4 + row) (block.x / 4 + col) = some start ∧
      ∃ corners, p.moveBlock model ⟨block, vector, precision, .y, chroma⟩ (block.located .y chroma) = .ok corners ∧
        corners.displacement? row col block.x block.y = some
          ⟨FixedPoint.ofScalar place.x precision -
              Int32.ofNat (4 * (block.x / 4 + col)) <<< Int32.ofNat precision,
            FixedPoint.ofScalar place.y precision -
              Int32.ofNat (4 * (block.y / 4 + row)) <<< Int32.ofNat precision⟩ := by
  intro start target place
  obtain ⟨alignedX, alignedY, -, -⟩ := accepted.aligned
  have inside := accepted.inside
  simp only [Component.shifts, Component.isLuma, if_true, Nat.shiftRight_zero] at inside
  have sample : p.grid.cell? (block.y / 4 + row) (block.x / 4 + col) = some start := by
    rw [regular.grid, regular.offset]
    exact Grid.cell?_lattice _ _ (by omega) (by omega)
  obtain ⟨samples, isSamples, -, -, cells⟩ := exists_samples_of_luma regular.grid rfl accepted
  refine ⟨sample, _, by rw [moveBlock_eq, isSamples]; rfl, ?_⟩
  have x : block.x + 4 * col = 4 * (block.x / 4 + col) := by omega
  have y : block.y + 4 * row = 4 * (block.y / 4 + row) := by omega
  rw [SubblockCorners.displacement?, Grid.cell?_map, cells row col inRow inCol, sample, x, y]
  rfl

theorem place_of_luma (regular : p.OnLattice halves) (start target : Vec2 α) :
    p.place (block.located .y chroma) start target =
      let reached := if isUndefined target.x || isUndefined target.y then start else target
      ⟨cornerCoordinate halves reached.x, cornerCoordinate halves reached.y⟩ := by
  rw [place, regular.offset]
  rfl

/-- The displacement of a sub-block whose corner fits, and what its sample has gone. -/
theorem concur [LawfulHalves α] [RealValued α] (regular : p.OnLattice halves) {precision : Nat}
    (fine : precision < 31) {stepsX stepsY : Nat} {target : Vec2 α} :
    let start : Vec2 α := ⟨sampleCoordinate halves stepsX, sampleCoordinate halves stepsY⟩
    let place := p.place (block.located .y chroma) start target
    (MotionVector.ofVec2? place precision).isSome →
      Concur start target precision
        ⟨FixedPoint.ofScalar place.x precision - Int32.ofNat (4 * stepsX) <<< Int32.ofNat precision,
          FixedPoint.ofScalar place.y precision - Int32.ofNat (4 * stepsY) <<< Int32.ofNat precision⟩
        ((MotionVector.ofVec2? (target - start) precision).getD .zero) := by
  intro start place fits
  have place_eq : place = _ := place_of_luma regular start target
  have few := regular.offset_le
  obtain ⟨fitsX, fitsY⟩ := MotionVector.isSome_ofVec2?_iff.mp fits
  cases undefined : isUndefined target.x || isUndefined target.y with
  | true =>
    have notReal {x y : α} (noValue : isUndefined x = true) (r : ℝ) : value (x - y) ≠ .real r := by
      intro difference
      obtain ⟨a, -, isReal, -⟩ := real_of_sub difference
      rw [isUndefined_iff.mp noValue] at isReal
      cases isReal
    have none : MotionVector.ofVec2? (target - start) precision = none :=
      MotionVector.ofVec2?_eq_none (by omega) ((Bool.or_eq_true _ _ ▸ undefined).imp (notReal ·) (notReal ·))
    simp only [undefined, if_true] at place_eq
    rw [place_eq] at fitsX fitsY ⊢
    rw [none, ofScalar_cornerCoordinate_of_stays few fine fitsX, ofScalar_cornerCoordinate_of_stays few fine fitsY,
      Int32.sub_self, Int32.sub_self]
    have unfit : ¬(MotionVector.ofVec2? (target - start) precision).isSome := by simp [none]
    exact ⟨fun _ => ⟨rfl, rfl⟩, fun fits => absurd fits unfit, fun _ fits => absurd fits unfit⟩
  | false =>
    simp only [undefined, Bool.false_eq_true, if_false] at place_eq
    rw [place_eq] at fitsX fitsY ⊢
    have words (shiftFits : (MotionVector.ofVec2? (target - start) precision).isSome) := by
      obtain ⟨shiftX, shiftY⟩ := MotionVector.isSome_ofVec2?_iff.mp shiftFits
      exact And.intro (exists_word_of_fits few fine fitsX shiftX) (exists_word_of_fits few fine fitsY shiftY)
    refine ⟨fun degenerate => ?_, fun shiftFits => ?_, fun exact shiftFits => ?_⟩
    · rw [← Bool.or_eq_true, undefined] at degenerate
      cases degenerate
    · obtain ⟨⟨x, isX, nearX, -⟩, y, isY, nearY, -⟩ := words shiftFits
      rw [MotionVector.ofVec2?_eq_some isX isY]
      exact ⟨nearX, nearY⟩
    · obtain ⟨⟨x, isX, -, exactX⟩, y, isY, -, exactY⟩ := words shiftFits
      rw [MotionVector.ofVec2?_eq_some isX isY]
      exact ⟨exactX exact, exactY exact⟩

end SubblockPicture

section Classic

variable (plan : Plan α) {id : ModelId} (active : plan.config.active.contains id = true) (other : id ≠ .classic)
  {pair : PicturePair} {epipole : Option (Vec3 α)} (given : plan.epipoles.forModel id pair = .ok epipole)
  (vector : MotionVector)
include active other given

/-- The zero vector stays, and any other is converted to plain translation by what it moves the position by. -/
theorem Plan.convert_to_classic_eq (precision : Nat) (position center currentCenter : Vec2 α)
    (targetPair : PicturePair) :
    plan.convert ⟨vector, precision, id, .classic, position, center, currentCenter, pair, targetPair⟩ =
      .ok (if vector.isZero then .zero else (MotionVector.ofVec2? ((plan.motionModel id epipole).movePoint position
        (vector.toVec2 precision) center - position) precision).getD .zero) := by
  have allowed : plan.require id = .ok () := if_pos active
  have classic : plan.require .classic = .ok () := if_pos rfl
  have none : plan.epipoles.forModel .classic targetPair = (.ok none : Except EngineError (Option (Vec3 α))) := rfl
  rw [plan.convert_of_ne other, allowed, classic, given, none]
  by_cases still : vector.isZero = true
  · rw [if_pos still]
    exact congrArg Except.ok ((if_pos still).trans (MotionVector.eq_zero_of_isZero still))
  · rw [if_neg still]
    exact congrArg Except.ok (if_neg still)

/-- A vector is converted to plain translation by what it moves the position by. -/
theorem Plan.convert_to_classic [LawfulHalves α] [RealValued α] {precision : Nat} (small : precision < 52)
    (position center currentCenter : Vec2 α) (targetPair : PicturePair) :
    plan.convert ⟨vector, precision, id, .classic, position, center, currentCenter, pair, targetPair⟩ =
      .ok ((MotionVector.ofVec2? ((plan.motionModel id epipole).movePoint position (vector.toVec2 precision)
        center - position) precision).getD .zero) := by
  rw [plan.convert_to_classic_eq active other given]
  split
  next still =>
    obtain rfl := MotionVector.eq_zero_of_isZero still
    rw [MotionModel.movePoint_of_isZero _ (MotionVector.isZero_toVec2_zero small),
      MotionVector.ofVec2?_sub_self _ (by omega)]
  next => rfl

end Classic

/-- Whatever was asked of an engine before, a sub-block of luma goes, but for a unit of the last fractional bit, as
far as the engine says when it converts the vector to plain translation at the sample of the sub-block. The corner
that the sub-block comes to has to fit, and for the comparison the shift as well. -/
theorem Engine.displacement_concurs_conversion [LawfulSame α] [LawfulHalves α] [RealValued α]
    {projection : Projection α} {width height : Nat} {config : Config} {epipoles : EpipoleList} {e : Engine α}
    (built : build projection width height config epipoles = .ok e) (requests : List (Request α)) {id : ModelId}
    (active : config.active.contains id = true) (other : id ≠ .classic) {pair : PicturePair}
    {epipole : Option (Vec3 α)} (given : (e.serveAll requests).epipoles.forModel id pair = .ok epipole)
    {block : Block} {chroma : ChromaFormat} (accepted : block.Accepted .y chroma width height) {row col : Nat}
    (inRow : row < block.height / 4) (inCol : col < block.width / 4) (vector : MotionVector) {precision : Nat}
    (fine : precision < 31) (currentCenter : Vec2 α) (targetPair : PicturePair) :
    let picture := (e.serveAll requests).picture
    let located : LocatedBlock α := block.located .y chroma
    ∃ start corners displacement converted,
      picture.grid.cell? (block.y / 4 + row) (block.x / 4 + col) = some start ∧
      ((e.serveAll requests).reproject ⟨block, vector, precision, .y, chroma⟩ id pair).map Prod.fst = .ok corners ∧
      corners.displacement? row col block.x block.y = some displacement ∧
      ((e.serveAll requests).convert ⟨vector, precision, id, .classic, start, located.center, currentCenter, pair,
        targetPair⟩).map Prod.fst = .ok converted ∧
      let target := (id.motionModel config.flavor projection epipole).movePoint start (vector.toVec2 precision)
        located.center
      (MotionVector.ofVec2? (picture.place located start target) precision).isSome →
        Concur start target precision displacement converted := by
  intro picture located
  obtain ⟨made, isMade, sound, plan⟩ := run_of_built built requests
  obtain ⟨rfl, rfl, halves, regular⟩ := SubblockPicture.onLattice_of_made isMade
  have same : picture.forget = made.forget := congrArg Plan.picture plan
  have grid : picture.grid = made.forget.grid := SubblockPicture.grid_eq same
  have place : picture.place = made.forget.place := (congrArg SubblockPicture.place same :)
  have current : (e.serveAll requests).epipoles = requests.foldl EpipoleList.edit epipoles :=
    congrArg Plan.epipoles plan
  rw [current] at given
  obtain ⟨sample, corners, moved, displacement⟩ := SubblockPicture.exists_displacement regular.forget accepted
    inRow inCol (id.motionModel config.flavor projection epipole) vector precision
  rw [← grid] at sample
  rw [← place] at displacement
  have reprojected : ((e.serveAll requests).reproject ⟨block, vector, precision, .y, chroma⟩ id pair).map Prod.fst =
      .ok corners := by
    have allowed : config.active.contains id = true := active
    have found := SubblockPicture.locate_of_accepted (p := made.forget) accepted
    rw [(sound.reproject _ id pair).map_fst, plan]
    simp only [Plan.reproject, Plan.require, allowed, if_true, found, given, bind, Except.bind]
    exact moved
  have converted := (e.serveAll requests).plan.convert_to_classic (by rw [plan]; exact active) other
    (by rw [plan]; exact given) vector (by omega : precision < 52)
    ⟨sampleCoordinate halves (block.x / 4 + col), sampleCoordinate halves (block.y / 4 + row)⟩ located.center
    currentCenter targetPair
  rw [← (sound.convert _).map_fst, plan] at converted
  refine ⟨_, corners, _, _, sample, reprojected, displacement, converted, ?_⟩
  rw [place]
  exact SubblockPicture.concur regular.forget fine

theorem Exact.offMiddle_intCast (n : ℤ) : FixedPoint.OffMiddle (Exact.real n) 0 := by
  refine ⟨fun {r} isReal m middle => ?_⟩
  obtain rfl := Extended.real.inj isReal
  have double : ((2 * n : ℤ) : ℝ) = (2 * m + 1 : ℤ) := by
    push_cast
    linarith
  have parity : 2 * n = 2 * m + 1 := by exact_mod_cast double
  omega

theorem Exact.ofScalar?_intCast (n : ℤ) : FixedPoint.ofScalar? (Exact.real n) 0 = (Nearest.whole n).toInt32? := by
  have one : FixedPoint.scale 0 = 1 := rfl
  rw [FixedPoint.ofScalar?, FixedPoint.round, one, ofInt_eq, real_mul, Int.cast_one, mul_one]
  exact congrArg Nearest.toInt32? (congrArg Nearest.whole (halfAway_intCast n))

theorem Exact.isSome_ofVec2?_intCast {m n : ℤ}
    (fits : (Nearest.whole m).toInt32?.isSome ∧ (Nearest.whole n).toInt32?.isSome) :
    (MotionVector.ofVec2? (⟨Exact.real m, Exact.real n⟩ : Vec2 Exact) 0).isSome := by
  rwa [MotionVector.isSome_ofVec2?_iff, ofScalar?_intCast, ofScalar?_intCast]

/-- Without fractional bits words are whole numbers. -/
theorem MotionVector.toVec2_precision_zero (mv : MotionVector) :
    (mv.toVec2 0 : Vec2 Exact) = ⟨Exact.real mv.horizontal.toInt, Exact.real mv.vertical.toInt⟩ := by
  have one : FixedPoint.scale 0 = 1 := rfl
  apply Vec2.ext <;> simp [toVec2, FixedPoint.toScalar, one, Exact.real_div]

/-- Nothing is rounded of a sub-block that goes a whole number of samples. -/
theorem Concur.eq_of_whole {start target : Vec2 Exact} {displacement converted : MotionVector} {m n : ℤ}
    (concur : Concur start target 0 displacement converted) (shift : target - start = ⟨Exact.real m, Exact.real n⟩)
    (fits : (Nearest.whole m).toInt32?.isSome ∧ (Nearest.whole n).toInt32?.isSome) :
    displacement.horizontal = converted.horizontal ∧ displacement.vertical = converted.vertical := by
  obtain ⟨horizontal, vertical⟩ := concur.exact rfl (shift ▸ Exact.isSome_ofVec2?_intCast fits)
  have shiftX : target.x - start.x = Exact.real m := congrArg Vec2.x shift
  have shiftY : target.y - start.y = Exact.real n := congrArg Vec2.y shift
  exact ⟨horizontal (shiftX ▸ Exact.offMiddle_intCast m), vertical (shiftY ▸ Exact.offMiddle_intCast n)⟩

/-- With the sub-blocks sampled at their corners, a luma sub-block goes where its sample does. -/
theorem SubblockPicture.place_of_corner {p : SubblockPicture Exact} (offset : p.offset = Exact.real 0)
    (block : Block) (chroma : ChromaFormat) (start : Vec2 Exact) (x y : ℝ) :
    p.place (block.located .y chroma) start ⟨Exact.real x, Exact.real y⟩ = ⟨Exact.real x, Exact.real y⟩ := by
  have one (r : ℝ) : Exact.real r / Scalar.ofInt (1 : Nat) - Exact.real 0 = Exact.real r := by
    simp [Exact.real_div]
  simp only [place, Exact.isUndefined_real, Bool.or_false, Bool.false_eq_true, if_false, offset]
  exact Vec2.ext (one x) (one y)

section QuarterTurn

open Exact

/-- An engine of a panorama whose epipoles have been made available: the sample of a sub-block on its left edge,
where samples are taken, and the epipole of the camera pose. -/
theorem Engine.edge_of_built {config : Config} (corners : config.offsetIndex = 0) {e : Engine Exact}
    (built : build (.panorama ⟨real 16, real 8, real 0⟩) 16 8 config .initial = .ok e) :
    let asked := e.serveAll [.makeAvailable PicturePair.anyPicture]
    asked.picture.grid.cell? 1 0 = some ⟨real 0, real 4⟩ ∧ asked.picture.offset = real 0 ∧
      asked.epipoles.forModel .geodesicCameraPose .global =
        (.ok (some .zero) : Except EngineError (Option (Vec3 Exact))) := by
  obtain ⟨active, flavor, offsetIndex⟩ := config
  obtain rfl : offsetIndex = 0 := corners
  cases built
  refine ⟨?_, congrArg real (by norm_num), ?_⟩
  · refine (Grid.cell?_lattice _ _ (by decide) (by decide)).trans (congrArg some (Vec2.ext ?_ ?_))
    · exact congrArg real (by norm_num)
    · exact congrArg real (by norm_num)
  · have zero : (FixedPoint.toScalar 0 EpipoleEntry.precision : Exact) = ofInt (0 : Nat) :=
      FixedPoint.toScalar_zero (by decide)
    exact congrArg (fun x => Except.ok (some (Vec3.mk x x x))) zero

/-- The camera pose without a direction moves a sample on the left edge by a quarter of the width. -/
theorem ModelId.movePoint_cameraPose_of_quarter_turn (center : Vec2 Exact) :
    (geodesicCameraPose.motionModel .linear (.panorama ⟨real 16, real 8, real 0⟩) (some .zero)).movePoint
      ⟨real 0, real 4⟩ ((⟨0, -4⟩ : MotionVector).toVec2 0) center = ⟨real 4, real 4⟩ := by
  have vector : ((⟨0, -4⟩ : MotionVector).toVec2 0 : Vec2 Exact) = ⟨real 0, real (-4)⟩ := by
    rw [MotionVector.toVec2_precision_zero]
    simp
  rw [vector]
  exact movePoint_panorama_of_quarter_turn center

/-- A quarter turn to the right in a panorama, for a camera pose whose epipole is zero. -/
theorem Engine.displacement_concurs_conversion_of_quarter_turn :
    let projection : Projection Exact := .panorama ⟨real 16, real 8, real 0⟩
    let config : Config := { active := .everything, flavor := .linear, offsetIndex := 0 }
    let requests : List (Request Exact) := [.makeAvailable PicturePair.anyPicture]
    let moved : MovedBlock := ⟨⟨0, 4, 4, 4⟩, ⟨0, -4⟩, 0, .y, .yuv420⟩
    let start : Vec2 Exact := ⟨real 0, real 4⟩
    let conversion : Conversion Exact :=
      ⟨⟨0, -4⟩, 0, .geodesicCameraPose, .classic, start, ⟨real 2, real 6⟩, .origin, .global, .global⟩
    ∃ e, build projection 16 8 config .initial = .ok e ∧
      (e.serveAll requests).picture.grid.cell? 1 0 = some start ∧
      ∃ corners displacement converted,
        ((e.serveAll requests).reproject moved .geodesicCameraPose .global).map Prod.fst = .ok corners ∧
        corners.displacement? 0 0 0 4 = some displacement ∧
        ((e.serveAll requests).convert conversion).map Prod.fst = .ok converted ∧
        displacement.horizontal = converted.horizontal ∧ displacement.vertical = converted.vertical := by
  intro projection config requests moved start conversion
  have built : ∃ e, build projection 16 8 config .initial = .ok e := ⟨_, rfl⟩
  obtain ⟨e, built⟩ := built
  obtain ⟨cell, offset, given⟩ := edge_of_built rfl built
  have accepted : moved.block.Accepted .y .yuv420 16 8 := ⟨.inl rfl, by decide, by decide, by decide⟩
  have center : (moved.block.located .y .yuv420 : LocatedBlock Exact).center = ⟨real 2, real 6⟩ := by
    simp [Block.located, Component.shifts, Component.isLuma, moved]
  obtain ⟨p, corners, displacement, converted, sample, reprojected, displaced, answered, concur⟩ :=
    displacement_concurs_conversion built requests rfl (by decide) given accepted
      (by decide : 0 < moved.block.height / 4) (by decide : 0 < moved.block.width / 4) ⟨0, -4⟩ (by decide : 0 < 31)
      .origin .global
  have row : moved.block.y / 4 + 0 = 1 := by simp only [moved, Nat.add_zero]
  have col : moved.block.x / 4 + 0 = 0 := by simp only [moved, Nat.add_zero]
  rw [row, col, cell] at sample
  obtain rfl : start = p := Option.some.inj sample
  have target : (ModelId.geodesicCameraPose.motionModel config.flavor projection (some .zero)).movePoint start
      ((⟨0, -4⟩ : MotionVector).toVec2 0) ⟨real 2, real 6⟩ = ⟨real 4, real 4⟩ :=
    ModelId.movePoint_cameraPose_of_quarter_turn _
  have place : (e.serveAll requests).picture.place (moved.block.located .y .yuv420) start ⟨real 4, real 4⟩ =
      ⟨real 4, real 4⟩ := SubblockPicture.place_of_corner offset ..
  rw [center] at answered concur
  simp only [target, place] at concur
  have shift : (⟨real 4, real 4⟩ : Vec2 Exact) - start = ⟨real (4 : ℤ), real (0 : ℤ)⟩ :=
    Vec2.ext (congrArg real (by norm_num)) (congrArg real (by norm_num))
  have fits : (MotionVector.ofVec2? (⟨real 4, real 4⟩ : Vec2 Exact) 0).isSome := by
    exact_mod_cast isSome_ofVec2?_intCast (m := 4) (n := 4) (by decide)
  obtain ⟨horizontal, vertical⟩ := (concur fits).eq_of_whole (m := 4) (n := 0) shift (by decide)
  exact ⟨e, built, cell, corners, displacement, converted, reprojected, displaced, answered, horizontal, vertical⟩

end QuarterTurn

end SphereMotion
