import Mathlib
import SphereMotion.Proofs.BlockSamples
import SphereMotion.Proofs.DoubleArithmetic
import SphereMotion.Proofs.FixedPoints
import SphereMotion.Proofs.Viewports

namespace SphereMotion

open Scalar

variable {α : Type} [Scalar α]

/-- The answer of an engine, after any requests, to a block that is moved by `model`. -/
inductive Answers (width height offsetIndex : Nat) (moved : MovedBlock) :
    MotionModel α → Except EngineError SubblockCorners → Prop
  | models {projection : Projection α} {config : Config} {epipoles : EpipoleList} {e : Engine α}
      (built : Engine.build projection width height config epipoles = .ok e)
      (index : config.offsetIndex = offsetIndex)
      (requests : List (Request α)) {id : ModelId} (active : config.active.contains id = true) {pair : PicturePair}
      {epipole : Option (Vec3 α)} (given : (e.serveAll requests).epipoles.forModel id pair = .ok epipole) :
    Answers width height offsetIndex moved (id.motionModel config.flavor projection epipole)
      (((e.serveAll requests).reproject moved id pair).map Prod.fst)
  | viewports {projection : Projection α} {e : ViewportEngine α}
      (built : ViewportEngine.build projection width height offsetIndex = .ok e)
      (calls : List (MovedBlock × Viewport)) (viewport : Viewport) :
    Answers width height offsetIndex moved (viewport.motionModel projection)
      (((calls.foldl .after e).reproject moved viewport).map Prod.fst)

theorem SubblockPicture.offset_of_made {width height offsetIndex : Nat} {p : SubblockPicture α}
    (made : ofOffsetIndex width height offsetIndex = .ok p) : Config.offset offsetIndex = .ok p.offset := by
  unfold ofOffsetIndex at made
  cases accepted : (Config.offset offsetIndex : Except ConfigError α) with
  | error cause => rw [accepted] at made; cases made
  | ok offset =>
    rw [accepted] at made
    simp only [bind, Except.bind, build] at made
    split at made
    · cases made
    · cases made
      rfl

/-- An acceptable block is answered without a memory. -/
theorem Answers.exists_picture [LawfulSame α] [LawfulHalves α] {width height offsetIndex : Nat} {moved : MovedBlock}
    {model : MotionModel α} {answer : Except EngineError SubblockCorners}
    (answers : Answers width height offsetIndex moved model answer)
    (accepted : moved.block.Accepted moved.component moved.chroma width height) :
    ∃ picture : SubblockPicture α, SubblockPicture.ofOffsetIndex width height offsetIndex = .ok picture ∧
      answer = picture.moveBlock model moved (moved.block.located moved.component moved.chroma) := by
  have located {picture : SubblockPicture α}
      (made : SubblockPicture.ofOffsetIndex width height offsetIndex = .ok picture) :
      picture.forget.locate moved.block moved.component moved.chroma =
        .ok (moved.block.located moved.component moved.chroma) := by
    obtain ⟨rfl, rfl, -⟩ := SubblockPicture.onLattice_of_made made
    exact SubblockPicture.locate_of_accepted accepted
  cases answers with
  | @models projection config epipoles e built index requests id active pair epipole given =>
    obtain ⟨picture, made, sound, plan⟩ := Engine.run_of_built built requests
    subst index
    have current : (e.serveAll requests).epipoles = requests.foldl EpipoleList.edit epipoles :=
      congrArg Plan.epipoles plan
    rw [current] at given
    have allowed : config.active.contains id = true := active
    refine ⟨picture, made, ?_⟩
    rw [(sound.reproject moved id pair).map_fst, plan]
    simp only [Plan.reproject, Plan.require, allowed, if_true, located made, given, bind, Except.bind]
    rfl
  | viewports built calls viewport =>
    obtain ⟨picture, made, sound, plan⟩ := ViewportEngine.run_of_built built calls
    refine ⟨picture, made, ?_⟩
    rw [(sound.reproject moved viewport).map_fst, plan, ViewportPlan.reproject, located made]
    rfl

/-- The unmoved corners of a block, as fixed-point numbers, are words of 32 bits. -/
structure MovedBlock.CornersFit (moved : MovedBlock) : Prop where
  precisions : moved.precision + (moved.component.shifts moved.chroma).1 < 32 ∧
    moved.precision + (moved.component.shifts moved.chroma).2 < 32
  columns {col : Nat} : col < moved.block.width / 4 →
    (moved.block.x + 4 * col) * 2 ^ (moved.precision + (moved.component.shifts moved.chroma).1) < 2 ^ 31
  rows {row : Nat} : row < moved.block.height / 4 →
    (moved.block.y + 4 * row) * 2 ^ (moved.precision + (moved.component.shifts moved.chroma).2) < 2 ^ 31

/-- The whole number nearest to a scalar, a half going away from zero, limited to a word of 32 bits. -/
noncomputable def nearestWord [RealValued α] (x : α) : Int32 := (RealValued.value x).nearest.toInt32

/-- The motion sample of a sub-block. -/
def MovedBlock.start (moved : MovedBlock) (offset : α) (row col : Nat) : Vec2 α :=
  moved.block.sample moved.component moved.chroma offset row col

/-- Where a model takes the motion sample of a sub-block. -/
def MovedBlock.target (moved : MovedBlock) (model : MotionModel α) (offset : α) (row col : Nat) : Vec2 α :=
  model.movePoint (moved.start offset row col) (moved.vector.toVec2 moved.precision)
    (moved.block.located moved.component moved.chroma : LocatedBlock α).center

/-- The sub-blocks of a block land where their own samples are moved to. All of them stay if the vector is zero, and
those stay whose motion is not defined. -/
structure SubblockCorners.Lands [RealValued α] (corners : SubblockCorners) (moved : MovedBlock)
    (model : MotionModel α) (offset : α) : Prop where
  precisions : corners.precisionX = moved.precision + (moved.component.shifts moved.chroma).1 ∧
    corners.precisionY = moved.precision + (moved.component.shifts moved.chroma).2
  still {row col : Nat} : moved.vector = .zero → row < moved.block.height / 4 → col < moved.block.width / 4 →
    corners.displacement? row col moved.block.x moved.block.y = some .zero
  undefined {row col : Nat} : row < moved.block.height / 4 → col < moved.block.width / 4 →
    let target := moved.target model offset row col
    isUndefined target.x = true ∨ isUndefined target.y = true →
    corners.displacement? row col moved.block.x moved.block.y = some .zero
  rounded {row col : Nat} : row < moved.block.height / 4 → col < moved.block.width / 4 →
    let target := moved.target model offset row col
    isUndefined target.x = false → isUndefined target.y = false →
    corners.corners.cell? row col = some
      ⟨nearestWord ((target.x / ofInt (2 ^ (moved.component.shifts moved.chroma).1 : Nat) - offset) *
          ofInt (2 ^ corners.precisionX : Nat)),
        nearestWord ((target.y / ofInt (2 ^ (moved.component.shifts moved.chroma).2 : Nat) - offset) *
          ofInt (2 ^ corners.precisionY : Nat))⟩

namespace SubblockPicture

/-- A sub-block that stays is placed on its corner: offset and scale cancel. -/
theorem place_of_stays [LawfulHalves α] {p : SubblockPicture α} {halves : Nat} (regular : p.OnLattice halves)
    {block : Block} {component : Component} {chroma : ChromaFormat} {row col : Nat}
    (smallX : (2 * (block.x + 4 * col) + halves) * 2 ^ (component.shifts chroma).1 < 2 ^ 53)
    (smallY : (2 * (block.y + 4 * row) + halves) * 2 ^ (component.shifts chroma).2 < 2 ^ 53) {target : Vec2 α}
    (stays : isUndefined target.x = true ∨ isUndefined target.y = true ∨
      target = block.sample component chroma p.offset row col) :
    p.place (block.located component chroma) (block.sample component chroma p.offset row col) target =
      ⟨half (2 * (block.x + 4 * col)), half (2 * (block.y + 4 * row))⟩ := by
  have unmoved : p.place (block.located component chroma) (block.sample component chroma p.offset row col) target =
      p.place (block.located component chroma) (block.sample component chroma p.offset row col)
        (block.sample component chroma p.offset row col) := by
    rcases stays with left | right | rfl
    · simp only [place, left, Bool.true_or, if_true, ite_self]
    · simp only [place, right, Bool.or_true, if_true, ite_self]
    · rfl
  have back {shift n : Nat} (bounded : shift ≤ 1) (small : (2 * n + halves) * 2 ^ shift < 2 ^ 53) :
      (half ((2 * n + halves) * 2 ^ shift) / ofInt (1 <<< shift : Nat) - half halves : α) = half (2 * n) := by
    have positive := Nat.two_pow_pos shift
    have factor : 2 ^ shift ≤ 2 ^ 1 := Nat.pow_le_pow_right (by decide) bounded
    have atLeast := Nat.le_mul_of_pos_right (2 * n + halves) positive
    rw [Nat.one_shiftLeft, LawfulHalves.half_div_ofInt positive (by omega) small,
      LawfulHalves.half_sub_half (by omega)]
  obtain ⟨boundedX, boundedY⟩ := component.shifts_le chroma
  rw [unmoved, place, regular.offset, Block.sample_eq component chroma smallX smallY]
  simp only [ite_self]
  exact Vec2.ext (back boundedX smallX) (back boundedY smallY)

end SubblockPicture

/-- The corners that fit are those of samples on exact halves. -/
theorem MovedBlock.CornersFit.sample_lt {moved : MovedBlock} (fit : moved.CornersFit) {halves : Nat}
    (small : halves ≤ 6) {row col : Nat} (inRow : row < moved.block.height / 4)
    (inCol : col < moved.block.width / 4) :
    (2 * (moved.block.x + 4 * col) + halves) * 2 ^ (moved.component.shifts moved.chroma).1 < 2 ^ 53 ∧
      (2 * (moved.block.y + 4 * row) + halves) * 2 ^ (moved.component.shifts moved.chroma).2 < 2 ^ 53 := by
  have each {shift n : Nat} (bounded : shift ≤ 1) (fits : n * 2 ^ (moved.precision + shift) < 2 ^ 31) :
      (2 * n + halves) * 2 ^ shift < 2 ^ 53 := by
    have atLeast := Nat.le_mul_of_pos_right n (Nat.two_pow_pos (moved.precision + shift))
    interval_cases shift <;> omega
  obtain ⟨boundedX, boundedY⟩ := moved.component.shifts_le moved.chroma
  exact ⟨each boundedX (fit.columns inCol), each boundedY (fit.rows inRow)⟩

namespace SubblockPicture

variable {p : SubblockPicture α} {halves : Nat} {moved : MovedBlock}

/-- The corner of each sub-block of a moved block. -/
theorem exists_corners [LawfulHalves α] (regular : p.OnLattice halves)
    (accepted : moved.block.Accepted moved.component moved.chroma p.width p.height) (fit : moved.CornersFit)
    (model : MotionModel α) :
    ∃ corners, p.moveBlock model moved (moved.block.located moved.component moved.chroma) = .ok corners ∧
      (corners.precisionX = moved.precision + (moved.component.shifts moved.chroma).1 ∧
        corners.precisionY = moved.precision + (moved.component.shifts moved.chroma).2) ∧
      ∀ {row col : Nat}, row < moved.block.height / 4 → col < moved.block.width / 4 →
        corners.corners.cell? row col = some (p.corner (moved.block.located moved.component moved.chroma)
          moved.precision (moved.start p.offset row col) (moved.target model p.offset row col)) := by
  obtain ⟨samples, isSamples, rows, cols, cells⟩ := exists_samples regular accepted
  refine ⟨_, by rw [moveBlock_eq, isSamples]; rfl, ⟨rfl, rfl⟩, fun {row col} inRow inCol => ?_⟩
  obtain ⟨smallX, smallY⟩ := fit.sample_lt regular.offset_le inRow inCol
  rw [Grid.cell?_map, cells row col inRow inCol smallX smallY]
  rfl

/-- The corner of a sub-block that stays. -/
theorem corner_of_stays [LawfulHalves α] (regular : p.OnLattice halves) (fit : moved.CornersFit) {row col : Nat}
    (inRow : row < moved.block.height / 4) (inCol : col < moved.block.width / 4) {target : Vec2 α}
    (stays : isUndefined target.x = true ∨ isUndefined target.y = true ∨ target = moved.start p.offset row col) :
    p.corner (moved.block.located moved.component moved.chroma)
      moved.precision (moved.start p.offset row col) target =
      ⟨Int32.ofNat (moved.block.x + 4 * col) <<<
          Int32.ofNat (moved.precision + (moved.component.shifts moved.chroma).1),
        Int32.ofNat (moved.block.y + 4 * row) <<<
          Int32.ofNat (moved.precision + (moved.component.shifts moved.chroma).2)⟩ := by
  obtain ⟨smallX, smallY⟩ := fit.sample_lt regular.offset_le inRow inCol
  rw [corner, MovedBlock.start, place_of_stays regular smallX smallY stays,
    FixedPoint.ofNat_shiftLeft _ fit.precisions.1, FixedPoint.ofNat_shiftLeft _ fit.precisions.2]
  exact Vec2.ext (FixedPoint.ofScalar_whole fit.precisions.1 (fit.columns inCol))
    (FixedPoint.ofScalar_whole fit.precisions.2 (fit.rows inRow))

theorem exists_lands [LawfulHalves α] [RealValued α] (regular : p.OnLattice halves)
    (accepted : moved.block.Accepted moved.component moved.chroma p.width p.height) (fit : moved.CornersFit)
    (model : MotionModel α) :
    ∃ corners, p.moveBlock model moved (moved.block.located moved.component moved.chroma) = .ok corners ∧
      corners.Lands moved model p.offset := by
  obtain ⟨corners, isCorners, ⟨precisionX, precisionY⟩, cells⟩ := exists_corners regular accepted fit model
  have stays {row col : Nat} (inRow : row < moved.block.height / 4) (inCol : col < moved.block.width / 4)
      (unmoved : isUndefined (moved.target model p.offset row col).x = true ∨
        isUndefined (moved.target model p.offset row col).y = true ∨
        moved.target model p.offset row col = moved.start p.offset row col) :
      corners.displacement? row col moved.block.x moved.block.y = some .zero := by
    rw [SubblockCorners.displacement?, cells inRow inCol, precisionX, precisionY,
      corner_of_stays regular fit inRow inCol unmoved]
    simp only [Option.map_some, Int32.sub_self]
    rfl
  refine ⟨corners, isCorners, ⟨precisionX, precisionY⟩, fun {row col} zero inRow inCol => ?_,
    fun {row col} inRow inCol undefined => ?_, fun {row col} inRow inCol definedX definedY => ?_⟩
  · refine stays inRow inCol (.inr (.inr (model.movePoint_of_isZero ?_ _ _)))
    rw [zero]
    exact MotionVector.isZero_toVec2_zero (by have := fit.precisions.1; omega)
  · exact stays inRow inCol (undefined.imp_right .inl)
  · have word (x : α) {precision : Nat} (small : precision < 32) :
        FixedPoint.ofScalar x precision = nearestWord (x * ofInt (2 ^ precision : Nat)) := by
      rw [FixedPoint.ofScalar, FixedPoint.round, FixedPoint.scale_eq (by omega), RealValued.nearest_eq]
      rfl
    rw [cells inRow inCol, corner, place, definedX, definedY, precisionX, precisionY]
    simp only [Bool.or_false, Bool.false_eq_true, if_false, Nat.one_shiftLeft]
    exact congrArg some (Vec2.ext (word _ fit.precisions.1) (word _ fit.precisions.2))

end SubblockPicture

/-- Whatever was asked of an engine before, it lets the sub-blocks of an acceptable block land where their samples
are moved to, and leaves those on their corners that are not moved or whose motion is not defined. -/
theorem exists_lands_of_answers [LawfulSame α] [LawfulHalves α] [RealValued α] {width height offsetIndex : Nat}
    {moved : MovedBlock} {model : MotionModel α} {answer : Except EngineError SubblockCorners}
    (answers : Answers width height offsetIndex moved model answer)
    (accepted : moved.block.Accepted moved.component moved.chroma width height) (fit : moved.CornersFit) :
    ∃ offset corners, Config.offset offsetIndex = .ok offset ∧ answer = .ok corners ∧
      corners.Lands moved model offset := by
  obtain ⟨picture, made, rfl⟩ := answers.exists_picture accepted
  obtain ⟨rfl, rfl, halves, regular⟩ := SubblockPicture.onLattice_of_made made
  obtain ⟨corners, isCorners, lands⟩ := SubblockPicture.exists_lands regular accepted fit model
  exact ⟨picture.offset, corners, SubblockPicture.offset_of_made made, isCorners, lands⟩

/-- A chroma block of the camera pose in one engine, and of a plane in the other. -/
theorem exists_lands_of_answers_of_both_engines :
    let projection : Projection Double :=
      .panorama ⟨.ofBits 0x4030000000000000, .ofBits 0x4020000000000000, .ofBits 0⟩
    let config : Config := { active := .everything, offsetIndex := 4 }
    let moved : MovedBlock := ⟨⟨0, 0, 8, 4⟩, ⟨3, -1⟩, 2, .cb, .yuv420⟩
    let requests : List (Request Double) := [.addEpipole .unitX .global true]
    let calls : List (MovedBlock × Viewport) := [(moved, .classic)]
    moved.block.Accepted moved.component moved.chroma 16 8 ∧ moved.CornersFit ∧
    ∃ e v epipole, Engine.build projection 16 8 config .initial = .ok e ∧
      ViewportEngine.build projection 16 8 4 = .ok v ∧
      (e.serveAll requests).epipoles.forModel .geodesicCameraPose .global = .ok epipole ∧
      (∃ offset corners, Config.offset 4 = .ok offset ∧
        ((e.serveAll requests).reproject moved .geodesicCameraPose .global).map Prod.fst = .ok corners ∧
        corners.Lands moved (ModelId.geodesicCameraPose.motionModel config.flavor projection epipole) offset) ∧
      ∃ offset corners, Config.offset 4 = .ok offset ∧
        ((calls.foldl .after v).reproject moved (.plane .leftRight)).map Prod.fst = .ok corners ∧
        corners.Lands moved ((Viewport.plane .leftRight).motionModel projection) offset := by
  intro projection config moved requests calls
  have built : ∃ e, Engine.build projection 16 8 config .initial = .ok e := ⟨_, rfl⟩
  have builtViewports : ∃ v, ViewportEngine.build projection 16 8 4 = .ok v := ⟨_, rfl⟩
  obtain ⟨e, built⟩ := built
  obtain ⟨v, builtViewports⟩ := builtViewports
  have accepted : moved.block.Accepted moved.component moved.chroma 16 8 :=
    ⟨.inr rfl, by decide, by decide, by decide⟩
  have fit : moved.CornersFit := ⟨by decide, by decide, by decide⟩
  have given : ∃ epipole, (e.serveAll requests).epipoles.forModel .geodesicCameraPose .global =
      (.ok epipole : Except EngineError (Option (Vec3 Double))) := by
    cases built
    exact ⟨_, rfl⟩
  obtain ⟨epipole, given⟩ := given
  exact ⟨accepted, fit, e, v, epipole, built, builtViewports, given,
    exists_lands_of_answers (.models built rfl requests rfl given) accepted fit,
    exists_lands_of_answers (.viewports builtViewports calls (.plane .leftRight)) accepted fit⟩

end SphereMotion
