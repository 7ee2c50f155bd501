import Mathlib
import SphereMotion.Proofs.Displacement
import SphereMotion.Proofs.ExactUnits
import SphereMotion.Proofs.ValueOrder

namespace SphereMotion

open Scalar

variable {α : Type} [Scalar α]

theorem MotionModel.movePoint_translational (position motion center : Vec2 α) :
    MotionModel.translational.movePoint position motion center =
      if motion.isZero then position else position + motion := by
  split
  next still => exact MotionModel.translational.movePoint_of_isZero still position center
  next moves =>
    apply movePoint_eq_of_get?
    rw [move, PixelTranslation.move, if_neg moves, Grid.translated, Grid.get?_map]
    rfl

/-- The moved corners of a block, as fixed-point numbers, are words of 32 bits. -/
structure MovedBlock.TargetsFit (moved : MovedBlock) : Prop where
  columns {col : Nat} : col < moved.block.width / 4 →
    -2 ^ 31 ≤ ((moved.block.x + 4 * col) * 2 ^ (moved.precision + (moved.component.shifts moved.chroma).1) : Int) +
        moved.vector.horizontal.toInt ∧
      ((moved.block.x + 4 * col) * 2 ^ (moved.precision + (moved.component.shifts moved.chroma).1) : Int) +
        moved.vector.horizontal.toInt < 2 ^ 31
  rows {row : Nat} : row < moved.block.height / 4 →
    -2 ^ 31 ≤ ((moved.block.y + 4 * row) * 2 ^ (moved.precision + (moved.component.shifts moved.chroma).2) : Int) +
        moved.vector.vertical.toInt ∧
      ((moved.block.y + 4 * row) * 2 ^ (moved.precision + (moved.component.shifts moved.chroma).2) : Int) +
        moved.vector.vertical.toInt < 2 ^ 31

variable [RealValued α]

/-- One axis of a sub-block that is translated: every scalar on the way from the lattice of samples to the
fixed-point word is just what it ought to be. `target` is where the sample of the sub-block comes to lie,
which is `halves` halves away from the corner. -/
structure TranslatesExactly (offset target : α) (halves corner : Nat) (component : Int32) (precision shift : Nat) :
    Prop where
  offsets : Counts offset 1 halves
  /-- The sample as one of those of the whole picture. -/
  ofPicture {k : Nat} : corner = 4 * k → Counts (ofInt k * 4 : α) 0 corner ∧
    Counts (offset + ofInt k * 4 : α) 1 (2 * corner + halves : Nat)
  /-- The sample as one of those of a block, which is stretched to luma samples. -/
  ofBlock {k i : Nat} : corner = 4 * (k + i) → Counts (ofInt k * 4 : α) 0 (4 * k : Nat) ∧
    Counts (ofInt k * 4 + offset : α) 1 (8 * k + halves : Nat) ∧
    Counts ((ofInt k * 4 + offset) * ofInt (2 ^ shift : Nat) : α) 1 ((8 * k + halves) * 2 ^ shift : Nat) ∧
    Counts (4 * ofInt (2 ^ shift : Nat) : α) 0 (4 * 2 ^ shift : Nat) ∧
    Counts (ofInt i * (4 * ofInt (2 ^ shift : Nat)) : α) 0 (i * (4 * 2 ^ shift) : Nat)
  starts : Counts ((ofInt corner + offset) * ofInt (2 ^ shift : Nat)) 1 ((2 * corner + halves) * 2 ^ shift : Nat)
  /-- The whole part of the motion and its fraction. -/
  parts : Counts (ofInt (component.toInt / FixedPoint.scale precision) : α) 0 (component.toInt / 2 ^ precision) ∧
    Counts (ofInt (component.toInt % FixedPoint.scale precision) / ofInt (FixedPoint.scale precision) : α) precision
      (component.toInt % 2 ^ precision)
  moves : Counts (FixedPoint.toScalar component precision : α) precision component.toInt
  targets : Counts target (precision + 1)
    (((2 * corner + halves) * 2 ^ (precision + shift) : Nat) + 2 * component.toInt)
  reaches : Counts (target / ofInt (2 ^ shift : Nat)) (precision + 1 + shift)
    (((2 * corner + halves) * 2 ^ (precision + shift) : Nat) + 2 * component.toInt)
  places : Counts (target / ofInt (2 ^ shift : Nat) - offset) (precision + shift)
    ((corner * 2 ^ (precision + shift) : Nat) + component.toInt)
  scales : Counts ((target / ofInt (2 ^ shift : Nat) - offset) * ofInt (2 ^ (precision + shift) : Nat)) 0
    ((corner * 2 ^ (precision + shift) : Nat) + component.toInt)

section Axis

variable {offset target : α} {halves corner : Nat} {component : Int32} {precision shift : Nat}

theorem counts_start (isOffset : Counts offset 1 halves) (few : (2 * corner + halves) * 2 ^ shift ≤ 2 ^ 52)
    (bounded : shift ≤ 1) :
    Counts ((ofInt corner + offset) * ofInt (2 ^ shift : Nat)) 1 ((2 * corner + halves) * 2 ^ shift : Nat) := by
  have atLeast := Nat.le_mul_of_pos_right (2 * corner + halves) (Nat.two_pow_pos shift)
  have doubled : (corner * 2 ^ 1 + halves : ℤ) = (2 * corner + halves : Nat) := by push_cast; ring
  have whole : Counts (ofInt corner : α) 0 corner := .ofInt (by rw [abs_le]; omega)
  have sum := (whole.refine 1 (by rw [abs_le]; omega) (by norm_num)).add isOffset (by rw [abs_le]; omega)
  rw [zero_add, doubled] at sum
  have product := sum.mul_ofInt (.two_pow (k := shift) (by omega)) (by
    rw [show (2 : ℤ) ^ shift = (2 ^ shift : Nat) by push_cast; rfl, ← Nat.cast_mul, Nat.abs_cast]
    exact_mod_cast few.trans (by norm_num))
  push_cast at product ⊢
  exact product

/-- The samples of the lattices. -/
theorem counts_lattice (isOffset : Counts offset 1 halves) (small : halves ≤ 6) (bounded : shift ≤ 1) {k i : Nat}
    (few : k + i < 2 ^ 31) : Counts (ofInt k * 4 : α) 0 (4 * k : Nat) ∧
    Counts (offset + ofInt k * 4 : α) 1 (8 * k + halves : Nat) ∧
    Counts (ofInt k * 4 + offset : α) 1 (8 * k + halves : Nat) ∧
    Counts ((ofInt k * 4 + offset) * ofInt (2 ^ shift : Nat) : α) 1 ((8 * k + halves) * 2 ^ shift : Nat) ∧
    Counts (4 * ofInt (2 ^ shift : Nat) : α) 0 (4 * 2 ^ shift : Nat) ∧
    Counts (ofInt i * (4 * ofInt (2 ^ shift : Nat)) : α) 0 (i * (4 * 2 ^ shift) : Nat) := by
  have four : Counts (4 : α) 0 (4 : ℤ) := .ofInt (by norm_num)
  have scale : Counts (ofInt (2 ^ shift : Nat) : α) 0 (2 ^ shift : ℤ) := .two_pow (by omega)
  have shift_cases : shift = 0 ∨ shift = 1 := by omega
  have first : Counts (ofInt k * 4 : α) 0 (k * 4 : ℤ) :=
    (Counts.ofInt (n := k) (by rw [abs_le]; omega)).mul_ofInt four (by rw [abs_le]; omega)
  have halved := first.refine 1 (by rw [abs_le]; omega) (by norm_num)
  have sample : Counts (ofInt k * 4 + offset : α) 1 (8 * k + halves : Nat) :=
    (halved.add isOffset (by rw [abs_le]; omega)).of_eq (by omega) (by push_cast; ring)
  have sample' : Counts (offset + ofInt k * 4 : α) 1 (8 * k + halves : Nat) :=
    (isOffset.add halved (by rw [abs_le]; omega)).of_eq rfl (by push_cast; ring)
  have step : Counts (4 * ofInt (2 ^ shift : Nat) : α) 0 (4 * 2 ^ shift : Nat) := by
    refine (four.mul_ofInt scale ?_).of_eq rfl (by push_cast; ring)
    rcases shift_cases with rfl | rfl <;> norm_num
  refine ⟨first.of_eq rfl (by push_cast; ring), sample', sample, ?_, step, ?_⟩
  · refine (sample.mul_ofInt scale ?_).of_eq rfl (by push_cast; ring)
    rcases shift_cases with rfl | rfl <;> rw [abs_le] <;> omega
  · refine ((Counts.ofInt (n := i) (by rw [abs_le]; omega)).mul_ofInt step ?_).of_eq rfl (by push_cast; ring)
    rcases shift_cases with rfl | rfl <;> rw [abs_le] <;> omega

/-- Whatever fits words is exact, and much finer numbers would be. -/
theorem TranslatesExactly.of_fits (isOffset : Counts offset 1 halves) (small : halves ≤ 6) (bounded : shift ≤ 1)
    (fine : precision + shift < 32) (fits : corner * 2 ^ (precision + shift) < 2 ^ 31)
    (moved : target = (ofInt corner + offset) * ofInt (2 ^ shift : Nat) + FixedPoint.toScalar component precision ∨
      target = (ofInt corner + offset) * ofInt (2 ^ shift : Nat) ∧ component = 0) :
    TranslatesExactly offset target halves corner component precision shift := by
  have lower := component.le_toInt
  have upper := component.toInt_lt
  have power : 2 ^ (precision + shift) < 2 ^ 32 := Nat.pow_lt_pow_right (by decide) fine
  have smaller : corner ≤ corner * 2 ^ (precision + shift) := Nat.le_mul_of_pos_right _ (Nat.two_pow_pos _)
  have factor : 2 ^ shift ≤ 2 ^ 1 := Nat.pow_le_pow_right (by decide) bounded
  have scaledOffset : halves * 2 ^ (precision + shift) ≤ 6 * 2 ^ 32 := Nat.mul_le_mul small power.le
  have total : (2 * corner + halves) * 2 ^ (precision + shift) =
      2 * (corner * 2 ^ (precision + shift)) + halves * 2 ^ (precision + shift) := by ring
  have few : (2 * corner + halves) * 2 ^ shift ≤ 2 ^ 52 :=
    (Nat.mul_le_mul_left _ factor).trans (by omega)
  have start := counts_start isOffset few bounded
  have motion : Counts (FixedPoint.toScalar component precision : α) precision component.toInt :=
    FixedPoint.counts_toScalar component (by omega)
  have reached : Counts target (precision + 1)
      (((2 * corner + halves) * 2 ^ (precision + shift) : Nat) + 2 * component.toInt) := by
    have stretched : (2 * corner + halves) * 2 ^ shift * 2 ^ precision =
        (2 * corner + halves) * 2 ^ (precision + shift) := by ring
    have sample := (start.refine_natCast precision (by omega) (by omega)).of_eq (k := precision + 1) (by omega)
      (congrArg Nat.cast stretched)
    have step := (motion.refine 1 (by rw [abs_le]; omega) (by omega)).of_eq (n := 2 * component.toInt) rfl (by ring)
    rcases moved with rfl | ⟨rfl, rfl⟩
    · exact sample.add step (by rw [abs_le]; omega)
    · exact sample.of_eq rfl (by simp)
  have quotient := reached.div_two_pow (.two_pow (k := shift) (by omega)) (by omega)
  have offset' := (isOffset.refine_natCast (precision + shift) (by omega) (by omega)).of_eq
    (k := precision + 1 + shift) (by omega) rfl
  have place := ((quotient.sub offset' (by rw [abs_le]; omega)).of_eq (k := precision + shift + 1)
    (n := ((corner * 2 ^ (precision + shift) : Nat) + component.toInt) * 2 ^ 1) (by omega)
    (by rw [total]; push_cast; ring)).coarsen
  have scaled := (place.of_eq (k := 0 + (precision + shift)) (by omega) rfl).mul_two_pow (.two_pow (by omega))
  refine ⟨isOffset, fun {k} aligned => ?_, fun {k i} aligned => ?_, start,
    FixedPoint.counts_parts component (by omega), motion, reached, quotient, place, scaled⟩
  · obtain ⟨first, sample, -⟩ := counts_lattice isOffset small bounded (k := k) (i := 0) (by omega)
    exact ⟨first.of_eq rfl (by omega), sample.of_eq rfl (by omega)⟩
  · obtain ⟨first, -, rest⟩ := counts_lattice isOffset small bounded (k := k) (i := i) (by omega)
    exact ⟨first, rest⟩

/-- The corner that is shifted to the place of the target is shifted by the motion. -/
theorem TranslatesExactly.shifts (exact : TranslatesExactly offset target halves corner component precision shift)
    (fine : precision + shift < 32)
    (lower : -2 ^ 31 ≤ (corner * 2 ^ (precision + shift) : Int) + component.toInt)
    (upper : (corner * 2 ^ (precision + shift) : Int) + component.toInt < 2 ^ 31) :
    FixedPoint.ofScalar (target / ofInt (2 ^ shift : Nat) - offset) (precision + shift) -
      Int32.ofNat corner <<< Int32.ofNat (precision + shift) = component := by
  have whole := exact.scales.nearest
  have word : FixedPoint.ofScalar (target / ofInt (2 ^ shift : Nat) - offset) (precision + shift) =
      Int32.ofInt (corner * 2 ^ (precision + shift) + component.toInt) := by
    rw [FixedPoint.ofScalar, FixedPoint.round, FixedPoint.scale_eq (by omega), whole, Nat.cast_mul, Nat.cast_pow,
      Nat.cast_ofNat, Nearest.toInt32_whole lower upper]
  rw [word, FixedPoint.ofNat_shiftLeft corner fine, Nat.cast_mul, Nat.cast_pow, Nat.cast_ofNat, Int32.ofInt_add,
    Int32.ofInt_toInt, Int32.add_comm, Int32.add_sub_cancel]

end Axis

/-- A word that reads as zero is zero. -/
theorem FixedPoint.eq_zero_of_toScalar [LawfulOrder α] {word : Int32} {precision : Nat} (small : precision ≤ 52)
    (still : (toScalar word precision == (0 : α)) = true) : word = 0 := by
  have zero : Counts (0 : α) 0 (0 : Nat) := .ofInt (by norm_num)
  have same := (LawfulOrder.beq_iff (counts_toScalar word (by omega)).value zero.value).mp still
  have vanishes : (word.toInt : ℝ) = 0 := by
    rw [Int.cast_natCast, Nat.cast_zero, zero_div] at same
    exact (div_eq_zero_iff.mp same).resolve_right (by positivity)
  exact Int32.toInt_inj.mp (by exact_mod_cast vanishes)

/-- A block whose sub-blocks are all moved by its vector, the way there being exact: for each axis of each
sub-block, and for the center of the block, whatever is computed is a whole number of units. -/
structure SubblockCorners.FollowVector (corners : SubblockCorners) (moved : MovedBlock) (offset : α)
    (halves : Nat) :
    Prop where
  displacement {row col : Nat} : row < moved.block.height / 4 → col < moved.block.width / 4 →
    corners.displacement? row col moved.block.x moved.block.y = some moved.vector
  columns {row col : Nat} : row < moved.block.height / 4 → col < moved.block.width / 4 →
    TranslatesExactly offset (moved.target .translational offset row col).x halves (moved.block.x + 4 * col)
      moved.vector.horizontal moved.precision (moved.component.shifts moved.chroma).1
  rows {row col : Nat} : row < moved.block.height / 4 → col < moved.block.width / 4 →
    TranslatesExactly offset (moved.target .translational offset row col).y halves (moved.block.y + 4 * row)
      moved.vector.vertical moved.precision (moved.component.shifts moved.chroma).2
  center : let center : Vec2 α := (moved.block.located moved.component moved.chroma).center
    Counts center.x 0 ((moved.block.x + moved.block.width / 2) <<< (moved.component.shifts moved.chroma).1 : Nat) ∧
      Counts center.y 0 ((moved.block.y + moved.block.height / 2) <<< (moved.component.shifts moved.chroma).2 : Nat)

/-- The target of a sub-block is its sample and the motion, or the sample itself if there is no motion. -/
theorem MovedBlock.target_translational [LawfulOrder α] {moved : MovedBlock} (small : moved.precision ≤ 52)
    (offset : α) (row col : Nat) :
    let start := moved.start offset row col
    let target := moved.target .translational offset row col
    (target.x = start.x + FixedPoint.toScalar moved.vector.horizontal moved.precision ∨
        target.x = start.x ∧ moved.vector.horizontal = 0) ∧
      (target.y = start.y + FixedPoint.toScalar moved.vector.vertical moved.precision ∨
        target.y = start.y ∧ moved.vector.vertical = 0) := by
  intro start target
  have follows : target = if (moved.vector.toVec2 moved.precision : Vec2 α).isZero then start
      else start + moved.vector.toVec2 moved.precision := MotionModel.movePoint_translational _ _ _
  by_cases still : (moved.vector.toVec2 moved.precision : Vec2 α).isZero = true
  · rw [if_pos still] at follows
    obtain ⟨stillX, stillY⟩ := Bool.and_eq_true_iff.mp still
    exact ⟨.inr ⟨congrArg Vec2.x follows, FixedPoint.eq_zero_of_toScalar small stillX⟩,
      .inr ⟨congrArg Vec2.y follows, FixedPoint.eq_zero_of_toScalar small stillY⟩⟩
  · rw [if_neg still] at follows
    exact ⟨.inl (congrArg Vec2.x follows), .inl (congrArg Vec2.y follows)⟩

/-- The center of a block whose corners fit. -/
theorem MovedBlock.CornersFit.counts_center {moved : MovedBlock} (fit : moved.CornersFit) {width height : Nat}
    (accepted : moved.block.Accepted moved.component moved.chroma width height) :
    let center : Vec2 α := (moved.block.located moved.component moved.chroma).center
    Counts center.x 0 ((moved.block.x + moved.block.width / 2) <<< (moved.component.shifts moved.chroma).1 : Nat) ∧
      Counts center.y 0
        ((moved.block.y + moved.block.height / 2) <<< (moved.component.shifts moved.chroma).2 : Nat) := by
  obtain ⟨-, -, wholeX, wholeY⟩ := accepted.aligned
  obtain ⟨someX, someY⟩ := accepted.nonempty
  have each {shift first size : Nat} (bounded : shift ≤ 1) (whole : size % 4 = 0) (nonempty : 0 < size)
      (last : (first + 4 * (size / 4 - 1)) * 2 ^ (moved.precision + shift) < 2 ^ 31) :
      Counts (ofInt ((first + size / 2) <<< shift : Nat) : α) 0 ((first + size / 2) <<< shift : Nat) := by
    have atLeast := Nat.le_mul_of_pos_right (first + 4 * (size / 4 - 1)) (Nat.two_pow_pos (moved.precision + shift))
    refine .ofInt ?_
    rw [Nat.shiftLeft_eq, Nat.abs_cast]
    interval_cases shift <;> omega
  obtain ⟨boundedX, boundedY⟩ := moved.component.shifts_le moved.chroma
  exact ⟨each boundedX wholeX someX (fit.columns (by omega)), each boundedY wholeY someY (fit.rows (by omega))⟩

theorem SubblockPicture.exists_followVector [LawfulHalves α] [LawfulOrder α] {p : SubblockPicture α} {halves : Nat}
    (regular : p.OnLattice halves) {moved : MovedBlock}
    (accepted : moved.block.Accepted moved.component moved.chroma p.width p.height) (fit : moved.CornersFit)
    (reach : moved.TargetsFit) :
    ∃ corners, p.moveBlock .translational moved (moved.block.located moved.component moved.chroma) = .ok corners ∧
      corners.FollowVector moved p.offset halves := by
  obtain ⟨corners, isCorners, ⟨precisionX, precisionY⟩, cells⟩ := exists_corners regular accepted fit .translational
  obtain ⟨boundedX, boundedY⟩ := moved.component.shifts_le moved.chroma
  obtain ⟨fineX, fineY⟩ := fit.precisions
  have isOffset : Counts p.offset 1 halves := by
    rw [regular.offset]
    exact .half (regular.offset_le.trans (by norm_num))
  have targets (row col : Nat) := moved.target_translational (by omega) p.offset row col
  have columns {row col : Nat} (inRow : row < moved.block.height / 4) (inCol : col < moved.block.width / 4) :
      TranslatesExactly p.offset (moved.target .translational p.offset row col).x halves (moved.block.x + 4 * col)
        moved.vector.horizontal moved.precision (moved.component.shifts moved.chroma).1 :=
    .of_fits isOffset regular.offset_le boundedX fineX (fit.columns inCol) (targets row col).1
  have rows {row col : Nat} (inRow : row < moved.block.height / 4) (inCol : col < moved.block.width / 4) :
      TranslatesExactly p.offset (moved.target .translational p.offset row col).y halves (moved.block.y + 4 * row)
        moved.vector.vertical moved.precision (moved.component.shifts moved.chroma).2 :=
    .of_fits isOffset regular.offset_le boundedY fineY (fit.rows inRow) (targets row col).2
  refine ⟨corners, isCorners, ⟨fun {row col} inRow inCol => ?_, columns, rows, fit.counts_center accepted⟩⟩
  have definedX := (columns inRow inCol).targets.isUndefined
  have definedY := (rows inRow inCol).targets.isUndefined
  have shiftsX := (columns inRow inCol).shifts fineX (by exact_mod_cast (reach.columns inCol).1)
    (by exact_mod_cast (reach.columns inCol).2)
  have shiftsY := (rows inRow inCol).shifts fineY (by exact_mod_cast (reach.rows inRow).1)
    (by exact_mod_cast (reach.rows inRow).2)
  rw [SubblockCorners.displacement?, cells inRow inCol, precisionX, precisionY, Option.map_some, corner, place,
    definedX, definedY]
  simp only [Bool.or_false, Bool.false_eq_true, if_false, Nat.one_shiftLeft]
  exact congrArg some (congrArg₂ MotionVector.mk shiftsX shiftsY)

/-- Whatever was asked of an engine before, plain translation moves all sub-blocks of an acceptable block by the
vector itself. -/
theorem displacement_eq_vector_of_answers [LawfulSame α] [LawfulHalves α] [LawfulOrder α]
    {width height offsetIndex : Nat} {moved : MovedBlock} {answer : Except EngineError SubblockCorners}
    (answers : Answers (α := α) width height offsetIndex moved .translational answer)
    (accepted : moved.block.Accepted moved.component moved.chroma width height) (fit : moved.CornersFit)
    (reach : moved.TargetsFit) :
    ∃ offset halves corners, Config.offset offsetIndex = .ok offset ∧ answer = .ok corners ∧
      corners.FollowVector (α := α) moved offset halves := by
  obtain ⟨picture, made, rfl⟩ := answers.exists_picture accepted
  obtain ⟨rfl, rfl, halves, regular⟩ := SubblockPicture.onLattice_of_made made
  obtain ⟨corners, isCorners, follows⟩ := SubblockPicture.exists_followVector regular accepted fit reach
  exact ⟨picture.offset, halves, corners, SubblockPicture.offset_of_made made, isCorners, follows⟩

/-- A chroma block moved to the left of and below its place, in both engines. -/
theorem displacement_eq_vector_of_answers_of_chroma :
    let projection : Projection Double :=
      .panorama ⟨.ofBits 0x4030000000000000, .ofBits 0x4020000000000000, .ofBits 0⟩
    let config : Config := { active := .everything, offsetIndex := 4 }
    let moved : MovedBlock := ⟨⟨4, 0, 4, 4⟩, ⟨-7, 3⟩, 2, .cb, .yuv420⟩
    let requests : List (Request Double) :=
      [.reproject moved .planeTopBottom .global, .reproject moved .classic .global]
    let calls : List (MovedBlock × Viewport) := [(moved, .plane .leftRight)]
    moved.block.Accepted moved.component moved.chroma 16 8 ∧ moved.CornersFit ∧ moved.TargetsFit ∧
    ∃ e v, Engine.build projection 16 8 config .initial = .ok e ∧ ViewportEngine.build projection 16 8 4 = .ok v ∧
      (∃ offset halves corners, Config.offset 4 = .ok offset ∧
        ((e.serveAll requests).reproject moved .classic .global).map Prod.fst = .ok corners ∧
        corners.FollowVector (α := Double) moved offset halves) ∧
      ∃ offset halves corners, Config.offset 4 = .ok offset ∧
        ((calls.foldl .after v).reproject moved .classic).map Prod.fst = .ok corners ∧
        corners.FollowVector (α := Double) moved offset halves := by
  intro projection config moved requests calls
  have built : ∃ e, Engine.build projection 16 8 config .initial = .ok e := ⟨_, rfl⟩
  have builtViewports : ∃ v, ViewportEngine.build projection 16 8 4 = .ok v := ⟨_, rfl⟩
  obtain ⟨e, built⟩ := built
  obtain ⟨v, builtViewports⟩ := builtViewports
  have accepted : moved.block.Accepted moved.component moved.chroma 16 8 :=
    ⟨.inr rfl, by decide, by decide, by decide⟩
  have fit : moved.CornersFit := ⟨by decide, by decide, by decide⟩
  have reach : moved.TargetsFit := ⟨by decide, by decide⟩
  have active : config.active.contains .classic = true := rfl
  exact ⟨accepted, fit, reach, e, v, built, builtViewports,
    displacement_eq_vector_of_answers (.models built rfl requests active rfl) accepted fit reach,
    displacement_eq_vector_of_answers (.viewports builtViewports calls .classic) accepted fit reach⟩

end SphereMotion
