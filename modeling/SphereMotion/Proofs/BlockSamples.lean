import Mathlib
import SphereMotion.Proofs.Halves
import SphereMotion.Proofs.Memoryless
import SphereMotion.Proofs.Pointwise

namespace SphereMotion

open Scalar

variable {α : Type} [Scalar α]

/-- The powers of two by which a component has fewer columns and rows than luma. -/
def Component.shifts (component : Component) (chroma : ChromaFormat) : Nat × Nat :=
  if component.isLuma then (0, 0) else (chroma.shiftX, chroma.shiftY)

theorem Component.shifts_le (component : Component) (chroma : ChromaFormat) :
    (component.shifts chroma).1 ≤ 1 ∧ (component.shifts chroma).2 ≤ 1 := by
  cases component <;> cases chroma <;> decide

/-- What makes a block acceptable: its component exists, it consists of whole sub-blocks and it lies within the
picture of its component. -/
structure Block.Accepted (block : Block) (component : Component) (chroma : ChromaFormat) (width height : Nat) :
    Prop where
  sampled : component.isLuma = true ∨ chroma.hasChroma = true
  aligned : block.x % 4 = 0 ∧ block.y % 4 = 0 ∧ block.width % 4 = 0 ∧ block.height % 4 = 0
  nonempty : 0 < block.width ∧ 0 < block.height
  inside : block.x + block.width ≤ width >>> (component.shifts chroma).1 ∧
    block.y + block.height ≤ height >>> (component.shifts chroma).2

/-- An acceptable block in the sub-block grid of its component. -/
def Block.located (block : Block) (component : Component) (chroma : ChromaFormat) : LocatedBlock α where
  window := ⟨block.y / 4, block.x / 4, block.height / 4, block.width / 4⟩
  isLuma := component.isLuma
  shiftX := (component.shifts chroma).1
  shiftY := (component.shifts chroma).2
  center := ⟨ofInt ((block.x + block.width / 2) <<< (component.shifts chroma).1 : Nat),
    ofInt ((block.y + block.height / 2) <<< (component.shifts chroma).2 : Nat)⟩

namespace SubblockPicture

/-- The checks on a block, in their order. -/
theorem locate_eq (p : SubblockPicture α) (block : Block) (component : Component) (chroma : ChromaFormat) :
    p.locate block component chroma =
      if component.isLuma = false ∧ chroma.hasChroma = false then .error (.noChroma component)
      else if block.x % 4 ≠ 0 ∨ block.y % 4 ≠ 0 ∨ block.width % 4 ≠ 0 ∨ block.height % 4 ≠ 0 ∨
          block.width = 0 ∨ block.height = 0 then .error (.misaligned block)
      else if p.width >>> (component.shifts chroma).1 < block.x + block.width ∨
          p.height >>> (component.shifts chroma).2 < block.y + block.height then
        .error (.outsidePicture block (p.width >>> (component.shifts chroma).1)
          (p.height >>> (component.shifts chroma).2))
      else .ok (block.located component chroma) := by
  unfold locate Block.located Component.shifts
  cases luma : component.isLuma with
  | true =>
    simp only [bind, Except.bind, if_true, false_and, if_false, reduceCtorEq]
    split
    · rfl
    · split <;> rfl
  | false =>
    cases has : chroma.hasChroma with
    | true =>
      simp only [bind, Except.bind, if_true, and_false, if_false, reduceCtorEq, Bool.false_eq_true]
      split
      · rfl
      · split <;> rfl
    | false => rfl

theorem locate_of_accepted {p : SubblockPicture α} {block : Block} {component : Component} {chroma : ChromaFormat}
    (accepted : block.Accepted component chroma p.width p.height) :
    p.locate block component chroma = .ok (block.located component chroma) := by
  obtain ⟨sampled, ⟨alignedX, alignedY, alignedWidth, alignedHeight⟩, nonempty, inside⟩ := accepted
  rw [locate_eq, if_neg, if_neg (by omega), if_neg (by omega)]
  rintro ⟨notLuma, noChroma⟩
  rcases sampled with luma | hasChroma
  · rw [luma] at notLuma
    cases notLuma
  · rw [hasChroma] at noChroma
    cases noChroma

theorem accepted_of_locate {p : SubblockPicture α} {block : Block} {component : Component} {chroma : ChromaFormat}
    {found : LocatedBlock α} (located : p.locate block component chroma = .ok found) :
    block.Accepted component chroma p.width p.height ∧ found = block.located component chroma := by
  rw [locate_eq] at located
  split at located
  · cases located
  next sampled =>
    split at located
    · cases located
    next whole =>
      split at located
      · cases located
      next within =>
        cases located
        have exists' : component.isLuma = true ∨ chroma.hasChroma = true := by
          rwa [not_and_or, Bool.not_eq_false, Bool.not_eq_false] at sampled
        exact ⟨⟨exists', by omega, by omega, by omega⟩, rfl⟩

/-- A picture whose motion samples lie `halves` halves to the right of and below the corners of its
sub-blocks. -/
structure OnLattice (p : SubblockPicture α) (halves : Nat) : Prop where
  offset : p.offset = half halves
  offset_le : halves ≤ 6
  grid : p.grid = .lattice (p.height / 4) (p.width / 4) ⟨p.offset, p.offset⟩ ⟨4, 4⟩

theorem OnLattice.forget {p : SubblockPicture α} {halves : Nat} (regular : p.OnLattice halves) :
    p.forget.OnLattice halves :=
  ⟨regular.offset, regular.offset_le, regular.grid⟩

/-- Pictures with the same samples lie on the same lattice, whatever block they have kept. -/
theorem OnLattice.of_forget {p q : SubblockPicture α} {halves : Nat} (regular : p.OnLattice halves)
    (kept : q.forget = p.forget) : q.OnLattice halves := by
  have forgotten : q.forget.OnLattice halves := kept ▸ regular.forget
  exact ⟨forgotten.offset, forgotten.offset_le, forgotten.grid⟩

theorem onLattice_of_made [LawfulHalves α] {width height offsetIndex : Nat} {p : SubblockPicture α}
    (made : ofOffsetIndex width height offsetIndex = .ok p) :
    p.width = width ∧ p.height = height ∧ ∃ halves, p.OnLattice halves := by
  unfold ofOffsetIndex at made
  cases accepted : (Config.offset offsetIndex : Except ConfigError α) with
  | error cause => rw [accepted] at made; cases made
  | ok offset =>
    obtain ⟨halves, small, rfl⟩ := Config.exists_half accepted
    rw [accepted] at made
    simp only [bind, Except.bind, build] at made
    split at made
    · cases made
    · cases made
      exact ⟨rfl, rfl, halves, rfl, small, rfl⟩

end SubblockPicture

theorem Grid.mapIdx_eq_map {β γ : Type} {g : Grid β} {f : Nat → β → γ} {h : β → γ}
    (alike : ∀ i entry, g.get? i = some entry → f i entry = h entry) : g.mapIdx f = g.map h := by
  refine Grid.ext rfl rfl (Array.ext_getElem? fun i => ?_)
  rw [mapIdx, map, Array.getElem?_mapIdx, Array.getElem?_map]
  cases atIndex : g.entries[i]? with
  | none => rfl
  | some entry => exact congrArg some (alike i entry atIndex)

/-- Grids of one shape are equal if they are in the cells inside. -/
theorem Grid.ext_of_cells {β : Type} {g h : Grid β} {rows cols : Nat} (shape : g.rows = rows ∧ g.cols = cols)
    (shape' : h.rows = rows ∧ h.cols = cols)
    (alike : ∀ row col, row < rows → col < cols → g.cell? row col = h.cell? row col) : g = h := by
  obtain ⟨rfl, rfl⟩ := shape
  refine ext_cell shape'.1.symm shape'.2.symm fun row col => ?_
  by_cases inside : row < g.rows ∧ col < g.cols
  · exact alike row col inside.1 inside.2
  · rw [cell?, cell?, dif_neg inside, dif_neg (by rwa [shape'.1, shape'.2])]

/-- The motion sample of a sub-block, in luma samples: an offset away from the corner of the sub-block. -/
def Block.sample (block : Block) (component : Component) (chroma : ChromaFormat) (offset : α) (row col : Nat) :
    Vec2 α :=
  ⟨(ofInt (block.x + 4 * col : Nat) + offset) * ofInt (2 ^ (component.shifts chroma).1 : Nat),
    (ofInt (block.y + 4 * row : Nat) + offset) * ofInt (2 ^ (component.shifts chroma).2 : Nat)⟩

theorem Grid.cell?_lattice {rows cols row col : Nat} (start step : Vec2 α) (inRow : row < rows)
    (inCol : col < cols) :
    (lattice rows cols start step).cell? row col =
      some ⟨start.x + ofInt col * step.x, start.y + ofInt row * step.y⟩ := by
  have inside : row < (lattice rows cols start step).rows ∧ col < (lattice rows cols start step).cols :=
    ⟨inRow, inCol⟩
  rw [cell?, dif_pos inside]
  exact congrArg some (cell_build _ ⟨row, inRow⟩ ⟨col, inCol⟩)

/-- The sub-blocks of an acceptable block lie within the picture, and so their samples do not leave it by more than
their offset. -/
theorem Block.Accepted.sample_lt {block : Block} {component : Component} {chroma : ChromaFormat}
    {width height halves row col : Nat} (accepted : block.Accepted component chroma width height)
    (narrow : width ≤ 2 ^ 52) (low : height ≤ 2 ^ 52) (small : halves ≤ 6) (inRow : row < block.height / 4)
    (inCol : col < block.width / 4) :
    (2 * (block.x + 4 * col) + halves) * 2 ^ (component.shifts chroma).1 < 2 ^ 53 ∧
      (2 * (block.y + 4 * row) + halves) * 2 ^ (component.shifts chroma).2 < 2 ^ 53 := by
  have each {shift first last count size : Nat} (bounded : shift ≤ 1) (inside : first + last ≤ size >>> shift)
      (before : count < last / 4) (bound : size ≤ 2 ^ 52) :
      (2 * (first + 4 * count) + halves) * 2 ^ shift < 2 ^ 53 := by
    rw [Nat.shiftRight_eq_div_pow] at inside
    interval_cases shift <;> omega
  obtain ⟨boundedX, boundedY⟩ := component.shifts_le chroma
  exact ⟨each boundedX accepted.inside.1 inCol narrow, each boundedY accepted.inside.2 inRow low⟩

/-- The motion sample in halves. -/
theorem Block.sample_eq [LawfulHalves α] {block : Block} (component : Component) (chroma : ChromaFormat)
    {halves row col : Nat}
    (smallX : (2 * (block.x + 4 * col) + halves) * 2 ^ (component.shifts chroma).1 < 2 ^ 53)
    (smallY : (2 * (block.y + 4 * row) + halves) * 2 ^ (component.shifts chroma).2 < 2 ^ 53) :
    block.sample component chroma (half halves : α) row col =
      ⟨half ((2 * (block.x + 4 * col) + halves) * 2 ^ (component.shifts chroma).1),
        half ((2 * (block.y + 4 * row) + halves) * 2 ^ (component.shifts chroma).2)⟩ := by
  obtain ⟨boundedX, boundedY⟩ := component.shifts_le chroma
  rw [sample, LawfulHalves.add_half_mul boundedX smallX, LawfulHalves.add_half_mul boundedY smallY]

namespace SubblockPicture

/-- The samples of a luma block are cut out of those of the picture. -/
theorem exists_samples_of_luma {p : SubblockPicture α}
    (lattice : p.grid = .lattice (p.height / 4) (p.width / 4) ⟨p.offset, p.offset⟩ ⟨4, 4⟩) {block : Block}
    {component : Component} {chroma : ChromaFormat} (luma : component.isLuma = true)
    (accepted : block.Accepted component chroma p.width p.height) :
    ∃ samples, p.samples (block.located component chroma) = .ok samples ∧ samples.rows = block.height / 4 ∧
      samples.cols = block.width / 4 ∧ ∀ row col, row < block.height / 4 → col < block.width / 4 →
        samples.cell? row col = p.grid.cell? (block.y / 4 + row) (block.x / 4 + col) := by
  obtain ⟨alignedX, alignedY, -, -⟩ := accepted.aligned
  have shifts : component.shifts chroma = (0, 0) := if_pos luma
  have inside := accepted.inside
  simp only [shifts, Nat.shiftRight_zero] at inside
  have fits : (block.located component chroma : LocatedBlock α).window.Fits p.grid.rows p.grid.cols := by
    rw [lattice]
    constructor <;> simp only [Block.located, Grid.lattice, Grid.build] <;> omega
  have cut : p.samples (block.located component chroma) = .ok (p.grid.window _ fits) := by
    rw [samples, if_pos (by exact luma), Grid.window?_of_fits fits]
  refine ⟨_, cut, rfl, rfl, fun row col inRow inCol => ?_⟩
  rw [Grid.cell?_window]
  exact if_pos ⟨inRow, inCol⟩

/-- The samples of an acceptable block are those of its sub-blocks, whether they are cut out of the picture or
made for the block. -/
theorem exists_samples [LawfulHalves α] {p : SubblockPicture α} {halves : Nat} (regular : p.OnLattice halves)
    {block : Block} {component : Component} {chroma : ChromaFormat}
    (accepted : block.Accepted component chroma p.width p.height) :
    ∃ samples, p.samples (block.located component chroma) = .ok samples ∧ samples.rows = block.height / 4 ∧
      samples.cols = block.width / 4 ∧ ∀ row col, row < block.height / 4 → col < block.width / 4 →
        (2 * (block.x + 4 * col) + halves) * 2 ^ (component.shifts chroma).1 < 2 ^ 53 →
        (2 * (block.y + 4 * row) + halves) * 2 ^ (component.shifts chroma).2 < 2 ^ 53 →
        samples.cell? row col = some (block.sample component chroma p.offset row col) := by
  obtain ⟨boundedX, boundedY⟩ := component.shifts_le chroma
  obtain ⟨alignedX, alignedY, -, -⟩ := accepted.aligned
  cases luma : component.isLuma with
  | true =>
    have shifts : component.shifts chroma = (0, 0) := if_pos luma
    have inside := accepted.inside
    simp only [shifts, Nat.shiftRight_zero] at inside
    obtain ⟨samples, cut, rows, cols, cells⟩ := exists_samples_of_luma regular.grid luma accepted
    refine ⟨samples, cut, rows, cols, fun row col inRow inCol smallX smallY => ?_⟩
    have row' : block.y / 4 + row < p.height / 4 := by omega
    have col' : block.x / 4 + col < p.width / 4 := by omega
    rw [regular.offset, Block.sample_eq component chroma smallX smallY, cells row col inRow inCol, regular.grid]
    simp only [shifts, Nat.pow_zero, Nat.mul_one] at smallX smallY ⊢
    rw [← LawfulHalves.half_add_steps alignedX smallX, ← LawfulHalves.half_add_steps alignedY smallY,
      ← regular.offset]
    exact Grid.cell?_lattice ⟨p.offset, p.offset⟩ ⟨4, 4⟩ row' col'
  | false =>
    refine ⟨_, if_neg (by simp [Block.located, luma]), rfl, rfl, fun row col inRow inCol smallX smallY => ?_⟩
    rw [regular.offset, Block.sample_eq component chroma smallX smallY,
      ← LawfulHalves.stretched_add_steps alignedX boundedX smallX,
      ← LawfulHalves.stretched_add_steps alignedY boundedY smallY, ← regular.offset,
      ← Nat.one_shiftLeft (component.shifts chroma).1, ← Nat.one_shiftLeft (component.shifts chroma).2]
    exact Grid.cell?_lattice _ _ inRow inCol

/-- The corner, in samples of its component, of a sub-block whose motion sample goes from `start` to `target`. A
target that is not defined leaves the sub-block where it is. -/
def place (p : SubblockPicture α) (block : LocatedBlock α) (start target : Vec2 α) : Vec2 α :=
  let reached := if isUndefined target.x || isUndefined target.y then start else target
  ⟨reached.x / ofInt (1 <<< block.shiftX : Nat) - p.offset, reached.y / ofInt (1 <<< block.shiftY : Nat) - p.offset⟩

/-- The corner in fixed point. -/
def corner (p : SubblockPicture α) (block : LocatedBlock α) (precision : Nat) (start target : Vec2 α) :
    Vec2 Int32 :=
  ⟨FixedPoint.ofScalar (p.place block start target).x (precision + block.shiftX),
    FixedPoint.ofScalar (p.place block start target).y (precision + block.shiftY)⟩

/-- Each corner follows from the motion of its own sample. -/
theorem settle_map (p : SubblockPicture α) (block : LocatedBlock α) (precision : Nat) (samples : Grid (Vec2 α))
    (f : Vec2 α → Vec2 α) :
    p.settle block precision samples (samples.map f) =
      ⟨samples.map fun start => p.corner block precision start (f start), precision + block.shiftX,
        precision + block.shiftY⟩ := by
  refine congrArg (SubblockCorners.mk · _ _) (Grid.mapIdx_eq_map fun i start atIndex => ?_)
  have kept : (((samples.map f).get? i).filter fun q => !isUndefined q.x && !isUndefined q.y).getD start =
      if isUndefined (f start).x || isUndefined (f start).y then start else f start := by
    rw [Grid.get?_map, atIndex, Option.map_some, Option.filter]
    cases isUndefined (f start).x <;> cases isUndefined (f start).y <;> rfl
  simp only [kept, corner, place]

theorem moveBlock_eq (p : SubblockPicture α) (model : MotionModel α) (moved : MovedBlock) (block : LocatedBlock α) :
    p.moveBlock model moved block = (p.samples block).map fun samples =>
      ⟨samples.map fun start => p.corner block moved.precision start
          (model.movePoint start (moved.vector.toVec2 moved.precision) block.center),
        moved.precision + block.shiftX, moved.precision + block.shiftY⟩ := by
  unfold moveBlock
  cases p.samples block with
  | error cause => rfl
  | ok samples => 
    simp only [MotionModel.move_eq_map, bind, Except.bind, settle_map]
    rfl

end SubblockPicture

end SphereMotion
