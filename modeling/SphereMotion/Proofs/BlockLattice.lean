import Mathlib
import SphereMotion.Proofs.FixedPoints
import SphereMotion.Proofs.InPlaceCalls

namespace SphereMotion

open Scalar

variable {α : Type} [Scalar α]

namespace SubblockPicture

/-- The picture after the samples of a window were taken out of it, or were refused. -/
def after (p : SubblockPicture α) (window : Window) : SubblockPicture α :=
  match p.lumaBlock window with
  | .ok (_, next) => next
  | .error _ => p.release window

/-- The motion samples that a block is moved by: of luma what the picture keeps or cuts out, of
chroma what is made. -/
def fetched (p : SubblockPicture α) (located : LocatedBlock α) : Except EngineError (Grid (Vec2 α)) :=
  if located.isLuma then (p.lumaBlock located.window).map Prod.fst else .ok (p.chromaBlock located)

omit [Scalar α] in
theorem forget_after (p : SubblockPicture α) (window : Window) : (p.after window).forget = p.forget := by
  unfold after
  split
  next next taken =>
    unfold lumaBlock at taken
    split at taken
    · cases taken
      rfl
    · cases taken
  next => rfl

omit [Scalar α] in
/-- Nothing but the block that is kept changes. -/
theorem forget_run (p : SubblockPicture α) (windows : List Window) : (windows.foldl after p).forget = p.forget := by
  induction windows generalizing p with
  | nil => rfl
  | cons window rest ih => exact (ih (p.after window)).trans (p.forget_after window)

theorem locate_run (p : SubblockPicture α) (windows : List Window) : (windows.foldl after p).locate = p.locate :=
  (congrArg locate (p.forget_run windows) :)

theorem fetched_eq (p : SubblockPicture α) (located : LocatedBlock α) : p.fetched located = p.samples located := by
  unfold fetched samples
  cases luma : located.isLuma with
  | false => rfl
  | true =>
    simp only [if_true]
    cases inside : p.grid.window? located.window with
    | none =>
      rw [lumaBlock_of_outside inside]
      rfl
    | some samples =>
      obtain ⟨next, fetched, -⟩ := lumaBlock_of_inside inside
      rw [fetched]
      rfl

theorem fetched_run (p : SubblockPicture α) (windows : List Window) (located : LocatedBlock α) :
    (windows.foldl after p).fetched located = p.samples located := by
  rw [fetched_eq]
  exact congrFun (congrArg samples (p.forget_run windows) :) located

end SubblockPicture

/-- The footprint of every sub-block of an acceptable block lies in the picture. -/
theorem Block.Accepted.footprint_le {block : Block} {component : Component} {chroma : ChromaFormat}
    {width height row col : Nat} (accepted : block.Accepted component chroma width height)
    (inRow : row < block.height / 4) (inCol : col < block.width / 4) :
    (block.x + 4 * col + 4) * 2 ^ (component.shifts chroma).1 ≤ width ∧
      (block.y + 4 * row + 4) * 2 ^ (component.shifts chroma).2 ≤ height := by
  have each {shift first last count size : Nat} (inside : first + last ≤ size >>> shift)
      (before : count < last / 4) :
      (first + 4 * count + 4) * 2 ^ shift ≤ size := by
    rw [Nat.shiftRight_eq_div_pow, Nat.le_div_iff_mul_le (Nat.two_pow_pos shift)] at inside
    exact (Nat.mul_le_mul_right _ (by omega)).trans inside
  exact ⟨each accepted.inside.1 inCol, each accepted.inside.2 inRow⟩

/-- The sizes of pictures within which every half of a sample is a scalar: any size for exact arithmetic, and
for doubles those of up to `2 ^ 52` samples. -/
def Arithmetic.Resolves : Arithmetic → Nat → Prop
  | exact, _ => True
  | binary64, size => size ≤ 2 ^ 52

theorem Arithmetic.resolves_of_le {a : Arithmetic} {size : Nat} (small : size ≤ 2 ^ 52) : a.Resolves size := by
  cases a with
  | exact => trivial
  | binary64 => exact small

/-- A number of halves that lies within the picture comes out as it is. -/
theorem Arithmetic.Gives.eq_half {a : Arithmetic} {size n : Nat} {v : Extended} (gives : a.Gives (n / 2) v)
    (fine : a.Resolves size) (within : n ≤ 2 * size) : v = .real (n / 2) := by
  cases a with
  | exact =>
    cases gives with
    | real rounds => rw [rounds.eq_of_exact]
    | above inexact | below inexact => cases inexact
  | binary64 =>
    have small : n ≤ 2 ^ 53 := by
      have : size ≤ 2 ^ 52 := fine
      omega
    have small' : (n : ℝ) ≤ 2 ^ 53 := by exact_mod_cast small
    refine gives.eq_real (.of_isFloat (.half small)) ?_
    rw [abs_of_nonneg (by positivity)]
    calc (n : ℝ) / 2 ≤ 2 ^ 53 := by linarith [(Nat.cast_nonneg n : (0 : ℝ) ≤ n)]
      _ < 2 ^ 1023 := pow_lt_pow_right₀ (by norm_num) (by norm_num)

variable [RealValued α]

/-- A scalar that stands for a number of halves. -/
structure Scalar.IsHalves (x : α) (n : Nat) : Prop where
  value : RealValued.value x = .real (n / 2)

namespace Scalar.IsHalves

variable {x y offset : α} {m n halves size k i shift : Nat}

theorem of_gives (fine : (RealValued.arithmetic α).Resolves size) {r : ℝ}
    (gives : (RealValued.arithmetic α).Gives r (RealValued.value x)) (count : r = n / 2) (within : n ≤ 2 * size) :
    IsHalves x n := ⟨(count ▸ gives).eq_half fine within⟩

theorem ofInt (fine : (RealValued.arithmetic α).Resolves size) (within : n ≤ size) :
    IsHalves (Scalar.ofInt n : α) (2 * n) :=
  of_gives fine (RealValued.ofInt n) (by push_cast; ring) (by omega)

theorem add (fine : (RealValued.arithmetic α).Resolves size) (left : IsHalves x m) (right : IsHalves y n)
    (within : m + n ≤ 2 * size) : IsHalves (x + y) (m + n) :=
  of_gives fine (RealValued.add left.value right.value) (by push_cast; ring) within

theorem mul (fine : (RealValued.arithmetic α).Resolves size) (left : IsHalves x m) (right : IsHalves y (2 * n))
    (within : m * n ≤ 2 * size) : IsHalves (x * y) (m * n) :=
  of_gives fine (RealValued.mul left.value right.value) (by push_cast; ring) within

theorem of_offset {offsetIndex : Nat} (offered : Config.offset offsetIndex = .ok offset) :
    ∃ halves ≤ 6, IsHalves offset halves := by
  unfold Config.offset at offered
  split at offered
  next whole =>
    cases offered
    exact ⟨2 * offsetIndex, by omega, ofInt (Arithmetic.resolves_of_le (by norm_num : 3 ≤ 2 ^ 52)) whole⟩
  next =>
    split at offered
    · cases offered
      exact ⟨3, by norm_num, ⟨RealValued.value_half (by norm_num)⟩⟩
    · cases offered

/-- A sample of the lattice of the picture, in the sub-block `k`. -/
theorem luma_sample (fine : (RealValued.arithmetic α).Resolves size) (isOffset : IsHalves offset halves)
    (within : 8 * k + halves ≤ 2 * size) (room : 4 ≤ size) :
    IsHalves (offset + Scalar.ofInt k * 4) (8 * k + halves) := by
  have four : IsHalves (4 : α) (2 * 4) := ofInt fine room
  have steps : IsHalves (Scalar.ofInt k * 4 : α) (2 * k * 4) := mul fine (ofInt fine (by omega)) four (by omega)
  have sample := add fine isOffset steps (by omega)
  rwa [show halves + 2 * k * 4 = 8 * k + halves by ring] at sample

theorem scale (fine : (RealValued.arithmetic α).Resolves size) (within : 2 ^ shift ≤ size) :
    IsHalves (Scalar.ofInt (1 <<< shift : Nat) : α) (2 * 2 ^ shift) := by
  rw [Nat.one_shiftLeft]
  exact ofInt fine within

/-- A sample of the lattice of a block, `i` sub-blocks from the one that the block begins with, the
sub-block `k`. -/
theorem chroma_sample {factor : α} (fine : (RealValued.arithmetic α).Resolves size)
    (isOffset : IsHalves offset halves) (isFactor : IsHalves factor (2 * 2 ^ shift))
    (within : (8 * (k + i) + halves) * 2 ^ shift ≤ 2 * size) (room : 4 * 2 ^ shift ≤ size) :
    IsHalves ((Scalar.ofInt k * 4 + offset) * factor + Scalar.ofInt i * (4 * factor))
      ((8 * (k + i) + halves) * 2 ^ shift) := by
  have positive : 1 ≤ 2 ^ shift := Nat.one_le_two_pow
  have parts : (8 * (k + i) + halves) * 2 ^ shift =
      (2 * k * 4 + halves) * 2 ^ shift + 2 * i * (4 * 2 ^ shift) := by ring
  have start : 2 * k * 4 + halves ≤ (2 * k * 4 + halves) * 2 ^ shift := Nat.le_mul_of_pos_right _ positive
  have steps : 2 * i ≤ 2 * i * (4 * 2 ^ shift) := Nat.le_mul_of_pos_right _ (by omega)
  have four : IsHalves (4 : α) (2 * 4) := ofInt fine (by omega : 4 ≤ size)
  have corner : IsHalves (Scalar.ofInt k * 4 : α) (2 * k * 4) := mul fine (ofInt fine (by omega)) four (by omega)
  have first := mul fine (add fine corner isOffset (by omega)) isFactor (by omega)
  have step : IsHalves (4 * factor) (2 * (4 * 2 ^ shift)) := by
    rw [← Nat.mul_assoc]
    exact mul fine four isFactor (by omega)
  have beyond : IsHalves (Scalar.ofInt i * (4 * factor)) (2 * i * (4 * 2 ^ shift)) :=
    mul fine (ofInt fine (by omega)) step (by omega)
  rw [parts]
  exact add fine first beyond (by omega)

end Scalar.IsHalves

/-- One coordinate, in luma samples, of the motion sample of a sub-block that begins `corner` samples of its
component from the edge of a picture of `size` luma samples: it lies `o` samples of the component further, in
the footprint of its sub-block, and the footprint lies in the picture. -/
structure Scalar.SamplesAt (x : α) (o : ℝ) (corner shift size : Nat) : Prop where
  value : RealValued.value x = .real ((corner + o) * 2 ^ shift)
  footprint : (corner + o) * 2 ^ shift ∈ Set.Ico ((corner : ℝ) * 2 ^ shift) ((corner + 4) * 2 ^ shift)
  picture : (corner + 4) * 2 ^ shift ≤ size

theorem Scalar.SamplesAt.of_isHalves {x : α} {corner halves shift size : Nat}
    (isHalves : IsHalves x ((2 * corner + halves) * 2 ^ shift)) (near : halves ≤ 6)
    (inside : (corner + 4) * 2 ^ shift ≤ size) : SamplesAt x (halves / 2) corner shift size where
  value := by
    rw [isHalves.value]
    push_cast
    congr 1
    ring
  footprint := by
    have scale : (0 : ℝ) < 2 ^ shift := by positivity
    have near' : (halves : ℝ) ≤ 6 := by exact_mod_cast near
    have notNegative : (0 : ℝ) ≤ halves := Nat.cast_nonneg halves
    exact ⟨mul_le_mul_of_nonneg_right (by linarith) scale.le, mul_lt_mul_of_pos_right (by linarith) scale⟩
  picture := inside

section Axis

variable {offset : α} {first last count halves shift size : Nat}

/-- A coordinate of a sample that is cut out of the picture. -/
theorem Scalar.SamplesAt.of_luma (fine : (RealValued.arithmetic α).Resolves size)
    (isOffset : IsHalves offset halves) (near : halves ≤ 6) (aligned : first % 4 = 0)
    (inside : (first + 4 * count + 4) * 2 ^ 0 ≤ size) :
    SamplesAt (offset + ofInt (first / 4 + count : Nat) * 4) (halves / 2) (first + 4 * count) 0 size := by
  refine .of_isHalves ?_ near inside
  have sample := IsHalves.luma_sample (k := first / 4 + count) fine isOffset (by omega) (by omega)
  rwa [show 8 * (first / 4 + count) + halves = (2 * (first + 4 * count) + halves) * 2 ^ 0 by omega] at sample

/-- A coordinate of a sample that is made for its block. -/
theorem Scalar.SamplesAt.of_chroma (fine : (RealValued.arithmetic α).Resolves size)
    (isOffset : IsHalves offset halves) (near : halves ≤ 6) (aligned : first % 4 = 0)
    (inside : (first + 4 * count + 4) * 2 ^ shift ≤ size) :
    let factor : α := ofInt (1 <<< shift : Nat)
    SamplesAt ((ofInt (first / 4 : Nat) * 4 + offset) * factor + ofInt count * (4 * factor)) (halves / 2)
      (first + 4 * count) shift size := by
  refine .of_isHalves ?_ near inside
  have parts : (first + 4 * count + 4) * 2 ^ shift = (first + 4 * count) * 2 ^ shift + 4 * 2 ^ shift :=
    Nat.add_mul ..
  have within : (8 * (first / 4 + count) + halves) * 2 ^ shift ≤ 2 * size :=
    calc (8 * (first / 4 + count) + halves) * 2 ^ shift ≤ 2 * (first + 4 * count + 4) * 2 ^ shift :=
          Nat.mul_le_mul_right _ (by omega)
      _ = 2 * ((first + 4 * count + 4) * 2 ^ shift) := Nat.mul_assoc ..
      _ ≤ 2 * size := Nat.mul_le_mul_left 2 inside
  have sample := IsHalves.chroma_sample fine isOffset (.scale fine (by omega)) within (by omega)
  rwa [show 8 * (first / 4 + count) + halves = 2 * (first + 4 * count) + halves by omega] at sample

/-- The middle of a footprint that begins `first` and is `last` samples of its component long. -/
theorem Scalar.value_middle (fine : (RealValued.arithmetic α).Resolves size) (aligned : last % 4 = 0)
    (inside : first + last ≤ size >>> shift) :
    RealValued.value (ofInt ((first + last / 2) <<< shift : Nat) : α) =
      .real ((first * 2 ^ shift + (first + last) * 2 ^ shift) / 2) := by
  have within : (first + last / 2) <<< shift ≤ size := by
    rw [Nat.shiftRight_eq_div_pow, Nat.le_div_iff_mul_le (Nat.two_pow_pos shift)] at inside
    rw [Nat.shiftLeft_eq]
    exact (Nat.mul_le_mul_right _ (by omega)).trans inside
  have doubled : 2 * (first + last / 2) = first + (first + last) := by omega
  rw [(IsHalves.ofInt fine within).value, Nat.shiftLeft_eq, ← Nat.mul_assoc, doubled]
  push_cast
  congr 1
  ring

end Axis

/-- A located block with its motion samples, as they have to lie in a picture whose offset stands for `o`. -/
structure LocatedBlock.OnLattice (located : LocatedBlock α) (samples : Grid (Vec2 α)) (p : SubblockPicture α)
    (o : ℝ) (block : Block) (component : Component) (chroma : ChromaFormat) : Prop where
  /-- The window lies in the sub-block grid of the component. -/
  fits : located.window.Fits ((p.height >>> (component.shifts chroma).2) / 4)
    ((p.width >>> (component.shifts chroma).1) / 4)
  fits_luma : component.isLuma = true → located.window.Fits p.grid.rows p.grid.cols
  shape : samples.rows = block.height / 4 ∧ samples.cols = block.width / 4
  sample {row col : Nat} : row < block.height / 4 → col < block.width / 4 →
    ∃ sample, samples.cell? row col = some sample ∧
      SamplesAt sample.x o (block.x + 4 * col) (component.shifts chroma).1 p.width ∧
      SamplesAt sample.y o (block.y + 4 * row) (component.shifts chroma).2 p.height
  /-- The center is the middle of the footprint of the block. -/
  center :
    RealValued.value located.center.x = .real ((block.x * 2 ^ (component.shifts chroma).1 +
      (block.x + block.width) * 2 ^ (component.shifts chroma).1) / 2) ∧
    RealValued.value located.center.y = .real ((block.y * 2 ^ (component.shifts chroma).2 +
      (block.y + block.height) * 2 ^ (component.shifts chroma).2) / 2)

namespace SubblockPicture

/-- An acceptable block has the lattice of its sub-blocks, whichever way its samples come about. -/
theorem exists_onLattice {p : SubblockPicture α} {halves : Nat}
    (lattice : p.grid = .lattice (p.height / 4) (p.width / 4) ⟨p.offset, p.offset⟩ ⟨4, 4⟩)
    (isOffset : IsHalves p.offset halves) (near : halves ≤ 6)
    (wide : (RealValued.arithmetic α).Resolves p.width) (tall : (RealValued.arithmetic α).Resolves p.height)
    {block : Block} {component : Component} {chroma : ChromaFormat}
    (accepted : block.Accepted component chroma p.width p.height) :
    ∃ samples, p.samples (block.located component chroma) = .ok samples ∧
      (block.located component chroma).OnLattice samples p (halves / 2) block component chroma := by
  obtain ⟨alignedX, alignedY, alignedWidth, alignedHeight⟩ := accepted.aligned
  obtain ⟨insideX, insideY⟩ := accepted.inside
  have fits : (block.located component chroma : LocatedBlock α).window.Fits
      ((p.height >>> (component.shifts chroma).2) / 4) ((p.width >>> (component.shifts chroma).1) / 4) := by
    constructor <;> simp only [Block.located] <;> omega
  have center := And.intro (Scalar.value_middle wide alignedWidth insideX)
    (Scalar.value_middle tall alignedHeight insideY)
  cases luma : component.isLuma with
  | true =>
    have shifts : component.shifts chroma = (0, 0) := if_pos luma
    obtain ⟨samples, cut, rows, cols, cells⟩ := exists_samples_of_luma lattice luma accepted
    refine ⟨samples, cut, fits, fun _ => ?_, ⟨rows, cols⟩, fun {row col} inRow inCol => ?_, center⟩
    · simp only [shifts, Nat.shiftRight_zero] at fits
      rw [lattice]
      exact fits
    · obtain ⟨footprintX, footprintY⟩ := accepted.footprint_le inRow inCol
      simp only [shifts] at footprintX footprintY ⊢
      have cell := cells row col inRow inCol
      rw [lattice, Grid.cell?_lattice _ _ (by omega) (by omega)] at cell
      exact ⟨_, cell, .of_luma wide isOffset near alignedX footprintX,
        .of_luma tall isOffset near alignedY footprintY⟩
  | false =>
    refine ⟨_, if_neg (by simp [Block.located, luma]), fits, fun isLuma => ?_, ⟨rfl, rfl⟩,
      fun {row col} inRow inCol => ?_, center⟩
    · rw [luma] at isLuma
      cases isLuma
    · obtain ⟨footprintX, footprintY⟩ := accepted.footprint_le inRow inCol
      exact ⟨_, Grid.cell?_lattice _ _ inRow inCol, .of_chroma wide isOffset near alignedX footprintX,
        .of_chroma tall isOffset near alignedY footprintY⟩

/-- Every block that is found in a picture has the lattice of its sub-blocks, whatever windows were
asked for before and given or refused. Of luma it is cut out of the picture or kept from the last
time, of chroma it is made. -/
theorem found_blocks_on_lattice {offsetIndex width height : Nat} {offset : α}
    (offered : Config.offset offsetIndex = .ok offset) (nonempty : 0 < width ∧ 0 < height)
    (multiples : width % 4 = 0 ∧ height % 4 = 0) (wide : (RealValued.arithmetic α).Resolves width)
    (tall : (RealValued.arithmetic α).Resolves height) :
    ∃ p o, build width height offset = .ok p ∧ p.width = width ∧ p.height = height ∧
      RealValued.value offset = .real o ∧
      ∀ (windows : List Window) (block : Block) (component : Component) (chroma : ChromaFormat)
        (located : LocatedBlock α), (windows.foldl after p).locate block component chroma = .ok located →
          ∃ samples, (windows.foldl after p).fetched located = .ok samples ∧
            located.OnLattice samples p o block component chroma := by
  obtain ⟨halves, near, isOffset⟩ := IsHalves.of_offset offered
  have regular : ¬(width = 0 ∨ height = 0 ∨ width % 4 ≠ 0 ∨ height % 4 ≠ 0) := by omega
  refine ⟨_, halves / 2, if_neg regular, rfl, rfl, isOffset.value, ?_⟩
  intro windows block component chroma located found
  rw [locate_run] at found
  rw [fetched_run]
  obtain ⟨accepted, rfl⟩ := accepted_of_locate found
  exact exists_onLattice rfl isOffset near wide tall accepted

/-- Doubles at an offset of one and a half. Chroma of the picture has six columns and six rows, and so a single
sub-block; a window that does not fit was asked for before the last sub-block of luma. -/
theorem found_blocks_on_lattice_of_narrow_chroma :
    let windows : List Window := [⟨0, 0, 9, 9⟩, ⟨0, 1, 2, 2⟩]
    ∃ (p : SubblockPicture Double) (o : ℝ), build 12 12 (ofInt 3 / ofInt 2) = .ok p ∧
      (∃ samples, (windows.foldl after p).fetched (Block.located ⟨8, 8, 4, 4⟩ .y .yuv420) = .ok samples ∧
        LocatedBlock.OnLattice (Block.located ⟨8, 8, 4, 4⟩ .y .yuv420) samples p o ⟨8, 8, 4, 4⟩ .y .yuv420) ∧
      ∃ samples, (windows.foldl after p).fetched (Block.located ⟨0, 0, 4, 4⟩ .cb .yuv420) = .ok samples ∧
        LocatedBlock.OnLattice (Block.located ⟨0, 0, 4, 4⟩ .cb .yuv420) samples p o ⟨0, 0, 4, 4⟩ .cb .yuv420 := by
  intro windows
  have offered : Config.offset 4 = .ok (ofInt 3 / ofInt 2 : Double) := rfl
  have fine : (RealValued.arithmetic Double).Resolves 12 := Arithmetic.resolves_of_le (by norm_num)
  obtain ⟨p, o, built, width, height, -, each⟩ :=
    found_blocks_on_lattice offered (by decide : 0 < 12 ∧ 0 < 12) (by decide) fine fine
  have luma : Block.Accepted ⟨8, 8, 4, 4⟩ .y .yuv420 p.width p.height := by
    rw [width, height]
    exact ⟨.inl rfl, by decide, by decide, by decide⟩
  have chroma : Block.Accepted ⟨0, 0, 4, 4⟩ .cb .yuv420 p.width p.height := by
    rw [width, height]
    exact ⟨.inr rfl, by decide, by decide, by decide⟩
  refine ⟨p, o, built, each windows _ _ _ _ ?_, each windows _ _ _ _ ?_⟩
  · rw [locate_run, locate_of_accepted luma]
  · rw [locate_run, locate_of_accepted chroma]

end SubblockPicture

end SphereMotion
