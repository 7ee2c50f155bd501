import SphereMotion.Block
import SphereMotion.Config
import SphereMotion.EpipoleList
import SphereMotion.Grid.Points
import SphereMotion.Memo

namespace SphereMotion

open Scalar

variable {α : Type} [Scalar α]

inductive EngineError where
  | inactiveModel (model : ModelId)
  | misaligned (block : Block)
  | outsidePicture (block : Block) (pictureWidth pictureHeight : Nat)
  | noChroma (component : Component)
  | epipole (cause : EpipoleError)
  | fault (cause : Fault)
  deriving DecidableEq, Repr

def EngineError.message : EngineError → String
  | inactiveModel model => "motion model " ++ model.label ++ " is not active"
  | misaligned ⟨x, y, width, height⟩ =>
    s!"block ({x}, {y}) {width}x{height} is not aligned to the 4x4 sub-block grid"
  | outsidePicture ⟨x, y, width, height⟩ pictureWidth pictureHeight =>
    s!"block ({x}, {y}) {width}x{height} exceeds the {pictureWidth}x{pictureHeight} picture"
  | noChroma component => "component " ++ component.label ++ " does not exist in 4:0:0 pictures"
  | epipole cause => "epipole lookup failed: " ++ cause.message
  | fault cause => cause.message

/-- A block found in the sub-block grid of its component. -/
structure LocatedBlock (α : Type) where
  window : Window
  isLuma : Bool
  shiftX : Nat
  shiftY : Nat
  center : Vec2 α

/-- The luma motion samples of a picture, one in the stead of each 4×4 sub-block. Those of the last
block are kept apart. -/
structure SubblockPicture (α : Type) where
  width : Nat
  height : Nat
  offset : α
  grid : Grid (Vec2 α)
  lastBlock : Memo grid.window?

/-- The moved corners of the sub-blocks of a block, in samples of its component. -/
structure SubblockCorners where
  corners : Grid (Vec2 Int32)
  precisionX : Nat
  precisionY : Nat

/-- How far a sub-block has moved from its corner in a block at `(x, y)`. -/
def SubblockCorners.displacement? (moved : SubblockCorners) (row col : Nat) (x y : Nat) : Option MotionVector :=
  (moved.corners.cell? row col).map fun corner =>
    ⟨corner.x - Int32.ofNat (x + 4 * col) <<< Int32.ofNat moved.precisionX,
      corner.y - Int32.ofNat (y + 4 * row) <<< Int32.ofNat moved.precisionY⟩

namespace SubblockPicture

/-- The picture of a luma size, which has to be a multiple of the sub-block size. -/
def build (width height : Nat) (offset : α) : Except ConfigError (SubblockPicture α) :=
  if width = 0 ∨ height = 0 ∨ width % 4 ≠ 0 ∨ height % 4 ≠ 0 then .error (.invalidResolution width height)
  else .ok ⟨width, height, offset, .lattice (height / 4) (width / 4) ⟨offset, offset⟩ ⟨4, 4⟩, .empty⟩

/-- Finds a block of whole sub-blocks inside the picture of its component. -/
def locate (p : SubblockPicture α) (block : Block) (component : Component) (chroma : ChromaFormat) :
    Except EngineError (LocatedBlock α) := do
  let (shiftX, shiftY) ←
    if component.isLuma then .ok (0, 0)
    else if chroma.hasChroma then .ok (chroma.shiftX, chroma.shiftY)
    else .error (.noChroma component)
  let ⟨x, y, width, height⟩ := block
  if x % 4 ≠ 0 ∨ y % 4 ≠ 0 ∨ width % 4 ≠ 0 ∨ height % 4 ≠ 0 ∨ width = 0 ∨ height = 0 then
    .error (.misaligned block)
  let pictureWidth := p.width >>> shiftX
  let pictureHeight := p.height >>> shiftY
  if pictureWidth < x + width ∨ pictureHeight < y + height then
    .error (.outsidePicture block pictureWidth pictureHeight)
  return {
    window := ⟨y / 4, x / 4, height / 4, width / 4⟩
    isLuma := component.isLuma
    shiftX, shiftY
    center := ⟨ofInt ((x + width / 2) <<< shiftX : Nat), ofInt ((y + height / 2) <<< shiftY : Nat)⟩ }

def lumaBlock (p : SubblockPicture α) (window : Window) : Except EngineError (Grid (Vec2 α) × SubblockPicture α) :=
  match p.lastBlock.fetch (· == ·) window with
  | some (samples, lastBlock) => .ok (samples, { p with lastBlock })
  | none => .error (.fault .windowOutsideGrid)

/-- The motion samples of a chroma block in luma samples. They lie between those of luma and form a lattice of
their own. -/
def chromaBlock (p : SubblockPicture α) (block : LocatedBlock α) : Grid (Vec2 α) :=
  let w := block.window
  let scaleX : α := ofInt (1 <<< block.shiftX : Nat)
  let scaleY : α := ofInt (1 <<< block.shiftY : Nat)
  .lattice w.rows w.cols ⟨(ofInt w.col * 4 + p.offset) * scaleX, (ofInt w.row * 4 + p.offset) * scaleY⟩
    ⟨4 * scaleX, 4 * scaleY⟩

/-- The fixed-point corners that belong to moved motion samples. A sample without a defined motion leaves its
sub-block where it was. -/
def settle (p : SubblockPicture α) (block : LocatedBlock α) (precision : Nat) (samples moved : Grid (Vec2 α)) :
    SubblockCorners :=
  let precisionX := precision + block.shiftX
  let precisionY := precision + block.shiftY
  let scaleX : α := ofInt (1 <<< block.shiftX : Nat)
  let scaleY : α := ofInt (1 <<< block.shiftY : Nat)
  let corner (i : Nat) (start : Vec2 α) : Vec2 Int32 :=
    let target := ((moved.get? i).filter fun q => !isUndefined q.x && !isUndefined q.y).getD start
    ⟨FixedPoint.ofScalar (target.x / scaleX - p.offset) precisionX,
      FixedPoint.ofScalar (target.y / scaleY - p.offset) precisionY⟩
  ⟨samples.mapIdx corner, precisionX, precisionY⟩

end SubblockPicture

end SphereMotion
