import Mathlib
import SphereMotion.Proofs.BlockSamples
import SphereMotion.Proofs.DoubleArithmetic
import SphereMotion.Proofs.History

namespace SphereMotion

open Scalar

/-- Whether a block lies in another one. -/
def Block.Within (inner outer : Block) : Prop :=
  outer.x ≤ inner.x ∧ inner.x + inner.width ≤ outer.x + outer.width ∧
    outer.y ≤ inner.y ∧ inner.y + inner.height ≤ outer.y + outer.height

/-- Whether a block has the component sample in column `x` and row `y` of the picture. -/
def Block.Contains (block : Block) (x y : Nat) : Prop :=
  block.x ≤ x ∧ x < block.x + block.width ∧ block.y ≤ y ∧ y < block.y + block.height

/-- The place of a block among the sub-blocks of one in which it lies. -/
def Block.part (outer inner : Block) : Window :=
  ⟨(inner.y - outer.y) / 4, (inner.x - outer.x) / 4, inner.height / 4, inner.width / 4⟩

def Window.Holds (w : Window) (row col : Nat) : Prop :=
  w.row ≤ row ∧ row < w.row + w.rows ∧ w.col ≤ col ∧ col < w.col + w.cols

/-- A block lies in the sub-blocks in which it has samples. -/
theorem Block.holds_part {inner outer : Block} (within : inner.Within outer)
    (aligned : inner.x % 4 = 0 ∧ inner.y % 4 = 0 ∧ inner.width % 4 = 0 ∧ inner.height % 4 = 0)
    (aligned' : outer.x % 4 = 0 ∧ outer.y % 4 = 0) (row col : Nat) :
    (outer.part inner).Holds row col ↔ inner.Contains (outer.x + 4 * col) (outer.y + 4 * row) := by
  obtain ⟨left, -, top, -⟩ := within
  simp only [Window.Holds, part, Contains]
  omega

/-- Blocks that cover each sample of a block once and no other sample. -/
structure Block.Tiling (outer : Block) (tiles : List Block) : Prop where
  within : ∀ tile ∈ tiles, tile.Within outer
  once {x y : Nat} : outer.Contains x y → ∃! i : Fin tiles.length, tiles[i].Contains x y

/-- A block that is cut between two columns. -/
theorem Block.tiling_of_columns (outer : Block) {cut : Nat} (inside : cut ≤ outer.width) :
    outer.Tiling [⟨outer.x + cut, outer.y, outer.width - cut, outer.height⟩,
      ⟨outer.x, outer.y, cut, outer.height⟩] where
  within := by
    rintro tile (_ | ⟨_, _ | ⟨_, ⟨⟩⟩⟩) <;> simp only [Within] <;> omega
  once {x y} covered := by
    simp only [Contains] at covered
    by_cases before : x < outer.x + cut
    · refine ⟨1, by simp [Contains]; omega, fun i holds => ?_⟩
      match i with
      | 0 => simp [Contains] at holds; omega
      | 1 => rfl
    · refine ⟨0, by simp [Contains]; omega, fun i holds => ?_⟩
      match i with
      | 0 => rfl
      | 1 => simp [Contains] at holds; omega

theorem Grid.window?_eq_some {β : Type} {g part : Grid β} {w : Window} (fits : w.Fits g.rows g.cols)
    (shape : part.rows = w.rows ∧ part.cols = w.cols)
    (alike : ∀ row col, row < w.rows → col < w.cols → part.cell? row col = g.cell? (w.row + row) (w.col + col)) :
    g.window? w = some part := by
  rw [window?_of_fits fits, Option.some_inj]
  refine ext_of_cells ⟨rfl, rfl⟩ shape fun row col inRow inCol => ?_
  rw [cell?_window, if_pos ⟨inRow, inCol⟩, alike row col inRow inCol]

/-- How the answer for a part of a block follows from that for the block, `w` being the place of the part: its
corners are cut out, at the same precisions, and a missing epipole is missing for both. -/
inductive Reply.IsPart (w : Window) : Reply → Reply → Prop
  | corners {part whole : SubblockCorners}
      (precisions : part.precisionX = whole.precisionX ∧ part.precisionY = whole.precisionY)
      (cut : whole.corners.window? w = some part.corners) : IsPart w (.corners part) (.corners whole)
  | refused (cause : EpipoleError) : IsPart w (.refused (.epipole cause)) (.refused (.epipole cause))

variable {α : Type} [Scalar α]

namespace SubblockPicture

/-- There is one lattice that the samples of all blocks of a component lie on. -/
theorem exists_lattice [LawfulHalves α] {p : SubblockPicture α} {halves : Nat} (regular : p.OnLattice halves)
    {component : Component} (chroma : ChromaFormat)
    (exact : component.isLuma = true ∨ p.width ≤ 2 ^ 52 ∧ p.height ≤ 2 ^ 52) :
    ∃ lattice : Nat → Nat → Option (Vec2 α), ∀ block : Block, block.Accepted component chroma p.width p.height →
      ∃ samples, p.samples (block.located component chroma) = .ok samples ∧ samples.rows = block.height / 4 ∧
        samples.cols = block.width / 4 ∧ ∀ row col, row < block.height / 4 → col < block.width / 4 →
          samples.cell? row col = lattice (block.y / 4 + row) (block.x / 4 + col) := by
  rcases exact with luma | ⟨narrow, low⟩
  · exact ⟨p.grid.cell?, fun block accepted => exists_samples_of_luma regular.grid luma accepted⟩
  · refine ⟨fun row col => some (Block.sample ⟨4 * col, 4 * row, 4, 4⟩ component chroma p.offset 0 0),
      fun block accepted => ?_⟩
    obtain ⟨samples, made, rows, cols, cells⟩ := exists_samples regular accepted
    refine ⟨samples, made, rows, cols, fun row col inRow inCol => ?_⟩
    obtain ⟨smallX, smallY⟩ := accepted.sample_lt narrow low regular.offset_le inRow inCol
    obtain ⟨alignedX, alignedY, -, -⟩ := accepted.aligned
    have x : 4 * (block.x / 4 + col) + 4 * 0 = block.x + 4 * col := by omega
    have y : 4 * (block.y / 4 + row) + 4 * 0 = block.y + 4 * row := by omega
    rw [cells row col inRow inCol smallX smallY]
    beta_reduce
    rw [Block.sample, Block.sample, x, y]

theorem window?_samples [LawfulHalves α] {p : SubblockPicture α} {halves : Nat} (regular : p.OnLattice halves)
    {inner outer : Block} {component : Component} {chroma : ChromaFormat}
    (exact : component.isLuma = true ∨ p.width ≤ 2 ^ 52 ∧ p.height ≤ 2 ^ 52)
    (accepted : inner.Accepted component chroma p.width p.height)
    (accepted' : outer.Accepted component chroma p.width p.height) (within : inner.Within outer) :
    ∃ part whole, p.samples (inner.located component chroma) = .ok part ∧
      p.samples (outer.located component chroma) = .ok whole ∧ whole.window? (outer.part inner) = some part := by
  obtain ⟨lattice, cut⟩ := exists_lattice regular chroma exact
  obtain ⟨part, isPart, rows, cols, cells⟩ := cut inner accepted
  obtain ⟨whole, isWhole, rows', cols', cells'⟩ := cut outer accepted'
  obtain ⟨alignedX, alignedY, alignedWidth, alignedHeight⟩ := accepted.aligned
  obtain ⟨alignedX', alignedY', -, -⟩ := accepted'.aligned
  obtain ⟨left, right, top, bottom⟩ := within
  have fits : (outer.part inner).Fits whole.rows whole.cols := by
    rw [rows', cols']
    constructor <;> simp only [Block.part] <;> omega
  refine ⟨part, whole, isPart, isWhole, Grid.window?_eq_some fits ⟨rows, cols⟩ fun row col inRow inCol => ?_⟩
  have inWhole := And.intro fits.1 fits.2
  rw [rows', cols'] at inWhole
  rw [cells row col inRow inCol, cells' _ _ (by omega) (by omega)]
  congr 1 <;> simp only [Block.part] <;> omega

/-- The corners of a part are those of the whole in its place, if the model does not depend on the center. -/
theorem window?_moveBlock [LawfulHalves α] {p : SubblockPicture α} {halves : Nat} (regular : p.OnLattice halves)
    {model : MotionModel α}
    (free : ∀ position motion center center', model.movePoint position motion center =
      model.movePoint position motion center')
    {inner outer : Block} {component : Component} {chroma : ChromaFormat}
    (exact : component.isLuma = true ∨ p.width ≤ 2 ^ 52 ∧ p.height ≤ 2 ^ 52)
    (accepted : inner.Accepted component chroma p.width p.height)
    (accepted' : outer.Accepted component chroma p.width p.height) (within : inner.Within outer)
    (vector : MotionVector) (precision : Nat) :
    ∃ part whole,
      p.moveBlock model ⟨inner, vector, precision, component, chroma⟩ (inner.located component chroma) = .ok part ∧
      p.moveBlock model ⟨outer, vector, precision, component, chroma⟩ (outer.located component chroma) = .ok whole ∧
      (part.precisionX = whole.precisionX ∧ part.precisionY = whole.precisionY) ∧
      whole.corners.window? (outer.part inner) = some part.corners := by
  obtain ⟨part, whole, isPart, isWhole, cut⟩ := window?_samples regular exact accepted accepted' within
  rw [moveBlock_eq, moveBlock_eq, isPart, isWhole]
  refine ⟨_, _, rfl, rfl, ⟨rfl, rfl⟩, ?_⟩
  rw [Grid.window?_map, cut]
  refine congrArg (fun corner => some (part.map corner)) (funext fun start => ?_)
  rw [free start _ (outer.located component chroma).center (inner.located component chroma).center]
  rfl

end SubblockPicture

/-- The models that move a point alike in every block. -/
def ModelId.CenterFree (id : ModelId) (flavor : GeodesicFlavor) : Prop :=
  id = .classic ∨ id.plane?.isSome = true ∨ id.isGeodesic = true ∧ flavor = .linear

theorem ModelId.CenterFree.movePoint_eq {id : ModelId} {flavor : GeodesicFlavor} (free : id.CenterFree flavor)
    (projection : Projection α) (epipole : Option (Vec3 α)) (position motion center center' : Vec2 α) :
    (id.motionModel flavor projection epipole).movePoint position motion center =
      (id.motionModel flavor projection epipole).movePoint position motion center' := by
  rcases free with rfl | plane | ⟨geodesic, rfl⟩
  · rfl
  · cases id <;> first | rfl | cases plane
  · cases id <;> first | rfl | cases geodesic

/-- A model is refused an epipole only if the list has none for it. -/
theorem EpipoleList.exists_of_forModel_error {list : EpipoleList} {id : ModelId} {pair : PicturePair}
    {cause : EngineError}
    (refused : (list.forModel id pair : Except EngineError (Option (Vec3 α))) = .error cause) :
    ∃ missing, cause = .epipole missing := by
  unfold forModel at refused
  split at refused
  · split at refused <;> cases refused
    exact ⟨_, rfl⟩
  · cases refused

/-- The answers to a part and to the whole, without a memory. -/
theorem Plan.isPart_reply [LawfulHalves α] {plan : Plan α} {halves : Nat}
    (regular : plan.picture.OnLattice halves) {id : ModelId} (free : id.CenterFree plan.config.flavor)
    (active : plan.config.active.contains id = true) {inner outer : Block} {component : Component}
    {chroma : ChromaFormat}
    (exact : component.isLuma = true ∨ plan.picture.width ≤ 2 ^ 52 ∧ plan.picture.height ≤ 2 ^ 52)
    (accepted : inner.Accepted component chroma plan.picture.width plan.picture.height)
    (accepted' : outer.Accepted component chroma plan.picture.width plan.picture.height)
    (within : inner.Within outer) (vector : MotionVector) (precision : Nat) (pair : PicturePair) :
    Reply.IsPart (outer.part inner) (plan.reply (.reproject ⟨inner, vector, precision, component, chroma⟩ id pair))
      (plan.reply (.reproject ⟨outer, vector, precision, component, chroma⟩ id pair)) := by
  have allowed : plan.require id = .ok () := if_pos active
  simp only [reply, reproject, allowed, SubblockPicture.locate_of_accepted accepted,
    SubblockPicture.locate_of_accepted accepted', bind, Except.bind]
  cases given : (plan.epipoles.forModel id pair : Except EngineError (Option (Vec3 α))) with
  | error cause =>
    obtain ⟨missing, rfl⟩ := EpipoleList.exists_of_forModel_error given
    exact .refused missing
  | ok epipole =>
    obtain ⟨part, whole, isPart, isWhole, precisions, cut⟩ := SubblockPicture.window?_moveBlock regular
      (free.movePoint_eq plan.projection epipole) exact accepted accepted' within vector precision
    simp only [motionModel, isPart, isWhole]
    exact .corners precisions cut

namespace Engine

/-- The answers to requests that are made one after the other. -/
def replies (e : Engine α) : List (Request α) → List Reply
  | [] => []
  | request :: rest => (e.serve request).1 :: (e.serve request).2.replies rest

/-- Blocks that are moved one after the other do not change each other's answers. -/
theorem Sound.replies_reproject [LawfulSame α] {e : Engine α} (sound : e.Sound) (moved : List MovedBlock)
    (id : ModelId) (pair : PicturePair) :
    e.replies (moved.map fun each => .reproject each id pair) =
      moved.map fun each => e.plan.reply (.reproject each id pair) := by
  induction moved generalizing e with
  | nil => rfl
  | cons first rest ih =>
    obtain ⟨answer, next, kept⟩ := sound.serve (.reproject first id pair)
    have unchanged : e.plan.next (.reproject first id pair) = e.plan := rfl
    rw [List.map_cons, List.map_cons, replies, answer, ih next, kept, unchanged]

/-- A model that does not depend on the center of a block gives a part of it the corners that it has in the whole.
Tiles, asked for one after the other in any order, together give the corners of the block that they cover, each
once. The coordinates of chroma samples have to be exact. -/
theorem reply_part_and_tiles [LawfulSame α] [LawfulHalves α] {projection : Projection α} {width height : Nat}
    {config : Config} {epipoles : EpipoleList} {e : Engine α}
    (built : build projection width height config epipoles = .ok e) {id : ModelId}
    (active : config.active.contains id = true) (free : id.CenterFree config.flavor) {component : Component}
    (exact : component.isLuma = true ∨ width ≤ 2 ^ 52 ∧ height ≤ 2 ^ 52) {outer : Block} {chroma : ChromaFormat}
    (accepted : outer.Accepted component chroma width height) (requests : List (Request α)) (vector : MotionVector)
    (precision : Nat) (pair : PicturePair) :
    let moveRequest (block : Block) : Request α := .reproject ⟨block, vector, precision, component, chroma⟩ id pair
    let whole := ((e.serveAll requests).serve (moveRequest outer)).1
    (∀ inner : Block, inner.Accepted component chroma width height → inner.Within outer →
      Reply.IsPart (outer.part inner) ((e.serveAll requests).serve (moveRequest inner)).1 whole) ∧
    ∀ tiles : List Block, (∀ tile ∈ tiles, tile.Accepted component chroma width height) → outer.Tiling tiles →
      List.Forall₂ (fun tile reply => Reply.IsPart (outer.part tile) reply whole) tiles
        ((e.serveAll requests).replies (tiles.map moveRequest)) ∧
      ∀ row col, row < outer.height / 4 → col < outer.width / 4 →
        ∃! i : Fin tiles.length, (outer.part tiles[i]).Holds row col := by
  intro moveRequest whole
  obtain ⟨picture, made, sound, plan⟩ := run_of_built built requests
  obtain ⟨rfl, rfl, halves, regular⟩ := SubblockPicture.onLattice_of_made made
  have answers (block : Block) : ((e.serveAll requests).serve (moveRequest block)).1 =
      Plan.reply ⟨config, projection, picture.forget, requests.foldl EpipoleList.edit epipoles⟩
        (moveRequest block) := by
    rw [(sound.serve _).1, plan]
  have parts (inner : Block) (accepted' : inner.Accepted component chroma picture.width picture.height)
      (within : inner.Within outer) :
      Reply.IsPart (outer.part inner) ((e.serveAll requests).serve (moveRequest inner)).1 whole := by
    rw [answers inner, show whole = _ from answers outer]
    exact Plan.isPart_reply regular.forget free active exact accepted' accepted within vector precision pair
  refine ⟨parts, fun tiles each tiling => ⟨?_, fun row col inRow inCol => ?_⟩⟩
  · have run := sound.replies_reproject (tiles.map (⟨·, vector, precision, component, chroma⟩)) id pair
    simp only [List.map_map] at run
    rw [show (e.serveAll requests).replies (tiles.map moveRequest) = _ from run, List.forall₂_map_right_iff,
      List.forall₂_same]
    intro tile member
    rw [Function.comp_apply, ← (sound.serve _).1]
    exact parts tile (each tile member) (tiling.within tile member)
  · obtain ⟨alignedX, alignedY, -, -⟩ := accepted.aligned
    have covered : outer.Contains (outer.x + 4 * col) (outer.y + 4 * row) := by
      simp only [Block.Contains]
      omega
    have same (i : Fin tiles.length) : (outer.part tiles[i]).Holds row col ↔
        tiles[i].Contains (outer.x + 4 * col) (outer.y + 4 * row) :=
      have member := List.getElem_mem i.isLt
      Block.holds_part (tiling.within _ member) (each _ member).aligned ⟨alignedX, alignedY⟩ row col
    simp only [same]
    exact tiling.once covered

/-- A chroma block of a geodesic model, its right half and its two halves. -/
theorem reply_part_and_tiles_of_halves :
    let projection : Projection Double :=
      .panorama ⟨.ofBits 0x4030000000000000, .ofBits 0x4020000000000000, .ofBits 0⟩
    let config : Config := { active := .everything, flavor := .linear, offsetIndex := 4 }
    let requests : List (Request Double) :=
      [.addEpipole .unitX .global true, .reproject ⟨⟨4, 0, 8, 4⟩, ⟨3, -1⟩, 2, .y, .yuv420⟩ .geodesicX .global]
    let outer : Block := ⟨0, 0, 8, 4⟩
    let right : Block := ⟨4, 0, 4, 4⟩
    let tiles : List Block := [right, ⟨0, 0, 4, 4⟩]
    let moveRequest (block : Block) : Request Double :=
      .reproject ⟨block, ⟨3, -1⟩, 2, .cr, .yuv420⟩ .geodesicCameraPose .global
    config.active.contains .geodesicCameraPose = true ∧ ModelId.CenterFree .geodesicCameraPose config.flavor ∧
    (Component.cr.isLuma = true ∨ 16 ≤ 2 ^ 52 ∧ 8 ≤ 2 ^ 52) ∧ outer.Accepted .cr .yuv420 16 8 ∧
    ∃ e, build projection 16 8 config .initial = .ok e ∧
      let whole := ((e.serveAll requests).serve (moveRequest outer)).1
      Reply.IsPart (outer.part right) ((e.serveAll requests).serve (moveRequest right)).1 whole ∧
      List.Forall₂ (fun tile reply => Reply.IsPart (outer.part tile) reply whole) tiles
        ((e.serveAll requests).replies (tiles.map moveRequest)) ∧
      ∀ row col, row < outer.height / 4 → col < outer.width / 4 →
        ∃! i : Fin tiles.length, (outer.part tiles[i]).Holds row col := by
  intro projection config requests outer right tiles moveRequest
  have built : ∃ e, build projection 16 8 config .initial = .ok e := ⟨_, rfl⟩
  obtain ⟨e, built⟩ := built
  have free : ModelId.CenterFree .geodesicCameraPose config.flavor := .inr (.inr ⟨rfl, rfl⟩)
  have exact : Component.cr.isLuma = true ∨ 16 ≤ 2 ^ 52 ∧ 8 ≤ 2 ^ 52 := .inr (by decide)
  have accepted : outer.Accepted .cr .yuv420 16 8 := ⟨.inr rfl, by decide, by decide, by decide⟩
  have onTiles : ∀ tile ∈ [right, (⟨0, 0, 4, 4⟩ : Block)], tile.Accepted .cr .yuv420 16 8 := by
    rintro tile (_ | ⟨_, _ | ⟨_, ⟨⟩⟩⟩)
    · exact ⟨.inr rfl, by decide, by decide, by decide⟩
    · exact ⟨.inr rfl, by decide, by decide, by decide⟩
  have tiling : outer.Tiling tiles := Block.tiling_of_columns outer (by decide : 4 ≤ 8)
  obtain ⟨parts, tiled⟩ := reply_part_and_tiles built rfl free exact accepted requests ⟨3, -1⟩ 2 .global
  have first : right ∈ tiles := .head _
  exact ⟨rfl, free, exact, accepted, e, built, parts right (onTiles right first) (tiling.within right first),
    tiled tiles onTiles tiling⟩

end Engine

end SphereMotion
