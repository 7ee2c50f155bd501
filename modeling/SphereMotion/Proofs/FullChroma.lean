import Mathlib
import SphereMotion.Proofs.BlockSamples
import SphereMotion.Proofs.DoubleArithmetic
import SphereMotion.Proofs.History

namespace SphereMotion

open Scalar

variable {α : Type} [Scalar α]

/-- A component that is sampled like luma. -/
theorem Component.shifts_yuv444 (component : Component) : component.shifts .yuv444 = (0, 0) := by
  cases component <;> rfl

namespace SubblockPicture

theorem locate_yuv444 (p : SubblockPicture α) (block : Block) (component : Component) (chroma : ChromaFormat) :
    p.locate block component .yuv444 =
      (p.locate block .y chroma).map fun _ => block.located component .yuv444 := by
  have luma : Component.y.shifts chroma = (0, 0) := rfl
  have sampled : ¬(Component.y.isLuma = false ∧ chroma.hasChroma = false) := fun none => nomatch none.1
  have sampled' : ¬(component.isLuma = false ∧ ChromaFormat.yuv444.hasChroma = false) := fun none => nomatch none.2
  rw [locate_eq, locate_eq, component.shifts_yuv444, luma, if_neg sampled, if_neg sampled']
  split
  · rfl
  · split <;> rfl

/-- The samples of a block do not tell whether it is one of luma. -/
theorem samples_yuv444 [LawfulHalves α] {p : SubblockPicture α} {halves : Nat} (regular : p.OnLattice halves)
    (narrow : p.width ≤ 2 ^ 52) (low : p.height ≤ 2 ^ 52) {block : Block} {chroma : ChromaFormat}
    (accepted : block.Accepted .y chroma p.width p.height) (component : Component) :
    p.samples (block.located component .yuv444) = p.samples (block.located .y chroma) := by
  have shifts := component.shifts_yuv444
  have luma : Component.y.shifts chroma = (0, 0) := rfl
  have accepted' : block.Accepted component .yuv444 p.width p.height :=
    ⟨.inr rfl, accepted.aligned, accepted.nonempty, by rw [shifts]; exact accepted.inside⟩
  obtain ⟨made, isMade, rows, cols, cells⟩ := exists_samples regular accepted'
  obtain ⟨cut, isCut, rows', cols', cells'⟩ := exists_samples regular accepted
  have same : made = cut := by
    refine Grid.ext_of_cells ⟨rows, cols⟩ ⟨rows', cols'⟩ fun row col inRow inCol => ?_
    obtain ⟨smallX, smallY⟩ := accepted'.sample_lt narrow low regular.offset_le inRow inCol
    obtain ⟨smallX', smallY'⟩ := accepted.sample_lt narrow low regular.offset_le inRow inCol
    rw [cells row col inRow inCol smallX smallY, cells' row col inRow inCol smallX' smallY', Block.sample,
      Block.sample, shifts, luma]
  rw [isMade, isCut, same]

theorem moveBlock_yuv444 [LawfulHalves α] {p : SubblockPicture α} {halves : Nat} (regular : p.OnLattice halves)
    (narrow : p.width ≤ 2 ^ 52) (low : p.height ≤ 2 ^ 52) {block : Block} {chroma : ChromaFormat}
    (accepted : block.Accepted .y chroma p.width p.height) (model : MotionModel α) (vector : MotionVector)
    (precision : Nat) (component : Component) :
    p.moveBlock model ⟨block, vector, precision, component, .yuv444⟩ (block.located component .yuv444) =
      p.moveBlock model ⟨block, vector, precision, .y, chroma⟩ (block.located .y chroma) := by
  rw [moveBlock_eq, moveBlock_eq, samples_yuv444 regular narrow low accepted]
  cases component <;> rfl

end SubblockPicture

/-- A chroma block of full resolution is moved, or refused, as the luma block in its place, whatever was asked of
the engine before. The coordinates of samples in the picture have to be exact. -/
theorem Engine.fullChroma_eq_luma [LawfulSame α] [LawfulHalves α] {projection : Projection α}
    {width height : Nat} {config : Config} {epipoles : EpipoleList} {e : Engine α}
    (built : build projection width height config epipoles = .ok e) (narrow : width ≤ 2 ^ 52)
    (low : height ≤ 2 ^ 52) (requests : List (Request α)) (block : Block) (vector : MotionVector)
    (precision : Nat) (component : Component) (chroma : ChromaFormat) (id : ModelId) (pair : PicturePair) :
    ((e.serveAll requests).reproject ⟨block, vector, precision, component, .yuv444⟩ id pair).map Prod.fst =
      ((e.serveAll requests).reproject ⟨block, vector, precision, .y, chroma⟩ id pair).map Prod.fst := by
  obtain ⟨picture, made, sound, plan⟩ := run_of_built built requests
  obtain ⟨rfl, rfl, halves, regular⟩ := SubblockPicture.onLattice_of_made made
  rw [(sound.reproject _ id pair).map_fst, (sound.reproject _ id pair).map_fst, plan]
  simp only [Plan.reproject, picture.forget.locate_yuv444 block component chroma]
  cases found : picture.forget.locate block .y chroma with
  | error cause => rfl
  | ok located =>
    obtain ⟨accepted, rfl⟩ := SubblockPicture.accepted_of_locate found
    simp only [bind, Except.bind, Except.map, SubblockPicture.moveBlock_yuv444 regular.forget narrow low accepted]

/-- A camera pose that was asked for with one epipole before it was given another, its samples at an offset of one
and a half. -/
theorem Engine.fullChroma_eq_luma_of_camera_pose :
    let projection : Projection Double :=
      .panorama ⟨.ofBits 0x4030000000000000, .ofBits 0x4020000000000000, .ofBits 0⟩
    let config : Config := { active := .everything, offsetIndex := 4 }
    let luma : MovedBlock := ⟨⟨4, 0, 8, 4⟩, ⟨3, -1⟩, 2, .y, .yuv420⟩
    let pair : PicturePair := ⟨3, 1⟩
    let requests : List (Request Double) :=
      [.addEpipole .unitX .global true, .reproject luma .geodesicCameraPose pair, .addEpipole .unitY pair true]
    ∃ e, build projection 16 8 config .initial = .ok e ∧ 16 ≤ 2 ^ 52 ∧ 8 ≤ 2 ^ 52 ∧
      ((e.serveAll requests).reproject ⟨⟨4, 0, 8, 4⟩, ⟨3, -1⟩, 2, .cb, .yuv444⟩ .geodesicCameraPose pair).map
        Prod.fst =
        ((e.serveAll requests).reproject luma .geodesicCameraPose pair).map Prod.fst := by
  intro projection config luma pair requests
  have built : ∃ e, build projection 16 8 config .initial = .ok e := ⟨_, rfl⟩
  obtain ⟨e, built⟩ := built
  exact ⟨e, built, by decide, by decide,
    fullChroma_eq_luma built (by decide) (by decide) requests ⟨4, 0, 8, 4⟩ ⟨3, -1⟩
    2 .cb .yuv420 .geodesicCameraPose pair⟩

end SphereMotion
