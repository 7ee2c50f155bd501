import Mathlib
import SphereMotion.Perspective
import SphereMotion.Proofs.FloatOperations
import SphereMotion.Proofs.ScalarLaws

namespace SphereMotion

open Scalar

/-- Scalars for which taking away is adding the opposite. -/
class LawfulSub (α : Type) [Scalar α] : Prop where
  add_neg (x y : α) : x + -y = x - y

instance : LawfulSub Double := ⟨fun x y => congrArg Double.ofFloat (Binary64.float_add_neg x.value y.value)⟩

namespace Grid

variable {β γ δ : Type}

theorem map_single (f : β → γ) (v : β) : (single v).map f = single (f v) := by
  simp [map, single]

theorem forall_single {v : β} {holds : β → Prop} : (∀ i w, (single v).get? i = some w → holds w) ↔ holds v := by
  refine ⟨fun each => each 0 v rfl, fun held i w entry => ?_⟩
  obtain ⟨within, same⟩ := Array.getElem?_eq_some_iff.mp entry
  have first : i = 0 := Nat.lt_one_iff.mp within
  subst first
  exact same ▸ held

theorem map_eq_map_iff {f f' : β → γ} {g : Grid β} :
    g.map f = g.map f' ↔ ∀ i v, g.get? i = some v → f v = f' v := by
  constructor
  · intro same i v entry
    have cell := congrArg (fun h : Grid γ => h.get? i) same
    simpa only [get?_map, entry, Option.map_some, Option.some_inj] using cell
  · intro each
    refine Grid.ext rfl rfl (Array.ext_getElem? fun i => ?_)
    change (g.map f).get? i = (g.map f').get? i
    rw [get?_map, get?_map]
    cases entry : g.get? i with
    | none => rfl
    | some v => exact congrArg some (each i v entry)

theorem point_map (f : β → γ) (g : Grid β) (i : Nat) : (g.map f).point i = (g.point i).map f := by
  rw [point, point, get?_map]
  cases g.get? i <;> rfl

/-- Two grids of one shape have or lack an entry together. -/
theorem point_zipWith? {f : β → γ → δ} {g : Grid β} {h : Grid γ} {both : Grid δ}
    (zipped : zipWith? f g h = some both) (i : Nat) :
    both.point i = (g.point i).bind fun v => (h.point i).map (f v) := by
  unfold zipWith? at zipped
  split at zipped
  next same =>
    cases zipped
    have sizes : g.entries.size = h.entries.size := by rw [g.size_entries, h.size_entries, same.1, same.2]
    simp only [point, get?, Array.getElem?_zipWith]
    by_cases inside : i < g.entries.size
    · rw [Array.getElem?_eq_getElem inside, Array.getElem?_eq_getElem (sizes ▸ inside)]
      rfl
    · rw [Array.getElem?_eq_none (not_lt.mp inside)]
      rfl
  next => cases zipped

theorem shape_zipWith? {f : β → γ → δ} {g : Grid β} {h : Grid γ} {both : Grid δ}
    (zipped : zipWith? f g h = some both) :
    both.rows = g.rows ∧ both.cols = g.cols := by
  unfold zipWith? at zipped
  split at zipped
  · cases zipped
    exact ⟨rfl, rfl⟩
  · cases zipped

/-- A form for grids agrees with a form for points: the shape stays, and each entry becomes what the point
form makes of it. An index outside the grid is refused for the same reason before and after. -/
structure Agrees (gridForm : Grid β → Grid γ) (pointForm : β → γ) : Prop where
  rows (g : Grid β) : (gridForm g).rows = g.rows
  cols (g : Grid β) : (gridForm g).cols = g.cols
  point (g : Grid β) (i : Nat) : (gridForm g).point i = (g.point i).map pointForm

theorem Agrees.of_map {gridForm : Grid β → Grid γ} {pointForm : β → γ} (each : ∀ g, gridForm g = g.map pointForm) :
    Agrees gridForm pointForm where
  rows g := congrArg Grid.rows (each g)
  cols g := congrArg Grid.cols (each g)
  point g i := by rw [each, point_map]

end Grid

variable {α : Type} [Scalar α]

theorem Vec2.add_neg [LawfulSub α] (p q : Vec2 α) : p + -q = p - q :=
  Vec2.ext (LawfulSub.add_neg p.x q.x) (LawfulSub.add_neg p.y q.y)

namespace Projection

theorem projectGrid_eq_map (p : Projection α) (g : Grid (Vec3 α)) : p.projectGrid g = g.map p.project := by
  cases p with
  | lens p =>
    simp only [projectGrid, LensProjection.projectGrid, Grid.translated, Grid.map_map]
    rfl
  | panorama p => exact p.projectGrid_eq_map g

theorem unprojectGrid_eq_map [LawfulSub α] (p : Projection α) (g : Grid (Vec2 α)) :
    p.unprojectGrid g = g.map p.unproject := by
  cases p with
  | lens p =>
    simp only [unprojectGrid, LensProjection.unprojectGrid, Grid.translated, Grid.map_map, Function.comp_def,
      Vec2.add_neg]
    rfl
  | panorama p => exact p.unprojectGrid_eq_map g

end Projection

namespace PlanePoint

theorem projectGrid_eq_map (radius : α → α) (center : Vec2 α) (g : Grid (Vec3 α)) :
    projectGrid radius center g = g.map fun v =>
      ofRadius center (radius v.toCamera.toSpherical.polar) v.toCamera.toSpherical.azimuth := by
  simp only [projectGrid, Grid.map_map]
  rfl

theorem unprojectGrid_eq_map [LawfulSub α] (angle : α → α) (center : Vec2 α) (g : Grid (PlanePoint α)) :
    unprojectGrid angle center g = g.map fun p =>
      direction (angle (p.point - center).toPolar.radius) (p.point - center).toPolar.azimuth p.isVirtual := by
  simp only [unprojectGrid, Grid.map_map, Function.comp_def, Vec2.add_neg]

end PlanePoint

namespace Perspective

theorem projectGrid_eq_map (p : Perspective α) (g : Grid (Vec3 α)) : p.projectGrid g = g.map p.project :=
  PlanePoint.projectGrid_eq_map p.radius p.center g

theorem unprojectGrid_eq_map [LawfulSub α] (p : Perspective α) (g : Grid (PlanePoint α)) :
    p.unprojectGrid g = g.map p.unproject :=
  PlanePoint.unprojectGrid_eq_map p.angle p.center g

end Perspective

/-- What a projection or a camera makes of a grid it makes of the points of the grid, undefined and infinite ones
included. A camera flags the images of a grid as it flags single images, and finds the direction of an image by the
flag at its own index. -/
theorem grids_agree_with_points [LawfulSub α] :
    (∀ p : Projection α, Grid.Agrees p.unprojectGrid p.unproject ∧ Grid.Agrees p.projectGrid p.project) ∧
      ∀ p : Perspective α,
        Grid.Agrees (fun g => (p.projectGrid g).map PlanePoint.point) (fun v => (p.project v).point) ∧
        Grid.Agrees (fun g => (p.projectGrid g).map PlanePoint.isVirtual) (fun v => (p.project v).isVirtual) ∧
        ∀ points flags images, Grid.zipWith? PlanePoint.mk points flags = some images →
          (p.unprojectGrid images).rows = points.rows ∧ (p.unprojectGrid images).cols = points.cols ∧
          ∀ i, (p.unprojectGrid images).point i =
            (points.point i).bind fun point => (flags.point i).map fun flag => p.unproject ⟨point, flag⟩ := by
  refine ⟨fun p => ⟨.of_map p.unprojectGrid_eq_map, .of_map p.projectGrid_eq_map⟩, fun p => ⟨?_, ?_, ?_⟩⟩
  · exact .of_map fun g => by rw [p.projectGrid_eq_map, Grid.map_map]; rfl
  · exact .of_map fun g => by rw [p.projectGrid_eq_map, Grid.map_map]; rfl
  · intro points flags images zipped
    obtain ⟨rows, cols⟩ := Grid.shape_zipWith? zipped
    rw [p.unprojectGrid_eq_map]
    refine ⟨rows, cols, fun i => ?_⟩
    rw [Grid.point_map, Grid.point_zipWith? zipped]
    cases points.point i with
    | error cause => rfl
    | ok point => cases flags.point i <;> rfl

/-- Doubles: undefined and infinite points, a center that is undefined or infinite, a panorama, and
an index past the end. -/
theorem grids_agree_with_points_of_undefined_entries :
    let points : Grid (Vec2 Double) := ⟨1, 3, #[⟨undefined, 1⟩, ⟨1 / 0, 0⟩, ⟨0, -1 / 0⟩], rfl⟩
    let flags : Grid Bool := ⟨1, 3, #[true, false, true], rfl⟩
    let lens : Projection Double := .lens ⟨.equisolid 400, ⟨undefined, 1 / 0⟩⟩
    let panorama : Projection Double := .panorama ⟨1024, 512, 0⟩
    let camera : Perspective Double := ⟨250, ⟨1 / 0, 240⟩⟩
    (lens.unprojectGrid points).point 1 = .ok (lens.unproject ⟨1 / 0, 0⟩) ∧
      (panorama.unprojectGrid points).point 0 = .ok (panorama.unproject ⟨undefined, 1⟩) ∧
      (panorama.unprojectGrid points).point 3 = .error .indexOutsideGrid ∧
      ∃ images, Grid.zipWith? PlanePoint.mk points flags = some images ∧
        (camera.unprojectGrid images).point 2 = .ok (camera.unproject ⟨⟨0, -1 / 0⟩, true⟩) := by
  intro points flags lens panorama camera
  refine ⟨(grids_agree_with_points.1 lens).1.point points 1, (grids_agree_with_points.1 panorama).1.point points 0,
    (grids_agree_with_points.1 panorama).1.point points 3, _, rfl, ?_⟩
  exact ((grids_agree_with_points.2 camera).2.2 points flags _ rfl).2.2 2

end SphereMotion
