import Mathlib
import SphereMotion.Motion.Model
import SphereMotion.Proofs.PointForms

namespace SphereMotion

namespace Grid

variable {β γ δ : Type}

/-- A stage that does to every entry of a grid what it does to that entry anywhere. -/
def Pointwise (stage : Grid β → Grid γ) : Prop := ∃ f, ∀ g, stage g = g.map f

theorem Pointwise.of_map (f : β → γ) : Pointwise fun g => g.map f := ⟨f, fun _ => rfl⟩

theorem Pointwise.of_stays {stage : Grid β → Grid β} (stays : ∀ g, stage g = g) : Pointwise stage :=
  ⟨fun v => v, fun g => by simp [stays, map]⟩

theorem Pointwise.comp {second : Grid γ → Grid δ} {first : Grid β → Grid γ} (onSecond : Pointwise second)
    (onFirst : Pointwise first) : Pointwise fun g => second (first g) := by
  obtain ⟨f, before⟩ := onFirst
  obtain ⟨f', after⟩ := onSecond
  exact ⟨f' ∘ f, fun g => by simp only [before, after, map_map]⟩

/-- A stage that keeps the shape of a grid and makes of each point what it makes of the grid of that point
alone; what it makes of a window it makes of the whole grid within that window. -/
structure PointByPoint (stage : Grid β → Grid γ) : Prop where
  rows (g : Grid β) : (stage g).rows = g.rows
  cols (g : Grid β) : (stage g).cols = g.cols
  point (g : Grid β) (i : Nat) : (stage g).point i = (g.point i).bind fun v => (stage (single v)).point 0
  window? (g : Grid β) (w : Window) : (stage g).window? w = (g.window? w).map stage

theorem Pointwise.pointByPoint {stage : Grid β → Grid γ} (each : Pointwise stage) : PointByPoint stage := by
  obtain ⟨f, each⟩ := each
  constructor
  case rows => exact fun g => congrArg Grid.rows (each g)
  case cols => exact fun g => congrArg Grid.cols (each g)
  case point =>
    intro g i
    have alone (v : β) : (stage (single v)).point 0 = .ok (f v) := by rw [each, map_single]; rfl
    simp only [alone]
    rw [each, point_map]
    rfl
  case window? =>
    intro g w
    rw [each, window?_map, funext each]

end Grid

variable {α : Type} [Scalar α]

theorem Projection.pointwise_unprojectGrid (p : Projection α) : Grid.Pointwise p.unprojectGrid := by
  cases p with
  | lens p =>
    apply Exists.intro
    intro g
    simp only [unprojectGrid, LensProjection.unprojectGrid, Grid.translated, Grid.map_map]
    rfl
  | panorama p => exact ⟨p.unproject, p.unprojectGrid_eq_map⟩

theorem Projection.pointwise_projectGrid (p : Projection α) : Grid.Pointwise p.projectGrid :=
  ⟨p.project, p.projectGrid_eq_map⟩

/-- Directions that are moved one by one between the two sides of a projection move points one by one. -/
theorem Projection.pointwise_between (p : Projection α) {moveSphere : Grid (Vec3 α) → Grid (Vec3 α)}
    (each : Grid.Pointwise moveSphere) : Grid.Pointwise fun g => p.projectGrid (moveSphere (p.unprojectGrid g)) :=
  p.pointwise_projectGrid.comp (each.comp p.pointwise_unprojectGrid)

theorem PlanePoint.pointwise_projectGrid (radius : α → α) (center : Vec2 α) :
    Grid.Pointwise (projectGrid radius center) := ⟨_, projectGrid_eq_map radius center⟩

theorem PlanePoint.pointwise_unprojectGrid (angle : α → α) (center : Vec2 α) :
    Grid.Pointwise (unprojectGrid angle center) := by
  apply Exists.intro
  intro g
  simp only [unprojectGrid, Grid.map_map]
  rfl

namespace PlaneMotion

theorem pointwise_toPlane (m : PlaneMotion α) : Grid.Pointwise m.toPlane :=
  (PlanePoint.pointwise_projectGrid m.perspective.radius m.perspective.center).comp (.of_map _)

theorem pointwise_turnOut (m : PlaneMotion α) : Grid.Pointwise m.turnOut := .of_map _

theorem pointwise_ofPlane (m : PlaneMotion α) : Grid.Pointwise m.ofPlane :=
  m.pointwise_turnOut.comp (PlanePoint.pointwise_unprojectGrid m.perspective.angle m.perspective.center)

theorem pointwise_moveTabulated (m : PlaneMotion α) (camera : TabulatedPerspective α) (motion : Vec2 α) :
    Grid.Pointwise fun g => m.moveTabulated camera g motion := by
  by_cases still : motion.isZero = true
  · exact .of_stays fun g => if_pos still
  · have toPlane : Grid.Pointwise fun sphere => camera.projectGrid (m.turnIn sphere) :=
      (PlanePoint.pointwise_projectGrid camera.radius camera.center).comp (.of_map _)
    have ofPlane : Grid.Pointwise fun plane => m.turnOut (camera.unprojectGrid plane) :=
      m.pointwise_turnOut.comp (PlanePoint.pointwise_unprojectGrid camera.angle camera.center)
    simp only [moveTabulated, if_neg still]
    exact m.projection.pointwise_between (ofPlane.comp (.comp (.of_map _) toPlane))

end PlaneMotion

namespace MotionModel

theorem pointwise_move (model : MotionModel α) (motion center : Vec2 α) :
    Grid.Pointwise fun g => model.move g motion center := by
  by_cases still : motion.isZero = true
  · refine .of_stays fun g => ?_
    cases model <;> exact if_pos still
  · cases model with
    | translational =>
      simp only [move, PixelTranslation.move, if_neg still]
      exact .of_map _
    | spatial m =>
      simp only [move, SpatialTranslation.move, if_neg still]
      exact m.projection.pointwise_between (.of_map _)
    | tangential m =>
      simp only [move, Tangential.move, if_neg still]
      exact m.projection.pointwise_between (.of_map _)
    | rotational m =>
      simp only [move, Rotational.move, if_neg still]
      exact m.projection.pointwise_between (.of_map _)
    | plane m =>
      simp only [move, PlaneMotion.move, if_neg still]
      exact m.projection.pointwise_between (m.pointwise_ofPlane.comp (.comp (.of_map _) m.pointwise_toPlane))
    | geodesic m =>
      simp only [move, Geodesic.move, Geodesic.moveRotated, if_neg still]
      exact m.projection.pointwise_between (.comp (.of_map _) (.of_map _))

theorem movePoint_eq_of_get? {model : MotionModel α} {position motion center moved : Vec2 α}
    (cell : (model.move (.single position) motion center).get? 0 = some moved) :
    model.movePoint position motion center = moved := by
  rw [movePoint, Grid.get]
  exact Array.getElem_eq_iff.mpr cell

/-- A zero motion leaves every point in its place. -/
theorem movePoint_of_isZero (model : MotionModel α) {motion : Vec2 α} (still : motion.isZero = true)
    (position center : Vec2 α) : model.movePoint position motion center = position := by
  have stays : model.move (.single position) motion center = .single position := by
    cases model <;> exact if_pos still
  apply movePoint_eq_of_get?
  rw [stays]
  rfl

/-- Where a model moves directions, a point goes to the image of its moved direction. -/
theorem movePoint_eq_project [LawfulSub α] {model : MotionModel α} {motion center : Vec2 α} {p : Projection α}
    {f : Vec3 α → Vec3 α} (stages : ∀ g, model.move g motion center = p.projectGrid ((p.unprojectGrid g).map f))
    (position : Vec2 α) : model.movePoint position motion center = p.project (f (p.unproject position)) := by
  apply movePoint_eq_of_get?
  rw [stages]
  simp only [Projection.projectGrid_eq_map, Projection.unprojectGrid_eq_map, Grid.get?_map]
  rfl

/-- A block moves as each of its points does alone. -/
theorem move_eq_map (model : MotionModel α) (g : Grid (Vec2 α)) (motion center : Vec2 α) :
    model.move g motion center = g.map fun position => model.movePoint position motion center := by
  obtain ⟨f, stage⟩ := model.pointwise_move motion center
  have alone (position : Vec2 α) : model.movePoint position motion center = f position := by
    apply movePoint_eq_of_get?
    simp only [stage, Grid.get?_map]
    rfl
  simp only [stage, alone]

end MotionModel

/-- Every motion model, with a tabulated camera on the plane as well, moves a block point by point. -/
theorem motion_is_point_by_point :
    (∀ (model : MotionModel α) (motion center : Vec2 α), Grid.PointByPoint fun g => model.move g motion center) ∧
      ∀ (m : PlaneMotion α) (camera : TabulatedPerspective α) (motion : Vec2 α),
        Grid.PointByPoint fun g => m.moveTabulated camera g motion :=
  ⟨fun model motion center => (model.pointwise_move motion center).pointByPoint,
    fun m camera motion => (m.pointwise_moveTabulated camera motion).pointByPoint⟩

end SphereMotion
