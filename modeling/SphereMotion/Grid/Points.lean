import SphereMotion.Coordinates
import SphereMotion.Fault
import SphereMotion.Grid

namespace SphereMotion.Grid

open Scalar

variable {α : Type} [Scalar α]

/-- The entry at a linear index. In a grid without rows no index can be split into row and column, unless there
is a single column to look in. -/
def point {β : Type} (g : Grid β) (i : Nat) : Except Fault β :=
  match g.get? i with
  | some entry => .ok entry
  | none => .error (if g.rows = 0 ∧ g.cols ≠ 1 then .noRows else .indexOutsideGrid)

/-- The regular lattice `(x₀ + col * stepX, y₀ + row * stepY)`. -/
def lattice (rows cols : Nat) (start step : Vec2 α) : Grid (Vec2 α) :=
  build rows cols fun row col => ⟨start.x + ofInt col * step.x, start.y + ofInt row * step.y⟩

def translated (g : Grid (Vec2 α)) (offset : Vec2 α) : Grid (Vec2 α) := g.map (· + offset)

@[simp] theorem rows_translated (g : Grid (Vec2 α)) (offset : Vec2 α) : (g.translated offset).rows = g.rows := rfl

@[simp] theorem cols_translated (g : Grid (Vec2 α)) (offset : Vec2 α) : (g.translated offset).cols = g.cols := rfl

def planar (x y : Grid α) : Except Fault (Grid (Vec2 α)) :=
  match zipWith? Vec2.mk x y with
  | some points => .ok points
  | none => .error .planarShapesDiffer

def cartesian (x y z : Grid α) : Except Fault (Grid (Vec3 α)) :=
  match (zipWith? Vec3.mk x y).bind (zipWith? (fun upTo z => upTo z) · z) with
  | some directions => .ok directions
  | none => .error .cartesianShapesDiffer

end SphereMotion.Grid
