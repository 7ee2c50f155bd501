import SphereMotion.Scalar

namespace SphereMotion

open Scalar

/-- A point or displacement in a plane, `x` to the right and `y` down. -/
@[ext] structure Vec2 (α : Type) where
  x : α
  y : α

@[ext] structure Vec3 (α : Type) where
  x : α
  y : α
  z : α

/-- A 3×3 matrix, given by its rows. -/
@[ext] structure Mat3 (α : Type) where
  row₁ : Vec3 α
  row₂ : Vec3 α
  row₃ : Vec3 α

variable {α : Type} [Scalar α]

namespace Vec2

instance : Add (Vec2 α) := ⟨fun p q => ⟨p.x + q.x, p.y + q.y⟩⟩

instance : Sub (Vec2 α) := ⟨fun p q => ⟨p.x - q.x, p.y - q.y⟩⟩

instance : Neg (Vec2 α) := ⟨fun p => ⟨-p.x, -p.y⟩⟩

def scale (p : Vec2 α) (factor : α) : Vec2 α := ⟨p.x * factor, p.y * factor⟩

def unscale (p : Vec2 α) (divisor : α) : Vec2 α := ⟨p.x / divisor, p.y / divisor⟩

def origin : Vec2 α := ⟨0, 0⟩

def isZero (p : Vec2 α) : Bool := p.x == 0 && p.y == 0

end Vec2

namespace Vec3

instance : Add (Vec3 α) := ⟨fun v w => ⟨v.x + w.x, v.y + w.y, v.z + w.z⟩⟩

instance : Sub (Vec3 α) := ⟨fun v w => ⟨v.x - w.x, v.y - w.y, v.z - w.z⟩⟩

instance : Neg (Vec3 α) := ⟨fun v => ⟨-v.x, -v.y, -v.z⟩⟩

def map {β : Type} (f : α → β) (v : Vec3 α) : Vec3 β := ⟨f v.x, f v.y, f v.z⟩

def scale (v : Vec3 α) (factor : α) : Vec3 α := ⟨v.x * factor, v.y * factor, v.z * factor⟩

def unscale (v : Vec3 α) (divisor : α) : Vec3 α := ⟨v.x / divisor, v.y / divisor, v.z / divisor⟩

def dot (v w : Vec3 α) : α := v.x * w.x + v.y * w.y + v.z * w.z

def cross (v w : Vec3 α) : Vec3 α :=
  ⟨v.y * w.z - v.z * w.y, v.z * w.x - v.x * w.z, v.x * w.y - v.y * w.x⟩

def normSquared (v : Vec3 α) : α := v.dot v

def norm (v : Vec3 α) : α := sqrt v.normSquared

def normalize (v : Vec3 α) : Vec3 α := v.unscale v.norm

def zero : Vec3 α := ⟨0, 0, 0⟩

def unitX : Vec3 α := ⟨1, 0, 0⟩

def unitY : Vec3 α := ⟨0, 1, 0⟩

def unitZ : Vec3 α := ⟨0, 0, 1⟩

def same (v w : Vec3 α) : Bool := Scalar.same v.x w.x && Scalar.same v.y w.y && Scalar.same v.z w.z

end Vec3

namespace Mat3

def identity : Mat3 α := ⟨.unitX, .unitY, .unitZ⟩

def ofColumns (u v w : Vec3 α) : Mat3 α := ⟨⟨u.x, v.x, w.x⟩, ⟨u.y, v.y, w.y⟩, ⟨u.z, v.z, w.z⟩⟩

def transpose (m : Mat3 α) : Mat3 α := ofColumns m.row₁ m.row₂ m.row₃

def apply (m : Mat3 α) (v : Vec3 α) : Vec3 α := ⟨m.row₁.dot v, m.row₂.dot v, m.row₃.dot v⟩

def mul (m n : Mat3 α) : Mat3 α :=
  let columns := n.transpose
  ⟨columns.apply m.row₁, columns.apply m.row₂, columns.apply m.row₃⟩

end Mat3

end SphereMotion
