import SphereMotion.ModelId
import SphereMotion.Motion.Geodesic

namespace SphereMotion

inductive ConfigError where
  | invalidOffset (offset : Nat)
  | unknownModel (index : Nat)
  | invalidResolution (width height : Nat)
  deriving DecidableEq, Repr

def ConfigError.message : ConfigError → String
  | invalidOffset offset => s!"sub-block offset must be in 0..=4, got {offset}"
  | unknownModel index => s!"unknown motion model id {index}"
  | invalidResolution width height => s!"picture size {width}x{height} must be a non-zero multiple of 4"

def ModelId.ofIndex (index : Nat) : Except ConfigError ModelId :=
  match ofIndex? index with
  | some id => .ok id
  | none => .error (.unknownModel index)

/-- The motion models switched on besides the classic one. -/
structure ActiveModels where
  planeFrontBack : Bool := false
  planeLeftRight : Bool := false
  planeTopBottom : Bool := false
  spatial : Bool := false
  tangential : Bool := false
  rotational : Bool := false
  geodesicCameraPose : Bool := false
  geodesicX : Bool := false
  geodesicY : Bool := false
  geodesicZ : Bool := false
  deriving DecidableEq, Repr

namespace ActiveModels

def ofChoice (choice : ModelId → Bool) : ActiveModels where
  planeFrontBack := choice .planeFrontBack
  planeLeftRight := choice .planeLeftRight
  planeTopBottom := choice .planeTopBottom
  spatial := choice .spatial
  tangential := choice .tangential
  rotational := choice .rotational
  geodesicCameraPose := choice .geodesicCameraPose
  geodesicX := choice .geodesicX
  geodesicY := choice .geodesicY
  geodesicZ := choice .geodesicZ

def everything : ActiveModels := ofChoice fun _ => true

def contains (active : ActiveModels) : ModelId → Bool
  | .classic => true
  | .planeFrontBack => active.planeFrontBack
  | .planeLeftRight => active.planeLeftRight
  | .planeTopBottom => active.planeTopBottom
  | .spatial => active.spatial
  | .tangential => active.tangential
  | .rotational => active.rotational
  | .geodesicCameraPose => active.geodesicCameraPose
  | .geodesicX => active.geodesicX
  | .geodesicY => active.geodesicY
  | .geodesicZ => active.geodesicZ

/-- The active models in the order of their indices. -/
def toList (active : ActiveModels) : List ModelId := ModelId.all.filter active.contains

end ActiveModels

structure Config where
  active : ActiveModels := {}
  flavor : GeodesicFlavor := .modulated
  /-- The place of the motion sample inside its sub-block, see `Config.offset`. -/
  offsetIndex : Nat := 2
  deriving DecidableEq, Repr

/-- The distance of the motion sample from the corner of its sub-block: 0 to 3 are whole samples and 4 stands
for one and a half. -/
def Config.offset {α : Type} [Scalar α] (offsetIndex : Nat) : Except ConfigError α :=
  if offsetIndex ≤ 3 then .ok (Scalar.ofInt offsetIndex)
  else if offsetIndex = 4 then .ok (Scalar.ofInt 3 / Scalar.ofInt 2)
  else .error (.invalidOffset offsetIndex)

end SphereMotion
