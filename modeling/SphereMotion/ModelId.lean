import SphereMotion.Motion.Plane

namespace SphereMotion

/-- The motion models that a block can choose from. -/
inductive ModelId where
  | classic
  | planeFrontBack
  | planeLeftRight
  | planeTopBottom
  | spatial
  | tangential
  | rotational
  | geodesicCameraPose
  | geodesicX
  | geodesicY
  | geodesicZ
  deriving DecidableEq, Repr

namespace ModelId

/-- The models in the order of their indices. -/
def all : List ModelId :=
  [classic, planeFrontBack, planeLeftRight, planeTopBottom, spatial, tangential, rotational, geodesicCameraPose,
    geodesicX, geodesicY, geodesicZ]

/-- The index that stands for a model in a bit stream. -/
def index (id : ModelId) : Nat := all.idxOf id

def ofIndex? (index : Nat) : Option ModelId := all[index]?

def name : ModelId → String
  | classic => "classic"
  | planeFrontBack => "mpa_front_back"
  | planeLeftRight => "mpa_left_right"
  | planeTopBottom => "mpa_top_bottom"
  | spatial => "translational3d"
  | tangential => "tangential"
  | rotational => "rotational"
  | geodesicCameraPose => "geodesic_camera_pose"
  | geodesicX => "geodesic_x"
  | geodesicY => "geodesic_y"
  | geodesicZ => "geodesic_z"

def ofName? (name : String) : Option ModelId := all.find? (·.name == name)

/-- The name used in messages. -/
def label : ModelId → String
  | classic => "Classic"
  | planeFrontBack => "MpaFrontBack"
  | planeLeftRight => "MpaLeftRight"
  | planeTopBottom => "MpaTopBottom"
  | spatial => "Translational3d"
  | tangential => "Tangential"
  | rotational => "Rotational"
  | geodesicCameraPose => "GeodesicCameraPose"
  | geodesicX => "GeodesicX"
  | geodesicY => "GeodesicY"
  | geodesicZ => "GeodesicZ"

def plane? : ModelId → Option MotionPlane
  | planeFrontBack => some .frontBack
  | planeLeftRight => some .leftRight
  | planeTopBottom => some .topBottom
  | _ => none

def isGeodesic : ModelId → Bool
  | geodesicCameraPose | geodesicX | geodesicY | geodesicZ => true
  | _ => false

/-- The epipole of a geodesic model that is bound to an axis. -/
def fixedEpipole? {α : Type} [Scalar α] : ModelId → Option (Vec3 α)
  | geodesicX => some .unitX
  | geodesicY => some .unitY
  | geodesicZ => some .unitZ
  | _ => none

end ModelId

end SphereMotion
