import SphereMotion.Engine
import SphereMotion.Json.Reader
import SphereMotion.Scalar.Double
import SphereMotion.ViewportEngine

namespace SphereMotion

open Scalar

def Json.double? (json : Json) : Option Double := json.float?.map Double.ofFloat

/-- The name of the flag that switches a model on. The classic model has none because it is always active. -/
def ModelId.flagName? : ModelId → Option String
  | .classic => none
  | .spatial => some "translational_3d"
  | id => some id.name

namespace ActiveModels

def flagNames : List String := ModelId.all.filterMap ModelId.flagName?

def ofJson? (json : Json) : Option ActiveModels := do
  let flags ← (← json.record? flagNames).mapM fun flag => match flag with
    | some value => value.bool?
    | none => some false
  some (.ofChoice fun id => ((flagNames.zip flags).lookup (id.flagName?.getD "")).getD false)

def toJson (active : ActiveModels) : Json :=
  .object (ModelId.all.filterMap fun id => id.flagName?.map fun name => (some name, .ofBool (active.contains id)))

end ActiveModels

namespace GeodesicFlavor

def name : GeodesicFlavor → String
  | linear => "vishwanath_original"
  | modulated => "vishwanath_modulated"

def ofName? (s : String) : Option GeodesicFlavor := [linear, modulated].find? (·.name == s)

/-- A flavor is written by its name, or as an object that has the name as its only key and no content. -/
def ofJson? : Json → Option GeodesicFlavor
  | .text s => s.bind ofName?
  | .object [(key, .null)] => key.bind ofName?
  | _ => none

end GeodesicFlavor

namespace Config

def ofJson? (json : Json) : Option Config := do
  let default : Config := {}
  let [active, flavor, offset] ← json.record? ["active", "geodesic_flavor", "subblock_offset"] | none
  let active ← active.elim (some default.active) ActiveModels.ofJson?
  let flavor ← flavor.elim (some default.flavor) GeodesicFlavor.ofJson?
  let offsetIndex ← offset.elim (some default.offsetIndex) (Json.nat? 255)
  some { active, flavor, offsetIndex }

def toJson (config : Config) : Json :=
  .object [(some "active", config.active.toJson), (some "geodesic_flavor", .ofString config.flavor.name),
    (some "subblock_offset", .number (.ofInt config.offsetIndex))]

end Config

namespace ProjectionParams

/-- How deep a projection may nest. A setup may nest one deeper. -/
def maxDepth : Nat := 126

/-- The type of a projection and the rest of it. The type is the member `type` of an object or the first item
of a list. -/
def split? : Json → Option (String × Json)
  | .list (kind :: items) => do some (← kind.string?, .list items)
  | .object members =>
    match members.partition (·.1 == some "type") with
    | ([(_, kind)], rest) => do some (← kind.string?, .object rest)
    | _ => none
  | _ => none

/-- Reads a projection. Unknown members are ignored but have to be sound values. -/
def ofJson? (json : Json) : Option (ProjectionParams Double) := do
  if !json.isPlain maxDepth then none
  let (kind, rest) ← split? json
  if kind = "equisolid" then
    let [some f, some x, some y] ← rest.record? ["focal_length", "center_x", "center_y"] | none
    some (.equisolid (← f.double?) (← x.double?) (← y.double?))
  else if kind = "calibrated" then
    let [some coefficients, some x, some y] ← rest.record? ["coefficients", "center_x", "center_y"] | none
    some (.calibrated (← (← coefficients.list?).mapM Json.double?) (← x.double?) (← y.double?))
  else if kind = "equirectangular" then
    let [some width, some height, offset] ← rest.record? ["width", "height", "offset"] | none
    some (.equirectangular (← width.double?) (← height.double?) (← offset.elim (some (1 / 2)) Json.double?))
  else none

end ProjectionParams

/-- An entry of the epipole list that an engine starts with. -/
structure EpipoleSeed (α : Type) where
  pair : PicturePair
  epipole : Vec3 α
  isAvailable : Bool

structure Setup (α : Type) where
  projection : ProjectionParams α
  width : Nat
  height : Nat
  config : Config
  epipoles : List (EpipoleSeed α)

inductive SetupError where
  | malformed
  | invalidConfig (cause : ConfigError)
  | focalLength
  | linearCoefficient
  | panoramaSize
  deriving DecidableEq, Repr

def SetupError.message : SetupError → String
  | malformed => "failed to parse reprojection setup"
  | invalidConfig cause => "invalid reprojection configuration: " ++ cause.message
  | focalLength => "focal length must be positive"
  | linearCoefficient => "calibrated polynomial needs a positive linear coefficient"
  | panoramaSize => "panorama size must be positive"

inductive BuildError where
  | config (cause : ConfigError)
  | fault (cause : Fault)
  deriving DecidableEq, Repr

def BuildError.message : BuildError → String
  | config cause => cause.message
  | fault cause => cause.message

namespace EpipoleSeed

def pictureCount? (json : Option Json) : Option Int32 :=
  json.elim (some PicturePair.anyPicture) fun value =>
    (value.int? Int32.minValue.toInt Int32.maxValue.toInt).map Int32.ofInt

def ofJson? (json : Json) : Option (EpipoleSeed Double) := do
  let [current, reference, some epipole, available] ←
    json.record? ["cur_poc", "ref_poc", "epipole", "available"] | none
  let [x, y, z] ← epipole.list? | none
  some {
    pair := ⟨← pictureCount? current, ← pictureCount? reference⟩
    epipole := ⟨← x.double?, ← y.double?, ← z.double?⟩
    isAvailable := ← available.elim (some false) Json.bool? }

end EpipoleSeed

namespace Setup

def ofJson? (json : Json) : Option (Setup Double) := do
  let [some projection, some width, some height, config, epipoles] ←
    json.record? ["projection", "width", "height", "reprojection", "epipoles"] | none
  some {
    projection := ← ProjectionParams.ofJson? projection
    width := ← width.nat? (UInt64.size - 1)
    height := ← height.nat? (UInt64.size - 1)
    config := ← config.elim (some {}) Config.ofJson?
    epipoles := ← (← epipoles.elim (some []) Json.list?).mapM EpipoleSeed.ofJson? }

variable {α : Type} [Scalar α]

/-- Checks what the types leave open: first the sub-block offset, then the projection. -/
def check (setup : Setup α) : Except SetupError Unit := do
  match (Config.offset setup.config.offsetIndex : Except ConfigError α) with
  | .ok _ => pure ()
  | .error cause => .error (.invalidConfig cause)
  match setup.projection with
  | .equisolid f _ _ => if 0 < f then pure () else .error .focalLength
  | .calibrated (_ :: linear :: _) _ _ => if 0 < linear then pure () else .error .linearCoefficient
  | .calibrated .. => .error .linearCoefficient
  | .equirectangular width height _ => if 0 < width ∧ 0 < height then pure () else .error .panoramaSize

def load (text : String) : Except SetupError (Setup Double) :=
  match (Json.read? text).bind ofJson? with
  | some setup => do setup.check; return setup
  | none => .error .malformed

/-- The epipole list that an engine starts with: the later of two entries for one pair stays. -/
def epipoleList (setup : Setup α) : EpipoleList :=
  setup.epipoles.foldl (fun list seed => list.add seed.epipole seed.pair seed.isAvailable) .initial

def engine (setup : Setup α) : Except BuildError (Engine α) := do
  let projection ← (setup.projection.build CalibratedLens.defaultSamples).mapError .fault
  (Engine.build projection setup.width setup.height setup.config setup.epipoleList).mapError .config

def viewportEngine (setup : Setup α) : Except BuildError (ViewportEngine α) := do
  let projection ← (setup.projection.build CalibratedLens.defaultSamples).mapError .fault
  (ViewportEngine.build projection setup.width setup.height setup.config.offsetIndex).mapError .config

end Setup

end SphereMotion
