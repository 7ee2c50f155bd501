import SphereMotion.Engine

namespace SphereMotion

variable {α : Type} [Scalar α]

inductive Request (α : Type) where
  | reproject (moved : MovedBlock) (model : ModelId) (pair : PicturePair)
  | convert (conversion : Conversion α)
  | addEpipole (epipole : Vec3 α) (pair : PicturePair) (isAvailable : Bool)
  | makeAvailable (current : Int32)

inductive Reply where
  | corners (moved : SubblockCorners)
  | vector (mv : MotionVector)
  | done
  | refused (cause : EngineError)

namespace Engine

/-- Answers a request. A refused request leaves the engine as it was. -/
def serve (e : Engine α) : Request α → Reply × Engine α
  | .reproject moved model pair =>
    match e.reproject moved model pair with
    | .ok (corners, e) => (.corners corners, e)
    | .error cause => (.refused cause, e)
  | .convert conversion =>
    match e.convert conversion with
    | .ok (mv, e) => (.vector mv, e)
    | .error cause => (.refused cause, e)
  | .addEpipole epipole pair isAvailable =>
    (.done, { e with epipoles := e.epipoles.add epipole pair isAvailable })
  | .makeAvailable current => (.done, { e with epipoles := e.epipoles.makeAvailable current })

def serveAll (e : Engine α) (requests : List (Request α)) : Engine α :=
  requests.foldl (fun e request => (e.serve request).2) e

@[simp] theorem serveAll_nil (e : Engine α) : e.serveAll [] = e := rfl

@[simp] theorem serveAll_cons (e : Engine α) (request : Request α) (rest : List (Request α)) :
    e.serveAll (request :: rest) = (e.serve request).2.serveAll rest := rfl

end Engine

end SphereMotion
