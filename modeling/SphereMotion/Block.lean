import SphereMotion.MotionVector

namespace SphereMotion

structure Block where
  x : Nat
  y : Nat
  width : Nat
  height : Nat
  deriving DecidableEq, Repr

inductive Component where
  | y
  | cb
  | cr
  deriving DecidableEq, Repr

def Component.isLuma : Component → Bool
  | y => true
  | cb | cr => false

def Component.label : Component → String
  | y => "Y"
  | cb => "Cb"
  | cr => "Cr"

/-- How densely the chroma components are sampled. -/
inductive ChromaFormat where
  | yuv400
  | yuv420
  | yuv422
  | yuv444
  deriving DecidableEq, Repr

namespace ChromaFormat

/-- The power of two by which chroma has fewer columns than luma. -/
def shiftX : ChromaFormat → Nat
  | yuv420 | yuv422 => 1
  | yuv400 | yuv444 => 0

/-- The power of two by which chroma has fewer rows than luma. -/
def shiftY : ChromaFormat → Nat
  | yuv420 => 1
  | yuv400 | yuv422 | yuv444 => 0

def hasChroma : ChromaFormat → Bool
  | yuv400 => false
  | _ => true

end ChromaFormat

/-- A block together with the luma motion vector it is to be moved by. -/
structure MovedBlock where
  block : Block
  vector : MotionVector
  precision : Nat
  component : Component
  chroma : ChromaFormat
  deriving DecidableEq, Repr

end SphereMotion
