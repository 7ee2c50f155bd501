namespace SphereMotion

/-- A call whose arguments break a precondition of the operation itself. -/
inductive Fault where
  | windowOutsideGrid
  | indexOutsideGrid
  | noRows
  | planarShapesDiffer
  | cartesianShapesDiffer
  | tooFewSamples (samples : Nat)
  | emptyRange
  | linearCoefficient
  | negativeAngle
  | negativeRadius
  deriving DecidableEq, Repr

def Fault.message : Fault → String
  | windowOutsideGrid => "Matrix slicing out of bounds."
  | indexOutsideGrid => "Matrix index out of bounds."
  | noRows => "attempt to calculate the remainder with a divisor of zero"
  | planarShapesDiffer => "planar grid components differ in shape"
  | cartesianShapesDiffer => "cartesian grid components differ in shape"
  | tooFewSamples samples => "lookup table needs at least 2 samples, got " ++ toString samples
  | emptyRange => "lookup table range is empty"
  | linearCoefficient => "calibrated polynomial needs a positive linear coefficient"
  | negativeAngle => "calibrated radius needs theta >= 0"
  | negativeRadius => "calibrated theta needs radius >= 0"

end SphereMotion
