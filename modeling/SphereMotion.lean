import SphereMotion.Json.Printer
import SphereMotion.Request
import SphereMotion.Setup
import SphereMotion.Proofs.Binary64
import SphereMotion.Proofs.ScalarLaws
import SphereMotion.Proofs.CachedMotion
import SphereMotion.Proofs.Memoryless
import SphereMotion.Proofs.History
import SphereMotion.Proofs.Viewports
import SphereMotion.Proofs.PointForms
import SphereMotion.Proofs.Pointwise
import SphereMotion.Proofs.Halves
import SphereMotion.Proofs.BlockSamples
import SphereMotion.Proofs.FullChroma
import SphereMotion.Proofs.RealValues
import SphereMotion.Proofs.Rounding
import SphereMotion.Proofs.FloatOperations
import SphereMotion.Proofs.DoubleArithmetic
import SphereMotion.Proofs.ExactReal
import SphereMotion.Proofs.ExactSphere
import SphereMotion.Proofs.ExactPanorama
import SphereMotion.Proofs.FixedPoints
import SphereMotion.Proofs.Splitting
import SphereMotion.Proofs.Displacement
import SphereMotion.Proofs.RoundedShift
import SphereMotion.Proofs.BlockConversion
import SphereMotion.Proofs.ValueOrder
import SphereMotion.Proofs.ExactUnits
import SphereMotion.Proofs.Remainders
import SphereMotion.Proofs.WrappedAngles
import SphereMotion.Proofs.EpipoleHistory
import SphereMotion.Proofs.InPlaceCalls
import SphereMotion.Proofs.Refusals
import SphereMotion.Proofs.PlainTranslation
import SphereMotion.Proofs.StoredTables
import SphereMotion.Proofs.GuardedLens
import SphereMotion.Proofs.KnownArccos
import SphereMotion.Proofs.GuardedMotion
import SphereMotion.Proofs.NoFault
import SphereMotion.Proofs.RoundTrip
import SphereMotion.Proofs.PinholeImages
import SphereMotion.Proofs.PlaneShift
import SphereMotion.Proofs.ExactTables
import SphereMotion.Proofs.SampledPinhole
import SphereMotion.Proofs.OrthonormalFrames
import SphereMotion.Proofs.ReturningPoints
import SphereMotion.Proofs.SpatialShift
import SphereMotion.Proofs.TangentShift
import SphereMotion.Proofs.EpipoleAngles
import SphereMotion.Proofs.GeodesicShift
import SphereMotion.Proofs.EpipolePrediction
import SphereMotion.Proofs.ExactWords
import SphereMotion.Proofs.FinerPrecision
import SphereMotion.Proofs.RotationShift
import SphereMotion.Proofs.CalibratedRoundTrip
import SphereMotion.Proofs.SampledRoundTrip
import SphereMotion.Proofs.PoleFrames
import SphereMotion.Proofs.PanoramaShift
import SphereMotion.Proofs.ParallaxFlow
import SphereMotion.Proofs.Overshoot
import SphereMotion.Proofs.AxisEpipoles
import SphereMotion.Proofs.BlockLattice
import SphereMotion.Proofs.CenterFrames
import SphereMotion.Proofs.AzimuthBranches
