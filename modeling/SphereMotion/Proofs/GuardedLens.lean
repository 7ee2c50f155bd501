import Mathlib
import SphereMotion.Projection
import SphereMotion.Proofs.StoredTables

namespace SphereMotion

open Scalar

variable {α : Type} [Scalar α]

/-- Scalars for lenses: no square root is negative, and a table of a lens has some range. -/
class LawfulLens (α : Type) [Scalar α] : Prop where
  not_sqrt_lt_zero (x : α) : ¬sqrt x < 0
  maxAngle_pos : 0 < (CalibratedLens.maxAngle : α)

/-- Scalars whose arc cosines are not negative. Of doubles this is assumed and not proved: it is the
documented range of the library's arc cosine, which has no definition to prove it from. It is proved of
doubles that come with an arc cosine that is known, in `WithArccos`. -/
class LawfulArccos (α : Type) [Scalar α] : Prop where
  not_acos_lt_zero (x : α) : ¬acos x < 0

instance : LawfulLens Double where
  not_sqrt_lt_zero x negative := by
    rw [LawfulOrder.lt_iff, RealValued.value_zero] at negative
    exact Binary64.not_less_sqrt x.value.toModel negative
  maxAngle_pos := by decide

/-- A function that is nowhere negative is not so outside of its domain either. -/
theorem Exact.not_liftOn_lt_zero {domain : ℝ → Prop} {f : ℝ → ℝ} (nonneg : ∀ a, 0 ≤ f a) (x : Exact) :
    ¬liftOn domain f x < 0 := by
  intro negative
  cases x with
  | undefined => exact negative
  | real a =>
    rw [liftOn] at negative
    split at negative
    · rw [real_lt_zero] at negative
      exact absurd negative (not_lt.mpr (nonneg a))
    · exact negative

instance : LawfulLens Exact where
  not_sqrt_lt_zero := Exact.not_liftOn_lt_zero Real.sqrt_nonneg
  maxAngle_pos := by
    have angle : (CalibratedLens.maxAngle : Exact) = .real (Real.pi / 2 + Real.pi / 18) := by
      simp only [CalibratedLens.maxAngle, Exact.ofNat_eq, Exact.pi_eq]
      rw [Exact.real_div (by norm_num), Exact.real_div (by norm_num), Exact.real_add]
      norm_num
    rw [angle, Exact.zero_lt_real]
    positivity

instance : LawfulArccos Exact := ⟨Exact.not_liftOn_lt_zero Real.arccos_nonneg⟩

namespace Lens

/-- The image radius, looked up in the table that is stored. There is none if the angle is refused or a sample is
missing. -/
def radius? (lens : Lens α) (angle : α) : Option α :=
  match lens with
  | equisolid _ => some (lens.radius angle)
  | calibrated c => (lens.checkedRadius angle).toOption.bind fun _ => c.table.lookup? angle

/-- The polar angle, looked up in the table that is stored. There is none if the radius is refused or a sample is
missing. -/
def angle? (lens : Lens α) (radius : α) : Option α :=
  match lens with
  | equisolid _ => some (lens.angle radius)
  | calibrated c => (lens.checkedAngle radius).toOption.bind fun _ => c.table.inverseLookup? radius

/-- A lens with no more samples than scalars can count. -/
def Countable : Lens α → Prop
  | equisolid _ => True
  | calibrated c => c.table.samples ≤ 2 ^ 53

theorem radius?_eq [RealValued α] [LawfulOrder α] [LawfulInfinities α] {lens : Lens α} (countable : lens.Countable)
    {angle : α} (accepted : ¬angle < 0) : lens.radius? angle = some (lens.radius angle) := by
  cases lens with
  | equisolid f => rfl
  | calibrated c =>
    rw [radius?, checkedRadius, if_neg accepted]
    exact c.table.lookup?_eq countable angle

theorem angle?_eq (lens : Lens α) {radius : α} (accepted : ¬radius < 0) :
    lens.angle? radius = some (lens.angle radius) := by
  cases lens with
  | equisolid f => rfl
  | calibrated c =>
    rw [angle?, checkedAngle, if_neg accepted]
    exact c.table.inverseLookup?_eq radius

end Lens

/-- No polar angle is negative, be the direction defined or not. -/
theorem Vec3.not_polar_lt_zero [RealValued α] [LawfulOrder α] [LawfulArccos α] (v : Vec3 α) :
    ¬v.toSpherical.polar < 0 := by
  rw [toSpherical]
  dsimp only
  split
  · rw [LawfulOrder.lt_iff, RealValued.value_zero]
    exact lt_irrefl _
  · exact LawfulArccos.not_acos_lt_zero _

theorem Vec2.not_radius_lt_zero [LawfulLens α] (p : Vec2 α) : ¬p.toPolar.radius < 0 := LawfulLens.not_sqrt_lt_zero _

/-- The entries of a grid, if all of them are told. -/
def Grid.whole? {β : Type} (g : Grid (Option β)) : Option (Grid β) :=
  if told : ∀ i (inside : i < g.entries.size), (g.entries[i]).isSome = true then
    some ⟨g.rows, g.cols, Array.ofFn fun i : Fin g.entries.size => (g.entries[i]).get (told i i.isLt),
      by rw [Array.size_ofFn, g.size_entries]⟩
  else none

theorem Grid.whole?_map_some {β γ : Type} (f : β → γ) (g : Grid β) :
    (g.map fun entry => some (f entry)).whole? = some (g.map f) := by
  have told : ∀ i (inside : i < (g.map fun entry => some (f entry)).entries.size),
      ((g.map fun entry => some (f entry)).entries[i]).isSome = true := by
    intro i inside
    simp only [map, Array.getElem_map, Option.isSome_some]
  rw [whole?, dif_pos told]
  refine congrArg some (ext rfl rfl (Array.ext ?_ fun i inside inside' => ?_))
  · simp only [map, Array.size_ofFn, Array.size_map]
  · simp only [map, Array.getElem_ofFn, Array.getElem_map, Fin.getElem_fin, Option.get_some]

namespace LensProjection

def unproject? (p : LensProjection α) (point : Vec2 α) : Option (Vec3 α) :=
  let polar := (point - p.center).toPolar
  (p.lens.angle? polar.radius).map fun angle => (Spherical.direction angle polar.azimuth).ofCamera

def project? (p : LensProjection α) (v : Vec3 α) : Option (Vec2 α) :=
  let s := v.toCamera.toSpherical
  (p.lens.radius? s.polar).map fun radius => Polar.toVec2 ⟨radius, s.azimuth⟩ + p.center

def unprojectGrid? (p : LensProjection α) (g : Grid (Vec2 α)) : Option (Grid (Vec3 α)) :=
  Grid.whole? <| ((g.translated (-p.center)).map Vec2.toPolar).map fun polar =>
    (p.lens.angle? polar.radius).map fun angle => (Spherical.direction angle polar.azimuth).ofCamera

def projectGrid? (p : LensProjection α) (g : Grid (Vec3 α)) : Option (Grid (Vec2 α)) :=
  Grid.whole? <| ((g.map Vec3.toCamera).map Vec3.toSpherical).map fun s =>
    (p.lens.radius? s.polar).map fun radius => Polar.toVec2 ⟨radius, s.azimuth⟩ + p.center

end LensProjection

namespace Projection

/-- The direction that is seen at a point, by a lens that may refuse to tell. -/
def unproject? : Projection α → Vec2 α → Option (Vec3 α)
  | lens p, point => p.unproject? point
  | panorama p, point => some (p.unproject point)

def project? : Projection α → Vec3 α → Option (Vec2 α)
  | lens p, v => p.project? v
  | panorama p, v => some (p.project v)

def unprojectGrid? : Projection α → Grid (Vec2 α) → Option (Grid (Vec3 α))
  | lens p, g => p.unprojectGrid? g
  | panorama p, g => some (g.map p.unproject)

def projectGrid? : Projection α → Grid (Vec3 α) → Option (Grid (Vec2 α))
  | lens p, g => p.projectGrid? g
  | panorama p, g => some (g.map p.project)

/-- A projection that tells every point and every direction. -/
structure Total (p : Projection α) : Prop where
  unproject (point : Vec2 α) : p.unproject? point = some (p.unproject point)
  project (v : Vec3 α) : p.project? v = some (p.project v)
  unprojectGrid (g : Grid (Vec2 α)) : p.unprojectGrid? g = some (p.unprojectGrid g)
  projectGrid (g : Grid (Vec3 α)) : p.projectGrid? g = some (p.projectGrid g)

theorem Total.panorama (p : Panorama α) : (Projection.panorama p).Total :=
  ⟨fun _ => rfl, fun _ => rfl, fun g => congrArg some (p.unprojectGrid_eq_map g).symm,
    fun g => congrArg some (p.projectGrid_eq_map g).symm⟩

theorem Total.lens [RealValued α] [LawfulOrder α] [LawfulInfinities α] [LawfulLens α] [LawfulArccos α]
    {p : LensProjection α} (countable : p.lens.Countable) : (Projection.lens p).Total := by
  have told (polar : Vec2 α) : p.lens.angle? polar.toPolar.radius = some (p.lens.angle polar.toPolar.radius) :=
    p.lens.angle?_eq polar.not_radius_lt_zero
  have seen (v : Vec3 α) : p.lens.radius? v.toSpherical.polar = some (p.lens.radius v.toSpherical.polar) :=
    Lens.radius?_eq countable v.not_polar_lt_zero
  refine ⟨fun point => ?_, fun v => ?_, fun g => ?_, fun g => ?_⟩
  · rw [unproject?, LensProjection.unproject?, told]
    rfl
  · rw [project?, LensProjection.project?, seen]
    rfl
  · simp only [unprojectGrid?, LensProjection.unprojectGrid?, Projection.unprojectGrid,
      LensProjection.unprojectGrid, Grid.map_map, Function.comp_def, told, Option.map_some, Grid.whole?_map_some]
  · simp only [projectGrid?, LensProjection.projectGrid?, Projection.projectGrid, LensProjection.projectGrid,
      Grid.translated, Grid.map_map, Function.comp_def, seen, Option.map_some, Grid.whole?_map_some]

end Projection

/-- A lens has the samples that were asked for. -/
theorem CalibratedLens.samples_of_build {coefficients : List α} {samples : Nat} {lens : CalibratedLens α}
    (made : build coefficients samples = .ok lens) : lens.table.samples = samples := by
  unfold build at made
  split at made
  next constant linear higher =>
    split at made
    next positive =>
      unfold SampledTable.sample at made
      split at made
      next enough =>
        split at made
        next range =>
          cases made
          rfl
        next => cases made
      next => cases made
    next => cases made
  next => cases made

/-- A lens with a positive linear coefficient is built from two samples or more. -/
theorem CalibratedLens.exists_build [LawfulLens α] (constant : α) {linear : α} (higher : List α) {samples : Nat}
    (positive : 0 < linear) (enough : 2 ≤ samples) :
    ∃ lens, build (constant :: linear :: higher) samples = .ok lens := by
  have range : (0 : α) < maxAngle := LawfulLens.maxAngle_pos
  rw [build, dif_pos positive, SampledTable.sample, dif_pos enough, dif_pos range]
  exact ⟨_, rfl⟩

/-- A projection that is built is total. -/
theorem ProjectionParams.total_of_build [RealValued α] [LawfulOrder α] [LawfulInfinities α] [LawfulLens α]
    [LawfulArccos α] {params : ProjectionParams α} {samples : Nat} {p : Projection α}
    (built : params.build samples = .ok p) (few : samples ≤ 2 ^ 53) : p.Total := by
  cases params with
  | equisolid focalLength centerX centerY =>
    cases built
    exact .lens trivial
  | equirectangular width height offset =>
    cases built
    exact .panorama _
  | calibrated coefficients centerX centerY =>
    cases made : CalibratedLens.build coefficients samples with
    | error cause => rw [build, made] at built; cases built
    | ok lens =>
      rw [build, made] at built
      cases built
      have countable : (Lens.calibrated lens).Countable := (CalibratedLens.samples_of_build made).trans_le few
      exact .lens countable

end SphereMotion
