import Mathlib
import SphereMotion.Proofs.ReturningPoints
import SphereMotion.Proofs.TangentFrames

namespace SphereMotion

open Scalar
open Exact (real)

noncomputable instance : Module ℝ (Vec3 ℝ) where
  smul := Vec3.scaled
  one_smul := Vec3.scaled_one
  mul_smul k l v := (Vec3.scaled_scaled k l v).symm
  smul_zero k := Vec3.ext (mul_zero k) (mul_zero k) (mul_zero k)
  smul_add k v w := Vec3.ext (mul_add k v.x w.x) (mul_add k v.y w.y) (mul_add k v.z w.z)
  add_smul k l v := Vec3.ext (add_mul k l v.x) (add_mul k l v.y) (add_mul k l v.z)
  zero_smul v := Vec3.ext (zero_mul v.x) (zero_mul v.y) (zero_mul v.z)

/-- Whether some coordinate is undefined. -/
def Vec3.HasUndefined {α : Type} [Scalar α] (v : Vec3 α) : Prop :=
  isUndefined v.x = true ∨ isUndefined v.y = true ∨ isUndefined v.z = true

/-- Whether some entry is undefined. -/
def Mat3.HasUndefined {α : Type} [Scalar α] (m : Mat3 α) : Prop :=
  m.row₁.HasUndefined ∨ m.row₂.HasUndefined ∨ m.row₃.HasUndefined

namespace Vec3

theorem hasUndefined_iff {v : Vec3 Exact} :
    v.HasUndefined ↔ v.x = .undefined ∨ v.y = .undefined ∨ v.z = .undefined := by
  have undefined (x : Exact) : isUndefined x = true ↔ x = .undefined := by cases x <;> simp
  rw [HasUndefined, undefined, undefined, undefined]

theorem exists_exact_or_hasUndefined (v : Vec3 Exact) : (∃ w : Vec3 ℝ, v = w.exact) ∨ v.HasUndefined := by
  rw [hasUndefined_iff]
  obtain ⟨_ | x, _ | y, _ | z⟩ := v
  case real.real.real => exact .inl ⟨⟨x, y, z⟩, rfl⟩
  all_goals simp

namespace HasUndefined

variable {v : Vec3 Exact} (lost : v.HasUndefined)
include lost

theorem ofCamera : v.ofCamera.HasUndefined := by
  rw [hasUndefined_iff] at lost ⊢
  rcases lost with x | y | z
  · exact .inr (.inl (congrArg Neg.neg x))
  · exact .inr (.inr (congrArg Neg.neg y))
  · exact .inl z

theorem sub (w : Vec3 Exact) : (v - w).HasUndefined := by
  rw [hasUndefined_iff] at lost ⊢
  rcases lost with x | y | z
  · exact .inl ((congrArg (· - w.x) x).trans (Exact.undefined_sub _))
  · exact .inr (.inl ((congrArg (· - w.y) y).trans (Exact.undefined_sub _)))
  · exact .inr (.inr ((congrArg (· - w.z) z).trans (Exact.undefined_sub _)))

theorem dot_eq (u : Vec3 Exact) : u.dot v = .undefined := by
  rw [hasUndefined_iff] at lost
  rcases lost with x | y | z
  · rw [dot, x, Exact.mul_undefined, Exact.undefined_add, Exact.undefined_add]
  · rw [dot, y, Exact.mul_undefined, Exact.add_undefined, Exact.undefined_add]
  · rw [dot, z, Exact.mul_undefined, Exact.add_undefined]

theorem normalize : v.normalize.HasUndefined := by
  have length : v.norm = .undefined := congrArg sqrt (lost.dot_eq v)
  rw [hasUndefined_iff, Vec3.normalize, length]
  exact .inl (Exact.div_undefined _)

end HasUndefined

/-- What is left across a vector is lost with the part along it. -/
theorem hasUndefined_sub_scale (v w : Vec3 Exact) : (v - w.scale .undefined).HasUndefined := by
  rw [hasUndefined_iff]
  exact .inl ((congrArg (v.x - ·) (Exact.mul_undefined w.x)).trans (Exact.sub_undefined v.x))

/-- The origin has no direction. -/
theorem hasUndefined_normalize_zero : (⟨0, 0, 0⟩ : Vec3 ℝ).exact.normalize.HasUndefined := by
  have nothing : real 0 / real 0 = .undefined := if_pos rfl
  have length : (⟨0, 0, 0⟩ : Vec3 ℝ).length = 0 := by simp [Vec3.length]
  rw [hasUndefined_iff, normalize, norm_exact, length]
  exact .inl nothing

theorem across_of_inner {n w : Vec3 ℝ} (right : n.inner w = 0) : n.across w = w := by
  rw [across_eq, right]
  exact Vec3.ext (by simp) (by simp) (by simp)

/-- A neighbour that is seen in the direction of the center leaves nothing across it. -/
theorem not_linearIndependent_across_sub_self (n w : Vec3 ℝ) : ¬LinearIndependent ℝ ![n.across (n - n), w] := by
  intro free
  refine free.ne_zero 0 ?_
  have right : n.inner ⟨0, 0, 0⟩ = 0 := by simp [inner]
  exact (congrArg n.across (sub_self n)).trans (across_of_inner right)

end Vec3

namespace Triad

/-- Neighbours at right angles to the center and to each other. -/
theorem linearIndependent_across (t : Triad) :
    LinearIndependent ℝ ![t.third.across (t.first - t.third), t.third.across (t.second - t.third)] := by
  have atRight := Vec3.across_of_inner ((t.third.inner_comm t.first).trans t.first_third)
  have atDown := Vec3.across_of_inner ((t.third.inner_comm t.second).trans t.second_third)
  rw [Vec3.across_sub_self t.unit_third, Vec3.across_sub_self t.unit_third, atRight, atDown,
    LinearIndependent.pair_iff' (Vec3.ne_zero_of_length (Vec3.length_eq_one_iff.mpr t.unit_first))]
  intro k along
  have square : t.second.inner (t.first.scaled k) = 1 := along ▸ t.unit_second
  rw [Vec3.inner_scaled, Vec3.inner_comm, t.first_second, mul_zero] at square
  exact zero_ne_one square

/-- What a camera that looks ahead has at its right, below it and in front of it. -/
noncomputable def ahead : Triad :=
  ⟨⟨0, -1, 0⟩, ⟨0, 0, -1⟩, ⟨1, 0, 0⟩, by simp [Vec3.inner], by simp [Vec3.inner], by simp [Vec3.inner],
    by simp [Vec3.inner], by simp [Vec3.inner], by simp [Vec3.inner]⟩

end Triad

/-- A direction by its angles is a unit vector, unless one of the angles is undefined. -/
theorem Spherical.exists_direction (polar azimuth : Exact) :
    (∃ d : Vec3 ℝ, direction polar azimuth = d.exact ∧ d.length = 1) ∨ (direction polar azimuth).HasUndefined := by
  rw [Vec3.hasUndefined_iff]
  cases polar with
  | undefined => exact .inr (.inr (.inr (Exact.mul_undefined _)))
  | real θ =>
    cases azimuth with
    | undefined => exact .inr (.inl (Exact.mul_undefined _))
    | real φ => exact .inl ⟨_, Vec3.direction_eq_ofAngles θ φ, Vec3.length_ofAngles θ φ⟩

/-- A point is seen in a direction of length one, or in none. -/
theorem Projection.exists_direction (p : Projection Exact) (point : Vec2 Exact) :
    (∃ d : Vec3 ℝ, p.unproject point = d.exact ∧ d.length = 1) ∨ (p.unproject point).HasUndefined := by
  cases p with
  | lens p =>
    rcases Spherical.exists_direction (p.lens.angle (point - p.center).toPolar.radius)
      (point - p.center).toPolar.azimuth with ⟨d, direction, unit⟩ | lost
    · exact .inl ⟨d.world, congrArg Vec3.ofCamera direction, d.length_world.trans unit⟩
    · exact .inr lost.ofCamera
  | panorama p => exact Spherical.exists_direction (p.angles point).polar (p.angles point).azimuth

namespace ClosedForm

variable {wide : (0 : ℝ) < 4} {tall : (0 : ℝ) < 2}

/-- A point of a small panorama that looks ahead, and its neighbours, a quarter turn to the right and below. -/
theorem unproject_equator : let c : ClosedForm := .panorama 4 2 0 wide tall
    let level : Vec2 ℝ := ⟨0, 1⟩
    c.projection.unproject level.exact = (⟨1, 0, 0⟩ : Vec3 ℝ).exact ∧
      c.projection.unproject (level + ⟨1, 0⟩).exact = (⟨0, -1, 0⟩ : Vec3 ℝ).exact ∧
      c.projection.unproject (level + ⟨0, 1⟩).exact = (⟨0, 0, -1⟩ : Vec3 ℝ).exact := by
  intro c level
  have seen {x y : ℝ} {v : Vec3 ℝ} (θ φ : ℝ) (polar : (y + 0) / 2 * Real.pi = θ)
      (azimuth : -(x + 0) / 4 * 2 * Real.pi = φ) (angles : Vec3.ofAngles θ φ = v) :
      c.projection.unproject (⟨x, y⟩ : Vec2 ℝ).exact = v.exact := angles ▸ unproject_of_angles polar azimuth
  refine ⟨?_, ?_, ?_⟩
  · exact seen (Real.pi / 2) 0 (by ring) (by ring) (by simp [Vec3.ofAngles])
  · exact seen (x := 0 + 1) (y := 1 + 0) (Real.pi / 2) (-(Real.pi / 2)) (by ring) (by ring)
      (by simp [Vec3.ofAngles])
  · exact seen (x := 0 + 0) (y := 1 + 1) Real.pi 0 (by ring) (by ring) (by simp [Vec3.ofAngles])

/-- The first point of the top row. The neighbour at the right shows the upper pole too. -/
theorem unproject_top_row : let c : ClosedForm := .panorama 4 2 0 wide tall
    let top : Vec2 ℝ := ⟨0, 0⟩
    c.projection.unproject top.exact = (⟨0, 0, 1⟩ : Vec3 ℝ).exact ∧
      c.projection.unproject (top + ⟨1, 0⟩).exact = (⟨0, 0, 1⟩ : Vec3 ℝ).exact ∧
      c.projection.unproject (top + ⟨0, 1⟩).exact = (⟨1, 0, 0⟩ : Vec3 ℝ).exact := by
  intro c top
  have still : (0 : ℝ) + 0 = 0 := add_zero 0
  have below : top + ⟨0, 1⟩ = ⟨0, 1⟩ := Vec2.ext still (zero_add 1)
  refine ⟨unproject_top still, unproject_top ((congrArg (· + 0) still).trans still), ?_⟩
  rw [below]
  exact unproject_equator.1

/-- A point on the rim of an image circle and its neighbour outside. -/
theorem sees_rim : let lens : ClosedForm := .equisolid 1 0 one_pos
    let rim : Vec2 ℝ := ⟨2, 0⟩
    lens.Sees rim ∧ ¬lens.Sees (rim + ⟨1, 0⟩) := by
  intro lens rim
  have distance {x : ℝ} (nonneg : 0 ≤ x) : (⟨x, 0⟩ : Vec2 ℝ).distance 0 = x := by
    rw [Vec2.distance, sub_zero, Vec2.length_eq_sqrt, mul_zero, add_zero, Real.sqrt_mul_self nonneg]
  have next : rim + ⟨1, 0⟩ = ⟨3, 0⟩ := Vec2.ext two_add_one_eq_three (add_zero 0)
  rw [next, sees_equisolid_iff, sees_equisolid_iff, distance zero_le_two, distance zero_le_three]
  norm_num

end ClosedForm

namespace TangentFrame

variable {p : Projection Exact} {center : Vec2 ℝ} {n r d : Vec3 ℝ}

theorem hasUndefined_basis {f : TangentFrame Exact}
    (lost : f.right.HasUndefined ∨ f.down.HasUndefined ∨ f.normal.HasUndefined) : f.basis.HasUndefined := by
  simp only [Vec3.HasUndefined] at lost
  simp only [Mat3.HasUndefined, Vec3.HasUndefined, basis, Mat3.ofColumns]
  tauto

theorem hasUndefined_of_right (blind : (p.unproject (center + ⟨1, 0⟩).exact).HasUndefined) :
    (ofCenter p center.exact).basis.HasUndefined := by
  have next : (⟨1, 0⟩ : Vec2 Exact) = (⟨1, 0⟩ : Vec2 ℝ).exact := by simp [Vec2.exact]
  refine hasUndefined_basis (.inl ?_)
  simp only [ofCenter, next, Vec2.exact_add, (blind.sub _).dot_eq]
  exact (Vec3.hasUndefined_sub_scale _ _).normalize

theorem hasUndefined_of_down (blind : (p.unproject (center + ⟨0, 1⟩).exact).HasUndefined) :
    (ofCenter p center.exact).basis.HasUndefined := by
  have below : (⟨0, 1⟩ : Vec2 Exact) = (⟨0, 1⟩ : Vec2 ℝ).exact := by simp [Vec2.exact]
  refine hasUndefined_basis (.inr (.inl ?_))
  simp only [ofCenter, below, Vec2.exact_add, (blind.sub _).dot_eq]
  exact ((Vec3.hasUndefined_sub_scale _ _).sub _).normalize

/-- How the frame of a center in the direction `n` lies if it is orthonormal, with the neighbours at the right
and below in the directions `r` and `d`. -/
structure Follows (f : TangentFrame Exact) (n r d : Vec3 ℝ) : Prop where
  orthonormal : f.basis.Orthogonal
  third_column : f.basis.transpose.row₃ = n.exact
  toWorld_toLocal (v : Vec3 ℝ) : f.toWorld (f.toLocal v.exact) = v.exact
  toLocal_toWorld (l : Vec3 ℝ) : f.toLocal (f.toWorld l.exact) = l.exact
  toLocal_normal : f.toLocal n.exact = .unitZ
  right_ahead : 0 < (f.toLocal r.exact).x
  down_ahead : 0 < (f.toLocal d.exact).y

theorem follows_of_axes {f : TangentFrame Exact} {t : Triad} (axes : f.basis = t.matrix)
    (right : 0 < t.first.inner r) (down : 0 < t.second.inner d) : f.Follows t.third r d where
  orthonormal := axes ▸ t.orthogonal_matrix
  third_column := axes ▸ rfl
  toWorld_toLocal v := by rw [toLocal_exact axes, toWorld, axes, Triad.matrix_apply, t.turn_turnBack]
  toLocal_toWorld l := by rw [toWorld, axes, Triad.matrix_apply, toLocal_exact axes, t.turnBack_turn]
  toLocal_normal := by
    rw [toLocal_exact axes, Triad.turnBack, t.first_third, t.second_third, t.unit_third]
    simp [Vec3.exact, Vec3.unitZ]
  right_ahead := by
    rw [toLocal_exact axes]
    exact Exact.zero_lt_real.mpr right
  down_ahead := by
    rw [toLocal_exact axes]
    exact Exact.zero_lt_real.mpr down

section Neighbours

variable (atCenter : p.unproject center.exact = n.exact) (unit : n.length = 1)
  (atRight : p.unproject (center + ⟨1, 0⟩).exact = r.exact) (atDown : p.unproject (center + ⟨0, 1⟩).exact = d.exact)
include atCenter unit atRight atDown

theorem follows_of_independent (independent : LinearIndependent ℝ ![n.across r, n.across d]) :
    (ofCenter p center.exact).Follows n r d := by
  have nonzero : n.across r ≠ ⟨0, 0, 0⟩ := independent.ne_zero 0
  have apart := (LinearIndependent.pair_iff' nonzero).mp independent
  obtain ⟨t, axes, rfl, right, down⟩ := exists_triad atCenter atRight atDown unit nonzero fun k => (apart k).symm
  exact follows_of_axes axes right down

/-- Where the differences depend on each other, one of the axes is a direction of the zero vector. -/
theorem hasUndefined_of_dependent (dependent : ¬LinearIndependent ℝ ![n.across r, n.across d]) :
    (ofCenter p center.exact).basis.HasUndefined := by
  have right := right_ofCenter atCenter unit atRight
  by_cases zero : n.across r = ⟨0, 0, 0⟩
  · refine hasUndefined_basis (.inl ?_)
    rw [right, zero]
    exact Vec3.hasUndefined_normalize_zero
  · refine hasUndefined_basis (.inr (.inl ?_))
    rw [LinearIndependent.pair_iff' zero] at dependent
    push Not at dependent
    obtain ⟨k, along⟩ := dependent
    have none : (n.across r).normalized.across (n.across d) = ⟨0, 0, 0⟩ := by
      have stretched : n.across d = (n.across r).normalized.scaled (k * (n.across r).length) := by
        rw [← Vec3.scaled_scaled, Vec3.scaled_normalized zero]
        exact along.symm
      rw [stretched, Vec3.across_scaled_self (Vec3.length_eq_one_iff.mp (Vec3.length_normalized zero))]
    rw [down_ofCenter atCenter unit atRight atDown zero, none]
    exact Vec3.hasUndefined_normalize_zero

end Neighbours

/-- The frame of a block center is orthonormal or has an undefined entry, whatever the projection. It is
orthonormal, with the center on its third axis and both neighbours on the positive side, if the differences to
the neighbours are independent across the direction of the center, and has an undefined entry if they are not
or if a neighbour has no direction. -/
theorem follows_or_hasUndefined (p : Projection Exact) (center : Vec2 ℝ) :
    let f := ofCenter p center.exact
    let right := p.unproject (center + ⟨1, 0⟩).exact
    let down := p.unproject (center + ⟨0, 1⟩).exact
    (f.basis.Orthogonal ∨ f.basis.HasUndefined) ∧
    ∀ n : Vec3 ℝ, p.unproject center.exact = n.exact → n.length = 1 →
      (∀ r d : Vec3 ℝ, right = r.exact → down = d.exact →
        (LinearIndependent ℝ ![n.across (r - n), n.across (d - n)] → f.Follows n r d) ∧
        (¬LinearIndependent ℝ ![n.across (r - n), n.across (d - n)] → f.basis.HasUndefined)) ∧
      ((¬∃ r : Vec3 ℝ, right = r.exact) ∨ (¬∃ d : Vec3 ℝ, down = d.exact) → f.basis.HasUndefined) := by
  intro f right down
  have neighbours {n r d : Vec3 ℝ} (atCenter : p.unproject center.exact = n.exact) (unit : n.length = 1)
      (atRight : right = r.exact) (atDown : down = d.exact) :
      (LinearIndependent ℝ ![n.across (r - n), n.across (d - n)] → f.Follows n r d) ∧
        (¬LinearIndependent ℝ ![n.across (r - n), n.across (d - n)] → f.basis.HasUndefined) := by
    rw [Vec3.across_sub_self (Vec3.length_eq_one_iff.mp unit),
      Vec3.across_sub_self (Vec3.length_eq_one_iff.mp unit)]
    exact ⟨follows_of_independent atCenter unit atRight atDown,
      hasUndefined_of_dependent atCenter unit atRight atDown⟩
  refine ⟨?_, fun n atCenter unit => ⟨fun r d atRight atDown => neighbours atCenter unit atRight atDown, ?_⟩⟩
  · rcases p.exists_direction center.exact with ⟨n, atCenter, unit⟩ | blind
    · rcases p.exists_direction (center + ⟨1, 0⟩).exact with ⟨r, atRight, -⟩ | blind
      · rcases p.exists_direction (center + ⟨0, 1⟩).exact with ⟨d, atDown, -⟩ | blind
        · obtain ⟨independent, dependent⟩ := neighbours atCenter unit atRight atDown
          exact (em _).imp (fun free => (independent free).orthonormal) dependent
        · exact .inr (hasUndefined_of_down blind)
      · exact .inr (hasUndefined_of_right blind)
    · exact .inr (hasUndefined_basis (.inr (.inr blind)))
  · rintro (blind | blind)
    · exact hasUndefined_of_right (right.exists_exact_or_hasUndefined.resolve_left blind)
    · exact hasUndefined_of_down (down.exists_exact_or_hasUndefined.resolve_left blind)

/-- A center on the equator of a panorama, one on its top row, whose neighbour at the right is seen in the
same direction, and one on the rim of an image circle, whose neighbour at the right lies outside. -/
theorem follows_or_hasUndefined_of_rim :
    let c : ClosedForm := .panorama 4 2 0 (by norm_num) (by norm_num)
    let lens : ClosedForm := .equisolid 1 0 one_pos
    let level : Vec2 ℝ := ⟨0, 1⟩
    let top : Vec2 ℝ := ⟨0, 0⟩
    let rim : Vec2 ℝ := ⟨2, 0⟩
    let ahead : Vec3 ℝ := ⟨1, 0, 0⟩
    let right : Vec3 ℝ := ⟨0, -1, 0⟩
    let down : Vec3 ℝ := ⟨0, 0, -1⟩
    let up : Vec3 ℝ := ⟨0, 0, 1⟩
    (c.projection.unproject level.exact = ahead.exact ∧ ahead.length = 1 ∧
        c.projection.unproject (level + ⟨1, 0⟩).exact = right.exact ∧
        c.projection.unproject (level + ⟨0, 1⟩).exact = down.exact ∧
        LinearIndependent ℝ ![ahead.across (right - ahead), ahead.across (down - ahead)] ∧
        (ofCenter c.projection level.exact).Follows ahead right down) ∧
      (c.projection.unproject top.exact = up.exact ∧ up.length = 1 ∧
        c.projection.unproject (top + ⟨1, 0⟩).exact = up.exact ∧
        c.projection.unproject (top + ⟨0, 1⟩).exact = ahead.exact ∧
        ¬LinearIndependent ℝ ![up.across (up - up), up.across (ahead - up)] ∧
        (ofCenter c.projection top.exact).basis.HasUndefined) ∧
      ∃ n : Vec3 ℝ, lens.projection.unproject rim.exact = n.exact ∧ n.length = 1 ∧
        (¬∃ r : Vec3 ℝ, lens.projection.unproject (rim + ⟨1, 0⟩).exact = r.exact) ∧
        (ofCenter lens.projection rim.exact).basis.HasUndefined := by
  intro c lens level top rim ahead right down up
  obtain ⟨atLevel, rightOfLevel, belowLevel⟩ := ClosedForm.unproject_equator
  obtain ⟨atTop, atRight, atBelow⟩ := ClosedForm.unproject_top_row
  obtain ⟨inside, outside⟩ := ClosedForm.sees_rim
  obtain ⟨n, atRim, unit⟩ := ClosedForm.exists_direction inside
  have blind := ClosedForm.not_exists_direction outside
  have unit' : ahead.length = 1 := by simp [Vec3.length, ahead]
  have unit'' : up.length = 1 := by simp [Vec3.length, up]
  have independent : LinearIndependent ℝ ![ahead.across (right - ahead), ahead.across (down - ahead)] :=
    Triad.ahead.linearIndependent_across
  have dependent : ¬LinearIndependent ℝ ![up.across (up - up), up.across (ahead - up)] :=
    Vec3.not_linearIndependent_across_sub_self up _
  refine ⟨⟨atLevel, unit', rightOfLevel, belowLevel, independent, ?_⟩,
    ⟨atTop, unit'', atRight, atBelow, dependent, ?_⟩, n, atRim, unit, blind, ?_⟩
  · exact (((follows_or_hasUndefined c.projection level).2 ahead atLevel unit').1 right down rightOfLevel
      belowLevel).1 independent
  · exact (((follows_or_hasUndefined c.projection top).2 up atTop unit'').1 up ahead atRight atBelow).2 dependent
  · exact ((follows_or_hasUndefined lens.projection rim).2 n atRim unit).2 (.inl blind)

end TangentFrame

end SphereMotion
