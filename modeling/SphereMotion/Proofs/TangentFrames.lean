import Mathlib
import SphereMotion.Motion.TangentFrame
import SphereMotion.Proofs.OrthonormalFrames

namespace SphereMotion

open Scalar
open Exact (real)

namespace Vec3

variable {n m : Vec3 ℝ}

/-- What is left of a vector when its part along the unit vector `n` is taken away. -/
noncomputable def across (n w : Vec3 ℝ) : Vec3 ℝ := w - n.scaled (n.inner w)

theorem across_eq (n w : Vec3 ℝ) :
    n.across w = ⟨w.x - n.inner w * n.x, w.y - n.inner w * n.y, w.z - n.inner w * n.z⟩ := rfl

theorem inner_across (unit : n.inner n = 1) (w : Vec3 ℝ) : n.inner (n.across w) = 0 := by
  rw [across, inner_sub, inner_scaled, unit, mul_one, sub_self]

theorem inner_across_of_inner (right : m.inner n = 0) (w : Vec3 ℝ) : m.inner (n.across w) = m.inner w := by
  rw [across, inner_sub, inner_scaled, right, mul_zero, sub_zero]

theorem across_scaled_self (unit : n.inner n = 1) (k : ℝ) : n.across (n.scaled k) = ⟨0, 0, 0⟩ := by
  rw [across, inner_scaled, unit, mul_one]
  exact sub_self _

theorem across_sub_self (unit : n.inner n = 1) (w : Vec3 ℝ) : n.across (w - n) = n.across w := by
  have own : n.scaled (n.inner w - 1) = n.scaled (n.inner w) - n :=
    Vec3.ext (sub_one_mul _ _) (sub_one_mul _ _) (sub_one_mul _ _)
  rw [across, inner_sub, unit, own, across]
  abel

theorem inner_normalized (nonzero : m ≠ ⟨0, 0, 0⟩) (right : n.inner m = 0) : n.inner m.normalized = 0 := by
  rw [← scaled_normalized nonzero, inner_scaled] at right
  exact (mul_eq_zero.mp right).resolve_left (length_pos nonzero).ne'

theorem inner_normalized_self (nonzero : m ≠ ⟨0, 0, 0⟩) : 0 < m.normalized.inner m := by
  have unit := length_eq_one_iff.mp (length_normalized nonzero)
  rw [← scaled_normalized nonzero, normalized_scaled (length_pos nonzero),
    normalized_of_length (length_normalized nonzero), inner_scaled, unit, mul_one]
  exact length_pos nonzero

theorem exact_across (n w : Vec3 ℝ) : w.exact - n.exact.scale (n.exact.dot w.exact) = (n.across w).exact := by
  rw [exact_dot, exact_scale, exact_sub, across]

end Vec3

namespace TangentFrame

/-- Whether a direction lies in the open hemisphere around the block center. -/
def Faces {α : Type} [Scalar α] (f : TangentFrame α) (v : Vec3 α) : Prop := 0 < f.normal.dot v

section Axes

variable {f : TangentFrame Exact} {t : Triad} (axes : f.basis = t.matrix)
include axes

theorem toLocal_exact (v : Vec3 ℝ) : f.toLocal v.exact = (t.turnBack v).exact := by
  rw [toLocal, axes, Triad.transpose_apply]

theorem faces_exact (v : Vec3 ℝ) : f.Faces v.exact ↔ 0 < t.third.inner v := by
  have depth : f.normal.dot v.exact = (f.toLocal v.exact).z := rfl
  rw [Faces, depth, toLocal_exact axes, Vec3.exact, Exact.zero_lt_real]
  rfl

end Axes

section Neighbours

variable {p : Projection Exact} {center : Vec2 ℝ} {n r d : Vec3 ℝ} (atCenter : p.unproject center.exact = n.exact)
  (unit : n.length = 1) (atRight : p.unproject (center + ⟨1, 0⟩).exact = r.exact)
include atCenter unit atRight

theorem right_ofCenter : (ofCenter p center.exact).right = (n.across r).exact.normalize := by
  have next : (⟨1, 0⟩ : Vec2 Exact) = (⟨1, 0⟩ : Vec2 ℝ).exact := by simp [Vec2.exact]
  simp only [ofCenter, next, Vec2.exact_add, atCenter, atRight, Vec3.exact_sub, Vec3.exact_across,
    Vec3.across_sub_self (Vec3.length_eq_one_iff.mp unit)]

/-- The second axis is what the lower neighbour leaves across both other axes. -/
theorem down_ofCenter (atDown : p.unproject (center + ⟨0, 1⟩).exact = d.exact) (nonzero : n.across r ≠ ⟨0, 0, 0⟩) :
    (ofCenter p center.exact).down = ((n.across r).normalized.across (n.across d)).exact.normalize := by
  have unit' := Vec3.length_eq_one_iff.mp unit
  have below : (⟨0, 1⟩ : Vec2 Exact) = (⟨0, 1⟩ : Vec2 ℝ).exact := by simp [Vec2.exact]
  have right := (right_ofCenter atCenter unit atRight).trans (Vec3.normalize_exact nonzero)
  have upright : (n.across r).normalized.inner n = 0 :=
    (Vec3.inner_comm _ _).trans (Vec3.inner_normalized nonzero (Vec3.inner_across unit' _))
  have down : (ofCenter p center.exact).down =
      ((d.exact - n.exact) - n.exact.scale (n.exact.dot (d.exact - n.exact)) - (ofCenter p center.exact).right.scale
        ((ofCenter p center.exact).right.dot (d.exact - n.exact))).normalize := by
    simp only [ofCenter, below, Vec2.exact_add, atCenter, atDown]
  rw [down, right, Vec3.exact_sub, Vec3.exact_across, Vec3.across_sub_self unit', Vec3.exact_dot,
    ← Vec3.inner_across_of_inner upright, Vec3.across_sub_self unit', ← Vec3.exact_dot, Vec3.exact_across]

end Neighbours

/-- The frame of a center whose neighbours at the right and below are not seen in one line with it. Each of
them is seen on the positive side along its axis. -/
theorem exists_triad {p : Projection Exact} {center : Vec2 ℝ} {n r d : Vec3 ℝ}
    (atCenter : p.unproject center.exact = n.exact) (atRight : p.unproject (center + ⟨1, 0⟩).exact = r.exact)
    (atDown : p.unproject (center + ⟨0, 1⟩).exact = d.exact) (unit : n.length = 1)
    (nonzero : n.across r ≠ ⟨0, 0, 0⟩) (independent : ∀ k, n.across d ≠ (n.across r).scaled k) :
    ∃ t : Triad, (ofCenter p center.exact).basis = t.matrix ∧ t.third = n ∧ 0 < t.first.inner r ∧
      0 < t.second.inner d := by
  have unit' := Vec3.length_eq_one_iff.mp unit
  have axis := (right_ofCenter atCenter unit atRight).trans (Vec3.normalize_exact nonzero)
  have left := down_ofCenter atCenter unit atRight atDown nonzero
  set right := (n.across r).normalized with isRight
  have unitRight := Vec3.length_eq_one_iff.mp (Vec3.length_normalized nonzero)
  have upright : n.inner right = 0 := Vec3.inner_normalized nonzero (Vec3.inner_across unit' _)
  have upright' : right.inner n = 0 := (right.inner_comm n).trans upright
  set across := right.across (n.across d) with isAcross
  have nonzero' : across ≠ ⟨0, 0, 0⟩ := by
    intro zero
    have along : n.across d = right.scaled (right.inner (n.across d)) := sub_eq_zero.mp zero
    rw [isRight, Vec3.normalized_eq_scaled, Vec3.scaled_scaled] at along
    exact independent _ along
  have upright'' : n.inner across = 0 := by
    rw [isAcross, Vec3.inner_across_of_inner upright, Vec3.inner_across unit']
  have normal : (ofCenter p center.exact).normal = n.exact := atCenter
  have outward : across.normalized.inner right = 0 := by
    rw [Vec3.inner_comm, Vec3.inner_normalized nonzero' (Vec3.inner_across unitRight _)]
  have outward' : across.normalized.inner n = 0 := by
    rw [Vec3.inner_comm, Vec3.inner_normalized nonzero' upright'']
  refine ⟨⟨right, across.normalized, n, unitRight,
    Vec3.length_eq_one_iff.mp (Vec3.length_normalized nonzero'), unit',
    Vec3.inner_normalized nonzero' (Vec3.inner_across unitRight _), upright', outward'⟩, ?_, rfl, ?_, ?_⟩
  · rw [basis, axis, left, normal, Vec3.normalize_exact nonzero']
    rfl
  · rw [← Vec3.inner_across_of_inner upright']
    exact Vec3.inner_normalized_self nonzero
  · rw [← Vec3.inner_across_of_inner outward', ← Vec3.inner_across_of_inner outward]
    exact Vec3.inner_normalized_self nonzero'

end TangentFrame

end SphereMotion
