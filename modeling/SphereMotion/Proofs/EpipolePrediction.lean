import Mathlib
import SphereMotion.Proofs.EpipoleHistory

namespace SphereMotion

open Scalar

variable {α : Type} [Scalar α]

namespace EpipoleEntry

variable {current : Int32} {e f g : EpipoleEntry}

/-- Distances are counted exactly, and 33 bits with a sign would hold them. -/
theorem distance_exact (e : EpipoleEntry) (current : Int32) :
    (e.distance current : Int) = |current.toInt - e.pair.current.toInt| ∧ e.distance current < 2 ^ 32 := by
  have := current.toInt_lt
  have := current.le_toInt
  have := e.pair.current.toInt_lt
  have := e.pair.current.le_toInt
  exact ⟨Int.natCast_natAbs _, by unfold distance; omega⟩

/-- The order of a stable sort by distance: the distance decides, and then the pair. -/
def Nearer (current : Int32) (e f : EpipoleEntry) : Prop :=
  e.distance current < f.distance current ∨ e.distance current = f.distance current ∧ e.pair.Before f.pair

instance (current : Int32) (e f : EpipoleEntry) : Decidable (e.Nearer current f) :=
  inferInstanceAs (Decidable (_ ∨ _ ∧ _))

theorem Nearer.le (nearer : e.Nearer current f) : e.distance current ≤ f.distance current := by
  rcases nearer with closer | ⟨tie, -⟩
  · exact closer.le
  · exact tie.le

theorem Nearer.trans (first : e.Nearer current f) (second : f.Nearer current g) : e.Nearer current g := by
  rcases first with closer | ⟨tie, before⟩
  · exact .inl (closer.trans_le second.le)
  · rcases second with closer' | ⟨tie', before'⟩
    · exact .inl (tie ▸ closer')
    · exact .inr ⟨tie.trans tie', before.trans before'⟩

theorem not_nearer_self (e : EpipoleEntry) (current : Int32) : ¬e.Nearer current e := by
  rintro (closer | ⟨-, before⟩)
  · exact closer.false
  · exact e.pair.not_before_self before

/-- Lists in this order are known by their entries. -/
theorem eq_of_pairwise_nearer {entries entries' : List EpipoleEntry} (sorted : entries.Pairwise (Nearer current))
    (sorted' : entries'.Pairwise (Nearer current)) (alike : ∀ e, e ∈ entries ↔ e ∈ entries') :
    entries = entries' := by
  have irreflexive : Std.Irrefl (Nearer current) := ⟨fun e => e.not_nearer_self current⟩
  have asymmetric : Std.Antisymm (Nearer current) :=
    ⟨fun e f nearer after => absurd (nearer.trans after) (e.not_nearer_self current)⟩
  exact sorted.eq_of_mem_iff sorted' alike

/-- Entries sorted by their distance, those at one distance staying in their order. -/
def sortByDistance (current : Int32) (entries : List EpipoleEntry) : List EpipoleEntry :=
  entries.mergeSort fun e f => decide (e.distance current ≤ f.distance current)

theorem mem_sortByDistance {entries : List EpipoleEntry} : e ∈ sortByDistance current entries ↔ e ∈ entries :=
  List.mem_mergeSort

theorem pairwise_sortByDistance {entries : List EpipoleEntry} (ordered : entries.Pairwise (·.pair.Before ·.pair)) :
    (sortByDistance current entries).Pairwise (Nearer current) := by
  induction entries with
  | nil => simp [sortByDistance]
  | cons e rest ih =>
    obtain ⟨first, later⟩ := List.pairwise_cons.mp ordered
    let le (e f : EpipoleEntry) : Bool := decide (e.distance current ≤ f.distance current)
    have trans (e f g : EpipoleEntry) : le e f → le f g → le e g := by simp only [le, decide_eq_true_eq]; omega
    have total (e f : EpipoleEntry) : le e f || le f e := by
      simp only [le, Bool.or_eq_true, decide_eq_true_eq]; omega
    -- the sort puts the first entry after those that are strictly closer, and leaves the others as they were
    obtain ⟨closer, others, whole, without, strict⟩ := List.mergeSort_cons trans total e rest
    have byDistance : (closer ++ e :: others).Pairwise (le · ·) := whole ▸ List.pairwise_mergeSort trans total _
    have sorted : (closer ++ others).Pairwise (Nearer current) := without ▸ ih later
    change (List.mergeSort (e :: rest) le).Pairwise (Nearer current)
    rw [whole, List.pairwise_append, List.pairwise_cons]
    rw [List.pairwise_append] at sorted byDistance
    refine ⟨sorted.1, ⟨fun f member => ?_, sorted.2.1⟩, fun f inCloser g member => ?_⟩
    · have inRest : f ∈ rest := List.mem_mergeSort.mp (without ▸ List.mem_append_right closer member)
      have notCloser : e.distance current ≤ f.distance current := by
        simpa [le] using (List.pairwise_cons.mp byDistance.2.1).1 f member
      exact notCloser.lt_or_eq.imp id fun tie => ⟨tie, first f inRest⟩
    · rcases List.mem_cons.mp member with rfl | inOthers
      · exact .inl (by simpa [le] using strict f inCloser)
      · exact sorted.2.2 f inCloser g inOthers

/-- An entry behind the others in the order of pairs goes behind those that are not farther. -/
theorem pairwise_orderedInsert {entries : List EpipoleEntry} (sorted : entries.Pairwise (Nearer current))
    (last : ∀ f ∈ entries, f.pair.Before e.pair) :
    (entries.orderedInsert (fun e f => e.distance current < f.distance current) e).Pairwise (Nearer current) := by
  induction entries with
  | nil => simp
  | cons f rest ih =>
    obtain ⟨first, later⟩ := List.pairwise_cons.mp sorted
    rw [List.orderedInsert_cons]
    split_ifs with closer
    · refine List.pairwise_cons.mpr ⟨fun g member => ?_, sorted⟩
      rcases List.mem_cons.mp member with rfl | inRest
      · exact .inl closer
      · exact .inl (closer.trans_le (first g inRest).le)
    · refine List.pairwise_cons.mpr ⟨fun g member => ?_, ih later fun g inRest => last g (.tail _ inRest)⟩
      rcases (List.mem_orderedInsert _).mp member with rfl | inRest
      · exact (not_lt.mp closer).lt_or_eq.imp id fun tie => ⟨tie, last f (.head _)⟩
      · exact first g inRest

/-- One more entry at the end is one insertion into the sorted ones. -/
theorem sortByDistance_concat {entries : List EpipoleEntry}
    (ordered : (entries ++ [e]).Pairwise (·.pair.Before ·.pair)) :
    sortByDistance current (entries ++ [e]) =
      (sortByDistance current entries).orderedInsert (fun e f => e.distance current < f.distance current) e := by
  obtain ⟨before, -, last⟩ := List.pairwise_append.mp ordered
  refine eq_of_pairwise_nearer (pairwise_sortByDistance ordered)
    (pairwise_orderedInsert (pairwise_sortByDistance before) fun f member => ?_) fun f => ?_
  · exact last f (mem_sortByDistance.mp member) e (.head _)
  · rw [List.mem_orderedInsert, mem_sortByDistance, mem_sortByDistance, List.mem_append, List.mem_singleton,
      or_comm]

/-- What the nearest entries predict: the average of the first two if they are equally near, or else
the first one. -/
def predicted (current : Int32) : List EpipoleEntry → Option (Vec3 α)
  | [] => none
  | [e] => some e.value
  | e :: f :: _ =>
    if e.distance current = f.distance current then some (Vec3.unscale (e.value + f.value) 2) else some e.value

end EpipoleEntry

namespace EpipoleList

open EpipoleEntry

variable {current : Int32}

namespace Neighbours

/-- The first two entries, each with its distance. -/
def ofList (current : Int32) : List EpipoleEntry → Neighbours
  | [] => {}
  | [e] => ⟨some (e.distance current, e), none⟩
  | e :: f :: _ => ⟨some (e.distance current, e), some (f.distance current, f)⟩

/-- A step of the scan inserts the entry and forgets all but the first two. -/
theorem scan_ofList (sorted : List EpipoleEntry) (e : EpipoleEntry) :
    scan current (ofList current sorted) e =
      ofList current (sorted.orderedInsert (fun e f => e.distance current < f.distance current) e) := by
  match sorted with
  | [] => rfl
  | [f] =>
    by_cases closer : e.distance current < f.distance current
    · simp [scan, ofList, closer]
    · simp [scan, ofList, closer, not_lt.mp closer]
  | f :: g :: rest =>
    by_cases closer : e.distance current < f.distance current
    · simp [scan, ofList, closer]
    · by_cases second : e.distance current < g.distance current
      · simp [scan, ofList, closer, not_lt.mp closer, second]
      · simp [scan, ofList, closer, not_lt.mp closer, second]

theorem foldl_scan {entries : List EpipoleEntry} (ordered : entries.Pairwise (·.pair.Before ·.pair)) :
    entries.foldl (scan current) {} = ofList current (sortByDistance current entries) := by
  induction entries using List.reverseRecOn with
  | nil => simp [sortByDistance, ofList]
  | append_singleton entries e ih =>
    rw [List.foldl_append, ih (List.pairwise_append.mp ordered).1, sortByDistance_concat ordered]
    exact scan_ofList _ e

end Neighbours

/-- The available entries, in the order of the pairs. -/
def available (list : EpipoleList) : List EpipoleEntry := list.entries.filter (·.isAvailable)

theorem mem_available {list : EpipoleList} {e : EpipoleEntry} :
    e ∈ list.available ↔ e ∈ list.entries ∧ e.isAvailable = true := List.mem_filter

theorem nearest_eq (list : EpipoleList) (current : Int32) :
    list.nearest current = .ofList current (sortByDistance current list.available) :=
  Neighbours.foldl_scan (list.ordered.filter _)

theorem available_congr {list other : EpipoleList} (alike : ∀ e, e ∈ list.available ↔ e ∈ other.available) :
    list.available = other.available := by
  let kept (l : EpipoleList) : EpipoleList := ⟨l.available, l.ordered.filter _⟩
  have same : kept list = kept other := eq_of_mem_iff alike
  exact congrArg entries same

theorem available?_eq_find?_available (list : EpipoleList) (pair : PicturePair) :
    list.available? pair = list.available.find? (·.pair == pair) := by
  rw [available?, available, List.find?_filter]
  congr 1
  funext e
  rw [Bool.and_comm, Bool.decide_and, Bool.decide_eq_true, Bool.decide_eq_true]

/-- A prediction reads the available entries only. -/
theorem predict_congr {list other : EpipoleList} (same : list.available = other.available) (current : Int32) :
    (list.predict current : Except EpipoleError (Vec3 α)) = other.predict current := by
  rw [predict, predict, available?_eq_find?_available, available?_eq_find?_available, nearest_eq, nearest_eq, same]

/-- Where the global entry is available there is a prediction, and it is that of the sorted entries. -/
theorem predict_of_global {list : EpipoleList} (global : ∃ e ∈ list.available, e.pair = .global) (current : Int32) :
    ∃ epipole : Vec3 α, predicted current (sortByDistance current list.available) = some epipole ∧
      list.predict current = .ok epipole := by
  obtain ⟨e, member, isGlobal⟩ := global
  have found : list.available? .global = some e :=
    available?_eq_some_iff.mpr ⟨(mem_available.mp member).1, isGlobal, (mem_available.mp member).2⟩
  have inSorted : e ∈ sortByDistance current list.available := mem_sortByDistance.mpr member
  unfold predict
  rw [found, nearest_eq]
  match sortByDistance current list.available, inSorted with
  | [f], _ => exact ⟨_, rfl, rfl⟩
  | f :: g :: rest, _ =>
    by_cases tie : f.distance current = g.distance current
    · exact ⟨_, if_pos tie, if_pos tie.symm⟩
    · exact ⟨_, if_neg tie, if_neg (Ne.symm tie)⟩

theorem predict_of_no_global {list : EpipoleList} (missing : ¬∃ e ∈ list.available, e.pair = .global)
    (current : Int32) :
    (list.predict current : Except EpipoleError (Vec3 α)) = .error (.globalUnavailable current) := by
  have none : list.available? .global = none := by
    cases found : list.available? .global with
    | none => rfl
    | some e =>
      obtain ⟨member, isGlobal, available⟩ := available?_eq_some_iff.mp found
      exact absurd ⟨e, mem_available.mpr ⟨member, available⟩, isGlobal⟩ missing
  unfold predict
  rw [none]

/-- A prediction fails just where the global entry is not available. Else it is the average of the two entries
that a stable sort by distance puts first, or the first of them where they are not equally near or it stands
alone. Lists with the same available entries predict the same. -/
theorem predict_nearest (list : EpipoleList) (current : Int32) :
    (∀ e : EpipoleEntry, (e.distance current : Int) = |current.toInt - e.pair.current.toInt| ∧
      e.distance current < 2 ^ 32) ∧
    (∀ cause, (list.predict current : Except EpipoleError (Vec3 α)) = .error cause ↔
      cause = .globalUnavailable current ∧ ¬∃ e ∈ list.available, e.pair = .global) ∧
    (∀ epipole : Vec3 α, list.predict current = .ok epipole ↔
      (∃ e ∈ list.available, e.pair = .global) ∧
        predicted current (sortByDistance current list.available) = some epipole) ∧
    ((∃ e ∈ list.available, e.pair = .global) → ∃ epipole : Vec3 α, list.predict current = .ok epipole) ∧
    ∀ other : EpipoleList, (∀ e, e ∈ list.available ↔ e ∈ other.available) →
      (list.predict current : Except EpipoleError (Vec3 α)) = other.predict current := by
  refine ⟨fun e => e.distance_exact current, fun cause => ?_, fun epipole => ?_, fun global => ?_,
    fun other alike => predict_congr (available_congr alike) current⟩
  · by_cases global : ∃ e ∈ list.available, e.pair = .global
    · obtain ⟨epipole, -, fine⟩ := predict_of_global (α := α) global current
      simp [fine, global]
    · rw [predict_of_no_global global, Except.error.injEq, and_iff_left global, eq_comm]
  · by_cases global : ∃ e ∈ list.available, e.pair = .global
    · obtain ⟨found, isPredicted, fine⟩ := predict_of_global (α := α) global current
      simp [fine, global, isPredicted]
    · simp [predict_of_no_global global, global]
  · obtain ⟨epipole, -, fine⟩ := predict_of_global (α := α) global current
    exact ⟨epipole, fine⟩

/-- Three entries of two pictures are equally near, and the first two of them, references of one picture, are
averaged. The order of the changes and an entry that is not available make no difference; without the global
entry there is no prediction. The farthest pictures are `2 ^ 32 - 1` apart. -/
theorem predict_nearest_of_ties :
    let changes : List (Change Double) :=
      [.add .unitX .global true, .add .unitY ⟨4, 0⟩ true, .add .unitZ ⟨4, 8⟩ true,
        .add .unitX ⟨8, 6⟩ true, .add .unitX ⟨6, 3⟩ false]
    let reordered : List (Change Double) := [.add .unitX ⟨8, 6⟩ true, .add .unitZ ⟨4, 8⟩ false,
      .add .unitX ⟨4, 0⟩ false, .makeAvailable 4, .add .unitY ⟨4, 0⟩ true, .add .unitX .global true]
    let half : Double := .ofBits 0x3fe0000000000000
    (run changes).predict 6 = (.ok ⟨.ofBits 0, half, half⟩ : Except EpipoleError (Vec3 Double)) ∧
      (run changes).predict 6 = (run reordered).predict (α := Double) 6 ∧
      (run (α := Double) [.add .unitX ⟨6, 3⟩ true]).predict 6 =
        (.error (.globalUnavailable 6) : Except EpipoleError (Vec3 Double)) ∧
      (EpipoleEntry.mk ⟨Int32.maxValue, 0⟩ ⟨0, 0, 0⟩ true).distance Int32.minValue = 2 ^ 32 - 1 := by
  intro changes reordered half
  obtain ⟨-, -, found, -, alike⟩ := predict_nearest (α := Double) (run changes) 6
  obtain ⟨-, failed, -⟩ := predict_nearest (α := Double) (run (α := Double) [.add .unitX ⟨6, 3⟩ true]) 6
  refine ⟨(found _).mpr ⟨⟨_, .head _, rfl⟩, ?_⟩, alike _ fun e => ?_, (failed _).mpr ⟨rfl, ?_⟩, rfl⟩
  · have sorted : sortByDistance 6 (run changes).available =
        [⟨⟨4, 0⟩, ⟨0, 16384, 0⟩, true⟩, ⟨⟨4, 8⟩, ⟨0, 0, 16384⟩, true⟩, ⟨⟨8, 6⟩, ⟨16384, 0, 0⟩, true⟩,
          ⟨.global, ⟨16384, 0, 0⟩, true⟩] := by
      have available : (run changes).available = [⟨.global, ⟨16384, 0, 0⟩, true⟩, ⟨⟨4, 0⟩, ⟨0, 16384, 0⟩, true⟩,
        ⟨⟨4, 8⟩, ⟨0, 0, 16384⟩, true⟩, ⟨⟨8, 6⟩, ⟨16384, 0, 0⟩, true⟩] := rfl
      refine eq_of_pairwise_nearer (pairwise_sortByDistance ((run changes).ordered.filter _))
        (by decide) fun e => ?_
      rw [mem_sortByDistance, available]
      simp only [List.mem_cons, List.not_mem_nil, or_false]
      tauto
    rw [sorted]
    rfl
  · rfl
  · rintro ⟨e, member, isGlobal⟩
    have only : (run (α := Double) [.add .unitX ⟨6, 3⟩ true]).available = [⟨⟨6, 3⟩, ⟨16384, 0, 0⟩, true⟩] := rfl
    rw [only, List.mem_singleton] at member
    subst member
    cases isGlobal

end EpipoleList

end SphereMotion
