import SphereMotion.FixedPoint
import SphereMotion.Vector

namespace SphereMotion

open Scalar

/-- A picture and the reference picture that its motion points to, by picture order count. -/
structure PicturePair where
  current : Int32
  reference : Int32
  deriving DecidableEq, Repr

namespace PicturePair

/-- The order count that stands for any picture. -/
def anyPicture : Int32 := -1

def global : PicturePair := ⟨anyPicture, anyPicture⟩

def Before (p q : PicturePair) : Prop :=
  p.current < q.current ∨ p.current = q.current ∧ p.reference < q.reference

instance (p q : PicturePair) : Decidable (p.Before q) := inferInstanceAs (Decidable (_ ∨ _ ∧ _))

theorem Before.trans {p q r : PicturePair} (first : p.Before q) (second : q.Before r) : p.Before r := by
  simp only [Before, Int32.lt_iff_toInt_lt, ← Int32.toInt_inj] at *
  omega

theorem before_of_not_before {p q : PicturePair} (differ : p ≠ q) (later : ¬p.Before q) : q.Before p := by
  obtain ⟨a, b⟩ := p
  obtain ⟨c, d⟩ := q
  simp only [Before, ne_eq, mk.injEq, Int32.lt_iff_toInt_lt, ← Int32.toInt_inj] at *
  omega

end PicturePair

inductive EpipoleError where
  | notFound (pair : PicturePair)
  | globalUnavailable (current : Int32)
  deriving DecidableEq, Repr

def EpipoleError.message : EpipoleError → String
  | notFound pair =>
    s!"no available epipole for current POC {pair.current}, reference POC {pair.reference}"
  | globalUnavailable current =>
    s!"epipole predictor for POC {current} requires the global epipole to be available"

structure EpipoleEntry where
  pair : PicturePair
  epipole : Vec3 Int32
  isAvailable : Bool

namespace EpipoleEntry

/-- The number of fractional bits of an epipole. -/
def precision : Nat := 14

def value {α : Type} [Scalar α] (e : EpipoleEntry) : Vec3 α :=
  ⟨FixedPoint.toScalar e.epipole.x precision, FixedPoint.toScalar e.epipole.y precision,
    FixedPoint.toScalar e.epipole.z precision⟩

/-- The number of pictures between an entry's picture and another one. -/
def distance (e : EpipoleEntry) (current : Int32) : Nat := (current.toInt - e.pair.current.toInt).natAbs

/-- Puts an entry into a list ordered by picture pair, in place of one with its pair. -/
def insertInto (e : EpipoleEntry) : List EpipoleEntry → List EpipoleEntry
  | [] => [e]
  | f :: rest =>
    if e.pair = f.pair then e :: rest
    else if e.pair.Before f.pair then e :: f :: rest
    else f :: e.insertInto rest

theorem mem_insertInto {e f : EpipoleEntry} {entries : List EpipoleEntry} (member : f ∈ e.insertInto entries) :
    f = e ∨ f ∈ entries := by
  induction entries with
  | nil => simpa [insertInto] using member
  | cons g rest ih =>
    unfold insertInto at member
    split at member
    · grind
    · split at member <;> grind

theorem pairwise_insertInto (e : EpipoleEntry) {entries : List EpipoleEntry}
    (ordered : entries.Pairwise (·.pair.Before ·.pair)) :
    (e.insertInto entries).Pairwise (·.pair.Before ·.pair) := by
  induction entries with
  | nil => simp [insertInto]
  | cons f rest ih =>
    obtain ⟨first, later⟩ := List.pairwise_cons.mp ordered
    unfold insertInto
    split
    next alike => exact List.pairwise_cons.mpr ⟨fun g member => alike ▸ first g member, later⟩
    next differ =>
      split
      next before =>
        refine List.pairwise_cons.mpr ⟨fun g member => ?_, ordered⟩
        rcases List.mem_cons.mp member with rfl | inRest
        · exact before
        · exact before.trans (first g inRest)
      next notBefore =>
        refine List.pairwise_cons.mpr ⟨fun g member => ?_, ih later⟩
        rcases mem_insertInto member with rfl | inRest
        · exact PicturePair.before_of_not_before differ notBefore
        · exact first g inRest

end EpipoleEntry

/-- The epipoles of picture pairs, in the order of the pairs. A component of a pair may be
`PicturePair.anyPicture`. -/
structure EpipoleList where
  entries : List EpipoleEntry
  ordered : entries.Pairwise (·.pair.Before ·.pair)

namespace EpipoleList

variable {α : Type} [Scalar α]

/-- The list that holds just the global epipole, a zero vector that is not available. -/
def initial : EpipoleList := ⟨[⟨.global, ⟨0, 0, 0⟩, false⟩], List.pairwise_singleton _ _⟩

def length (list : EpipoleList) : Nat := list.entries.length

/-- Stores the epipole of a pair in place of an earlier one. -/
def add (list : EpipoleList) (epipole : Vec3 α) (pair : PicturePair) (isAvailable : Bool) : EpipoleList :=
  let fixed := epipole.map (FixedPoint.ofScalar · EpipoleEntry.precision)
  ⟨EpipoleEntry.insertInto ⟨pair, fixed, isAvailable⟩ list.entries, EpipoleEntry.pairwise_insertInto _ list.ordered⟩

def makeAvailable (list : EpipoleList) (current : Int32) : EpipoleList where
  entries := list.entries.map fun e => { e with isAvailable := e.isAvailable || e.pair.current == current }
  ordered := by simpa [List.pairwise_map] using list.ordered

def available? (list : EpipoleList) (pair : PicturePair) : Option EpipoleEntry :=
  list.entries.find? fun e => e.pair == pair && e.isAvailable

/-- The epipole of a pair, or else the one of its current picture, or else the global one. -/
def find (list : EpipoleList) (pair : PicturePair) : Except EpipoleError (Vec3 α) :=
  match (list.available? pair).or <| (list.available? ⟨pair.current, PicturePair.anyPicture⟩).or <|
      list.available? .global with
  | some e => .ok e.value
  | none => .error (.notFound pair)

/-- The nearest entry of a scan so far and the next nearest one, each with its distance. -/
structure Neighbours where
  closest : Option (Nat × EpipoleEntry) := none
  second : Option (Nat × EpipoleEntry) := none

/-- Takes one more entry into account. Of entries at one distance the earlier ones are kept. -/
def Neighbours.scan (current : Int32) (found : Neighbours) (e : EpipoleEntry) : Neighbours :=
  let distance := e.distance current
  match found.closest with
  | some (best, _) =>
    if best ≤ distance then
      if found.second.all fun (next, _) => distance < next then { found with second := some (distance, e) }
      else found
    else ⟨some (distance, e), found.closest⟩
  | none => ⟨some (distance, e), none⟩

/-- The available entries nearest to a picture, the global entry counting as one of picture -1. -/
def nearest (list : EpipoleList) (current : Int32) : Neighbours :=
  (list.entries.filter (·.isAvailable)).foldl (Neighbours.scan current) {}

/-- Predicts the epipole of a picture from the nearest one, or from the average of two that are equally
near. -/
def predict (list : EpipoleList) (current : Int32) : Except EpipoleError (Vec3 α) :=
  match list.available? .global, list.nearest current with
  | some _, ⟨some (best, e), some (next, f)⟩ =>
    if next = best then .ok (Vec3.unscale (e.value + f.value) 2) else .ok e.value
  | some _, ⟨some (_, e), none⟩ => .ok e.value
  | _, _ => .error (.globalUnavailable current)

end EpipoleList

end SphereMotion
