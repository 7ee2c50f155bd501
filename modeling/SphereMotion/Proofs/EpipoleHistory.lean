import Mathlib
import SphereMotion.EpipoleList
import SphereMotion.Proofs.FixedPoints

namespace SphereMotion

open Scalar

variable {α : Type} [Scalar α]

/-- The pairs that the epipole of a pair is looked up under, the first one first. -/
def PicturePair.tiers (pair : PicturePair) : List PicturePair := [pair, ⟨pair.current, anyPicture⟩, global]

theorem PicturePair.not_before_self (p : PicturePair) : ¬p.Before p := by
  simp only [Before, Int32.lt_iff_toInt_lt]
  omega

namespace EpipoleEntry

/-- In an ordered list the entry of a pair takes the place of the earlier one, and every other entry stays. -/
theorem mem_insertInto_iff {e f : EpipoleEntry} {entries : List EpipoleEntry}
    (ordered : entries.Pairwise (·.pair.Before ·.pair)) :
    f ∈ e.insertInto entries ↔ f = e ∨ f ∈ entries ∧ f.pair ≠ e.pair := by
  induction entries with
  | nil => simp [insertInto]
  | cons g rest ih =>
    obtain ⟨first, later⟩ := List.pairwise_cons.mp ordered
    have apart {p : PicturePair} (after : p = g.pair ∨ p.Before g.pair) (inRest : f ∈ rest) : f.pair ≠ p := by
      rintro rfl
      rcases after with same | before
      · exact PicturePair.not_before_self _ (same ▸ first f inRest)
      · exact PicturePair.not_before_self _ (before.trans (first f inRest))
    unfold insertInto
    split_ifs with here before
    · rw [List.mem_cons, List.mem_cons]
      constructor
      · rintro (rfl | inRest)
        · exact .inl rfl
        · exact .inr ⟨.inr inRest, apart (.inl here) inRest⟩
      · rintro (rfl | ⟨rfl | inRest, other⟩)
        · exact .inl rfl
        · exact absurd here.symm other
        · exact .inr inRest
    · rw [List.mem_cons, List.mem_cons]
      constructor
      · rintro (rfl | rfl | inRest)
        · exact .inl rfl
        · exact .inr ⟨.inl rfl, Ne.symm here⟩
        · exact .inr ⟨.inr inRest, apart (.inr before) inRest⟩
      · rintro (rfl | ⟨member, -⟩)
        · exact .inl rfl
        · exact .inr member
    · rw [List.mem_cons, List.mem_cons, ih later]
      constructor
      · rintro (rfl | rfl | ⟨inRest, other⟩)
        · exact .inr ⟨.inl rfl, Ne.symm here⟩
        · exact .inl rfl
        · exact .inr ⟨.inr inRest, other⟩
      · rintro (rfl | ⟨rfl | inRest, other⟩)
        · exact .inr (.inl rfl)
        · exact .inl rfl
        · exact .inr (.inr ⟨inRest, other⟩)

/-- What is read of an entry is stored as it is there. -/
theorem map_value [RealValued α] (e : EpipoleEntry) :
    (e.value : Vec3 α).map (FixedPoint.ofScalar · precision) = e.epipole :=
  Vec3.ext (FixedPoint.ofScalar_toScalar _ (by decide)) (FixedPoint.ofScalar_toScalar _ (by decide))
    (FixedPoint.ofScalar_toScalar _ (by decide))

end EpipoleEntry

namespace EpipoleList

/-- An ordered list is known by its entries. -/
theorem eq_of_mem_iff {list other : EpipoleList} (alike : ∀ e, e ∈ list.entries ↔ e ∈ other.entries) :
    list = other := by
  have irreflexive : Std.Irrefl fun e f : EpipoleEntry => e.pair.Before f.pair :=
    ⟨fun e => e.pair.not_before_self⟩
  have asymmetric : Std.Antisymm fun e f : EpipoleEntry => e.pair.Before f.pair :=
    ⟨fun e f before after => absurd (before.trans after) e.pair.not_before_self⟩
  obtain ⟨entries, ordered⟩ := list
  obtain ⟨entries', ordered'⟩ := other
  obtain rfl : entries = entries' := ordered.eq_of_mem_iff ordered' alike
  rfl

theorem nodup_pairs (list : EpipoleList) : (list.entries.map (·.pair)).Nodup :=
  List.pairwise_map.mpr (list.ordered.imp fun {e f} before (same : e.pair = f.pair) =>
    f.pair.not_before_self (same ▸ before))

/-- A pair has one entry. -/
theorem eq_of_pair_eq {list : EpipoleList} {e f : EpipoleEntry} (left : e ∈ list.entries) (right : f ∈ list.entries)
    (same : e.pair = f.pair) : e = f :=
  List.inj_on_of_nodup_map list.nodup_pairs left right same

theorem mem_add {list : EpipoleList} {epipole : Vec3 α} {pair : PicturePair} {isAvailable : Bool}
    {e : EpipoleEntry} :
    e ∈ (list.add epipole pair isAvailable).entries ↔
      e = ⟨pair, epipole.map (FixedPoint.ofScalar · EpipoleEntry.precision), isAvailable⟩ ∨
        e ∈ list.entries ∧ e.pair ≠ pair :=
  EpipoleEntry.mem_insertInto_iff list.ordered

theorem mem_makeAvailable {list : EpipoleList} {current : Int32} {e : EpipoleEntry} :
    e ∈ (list.makeAvailable current).entries ↔
      ∃ f ∈ list.entries, e = ⟨f.pair, f.epipole, f.isAvailable || f.pair.current == current⟩ := by
  simp only [makeAvailable, List.mem_map, eq_comm]

theorem available?_eq_some_iff {list : EpipoleList} {pair : PicturePair} {e : EpipoleEntry} :
    list.available? pair = some e ↔ e ∈ list.entries ∧ e.pair = pair ∧ e.isAvailable = true := by
  constructor
  · intro found
    have matches' := List.find?_some found
    simp only [Bool.and_eq_true, beq_iff_eq] at matches'
    exact ⟨List.mem_of_find?_eq_some found, matches'⟩
  · rintro ⟨member, rfl, available⟩
    cases found : list.available? e.pair with
    | none =>
      have missing := List.find?_eq_none.mp found e member
      simp [available] at missing
    | some f =>
      have matches' := List.find?_some found
      simp only [Bool.and_eq_true, beq_iff_eq] at matches'
      rw [eq_of_pair_eq (List.mem_of_find?_eq_some found) member matches'.1]

/-- The epipole of a pair is the first available one of its tiers. -/
theorem find_eq (list : EpipoleList) (pair : PicturePair) :
    (list.find pair : Except EpipoleError (Vec3 α)) =
      match pair.tiers.findSome? list.available? with
      | some e => .ok e.value
      | none => .error (.notFound pair) := by
  simp only [find, PicturePair.tiers, List.findSome?_cons, List.findSome?_nil]
  cases list.available? pair with
  | some e => rfl
  | none =>
    cases list.available? ⟨pair.current, PicturePair.anyPicture⟩ with
    | some e => rfl
    | none => cases list.available? .global <;> rfl

/-- A change to a list. -/
inductive Change (α : Type) where
  | add (epipole : Vec3 α) (pair : PicturePair) (isAvailable : Bool)
  | makeAvailable (current : Int32)

namespace Change

/-- The current picture that a change concerns. -/
def current : Change α → Int32
  | add _ pair _ => pair.current
  | makeAvailable current => current

/-- The pair that a change adds. -/
def pair? : Change α → Option PicturePair
  | add _ pair _ => some pair
  | makeAvailable _ => none

end Change

def apply (list : EpipoleList) : Change α → EpipoleList
  | .add epipole pair isAvailable => list.add epipole pair isAvailable
  | .makeAvailable current => list.makeAvailable current

/-- The list after changes to a new one. -/
def run (changes : List (Change α)) : EpipoleList := changes.foldl apply initial

/-- Changes to a new list, and before them the addition that it starts with. -/
def historyOf (changes : List (Change α)) : List (Change α) := .add .zero .global false :: changes

/-- The last time that a pair is added in a history, with the changes that come after. -/
structure LastAdded (history : List (Change α)) (pair : PicturePair) (epipole : Vec3 α) (isAvailable : Bool)
    (after : List (Change α)) : Prop where
  added : ∃ before, history = before ++ .add epipole pair isAvailable :: after
  last : some pair ∉ after.map Change.pair?

variable {history : List (Change α)} {pair : PicturePair} {epipole : Vec3 α} {isAvailable : Bool}
  {after : List (Change α)} {change : Change α}

omit [Scalar α] in
theorem lastAdded_concat_iff : LastAdded (history ++ [change]) pair epipole isAvailable after ↔
    change = .add epipole pair isAvailable ∧ after = [] ∨
      change.pair? ≠ some pair ∧ ∃ rest, after = rest ++ [change] ∧
        LastAdded history pair epipole isAvailable rest := by
  constructor
  · rintro ⟨⟨before, parts⟩, last⟩
    rcases List.eq_nil_or_concat after with rfl | ⟨rest, final, rfl⟩
    · exact .inl ⟨List.singleton_inj.mp (List.append_inj_right' parts rfl), rfl⟩
    · have regrouped : history ++ [change] = (before ++ .add epipole pair isAvailable :: rest) ++ [final] := by
        simpa using parts
      obtain rfl := List.singleton_inj.mp (List.append_inj_right' regrouped rfl)
      rw [List.concat_eq_append, List.map_append, List.mem_append, not_or] at last
      exact .inr ⟨by simpa [eq_comm] using last.2, rest, by simp,
        ⟨before, List.append_inj_left' regrouped rfl⟩, last.1⟩
  · rintro (⟨rfl, rfl⟩ | ⟨other, rest, rfl, ⟨before, rfl⟩, last⟩)
    · exact ⟨⟨history, rfl⟩, by simp⟩
    · refine ⟨⟨before, by simp⟩, ?_⟩
      rw [List.map_append, List.mem_append, not_or]
      exact ⟨last, by simpa using Ne.symm other⟩

section Values

variable [RealValued α]

/-- An entry as a history tells it. Its epipole is the last one added under its pair, in the nearest words of
32 bits; it is available if it was added so or has been made so since. -/
def Recorded (history : List (Change α)) (e : EpipoleEntry) : Prop :=
  ∃ epipole isAvailable after, LastAdded history e.pair epipole isAvailable after ∧
    e.epipole = epipole.map (fun x => FixedPoint.word EpipoleEntry.precision (RealValued.value x)) ∧
    (e.isAvailable = true ↔ isAvailable = true ∨ .makeAvailable e.pair.current ∈ after)

/-- A pair is available by what a history tells of it. -/
def Available (history : List (Change α)) (pair : PicturePair) : Prop :=
  ∃ e, Recorded history e ∧ e.pair = pair ∧ e.isAvailable = true

/-- The entry that a pair is given by a history: that of the first of its tiers that is available. -/
def Chosen (history : List (Change α)) (pair : PicturePair) (e : EpipoleEntry) : Prop :=
  Recorded history e ∧ e.isAvailable = true ∧
    ∃ earlier later, pair.tiers = earlier ++ e.pair :: later ∧ ∀ tier ∈ earlier, ¬Available history tier

theorem recorded_concat_add_iff [LawfulInfinities α] {e : EpipoleEntry} :
    Recorded (history ++ [.add epipole pair isAvailable]) e ↔
      e = ⟨pair, epipole.map (FixedPoint.ofScalar · EpipoleEntry.precision), isAvailable⟩ ∨
        Recorded history e ∧ e.pair ≠ pair := by
  have words : epipole.map (FixedPoint.ofScalar · EpipoleEntry.precision) =
      epipole.map fun x => FixedPoint.word EpipoleEntry.precision (RealValued.value x) :=
    Vec3.ext (FixedPoint.ofScalar_eq_word _ (by decide)) (FixedPoint.ofScalar_eq_word _ (by decide))
      (FixedPoint.ofScalar_eq_word _ (by decide))
  rw [words]
  constructor
  · rintro ⟨epipole', given, after, added, isWords, available⟩
    rcases lastAdded_concat_iff.mp added with ⟨same, rfl⟩ | ⟨other, rest, rfl, earlier⟩
    · obtain ⟨rfl, rfl, rfl⟩ := Change.add.inj same
      have flag : e.isAvailable = isAvailable := by simpa using available
      exact .inl (by rw [← isWords, ← flag])
    · refine .inr ⟨⟨epipole', given, rest, earlier, isWords, ?_⟩, ?_⟩
      · simpa using available
      · simpa [Change.pair?, eq_comm] using other
  · rintro (rfl | ⟨⟨epipole', given, after, added, isWords, available⟩, other⟩)
    · exact ⟨epipole, isAvailable, [], lastAdded_concat_iff.mpr (.inl ⟨rfl, rfl⟩), rfl, by simp⟩
    · refine ⟨epipole', given, _, lastAdded_concat_iff.mpr (.inr ⟨?_, after, rfl, added⟩), isWords, ?_⟩
      · simpa [Change.pair?, eq_comm] using other
      · simpa using available

theorem recorded_concat_makeAvailable_iff {current : Int32} {e : EpipoleEntry} :
    Recorded (history ++ [.makeAvailable current]) e ↔
      ∃ f, Recorded history f ∧ e = ⟨f.pair, f.epipole, f.isAvailable || f.pair.current == current⟩ := by
  constructor
  · rintro ⟨epipole, given, after, added, isWords, available⟩
    rcases lastAdded_concat_iff.mp added with ⟨same, -⟩ | ⟨-, rest, rfl, earlier⟩
    · cases same
    · classical
      refine ⟨⟨e.pair, e.epipole, decide (given = true ∨ .makeAvailable e.pair.current ∈ rest)⟩,
        ⟨epipole, given, rest, earlier, isWords, decide_eq_true_iff⟩, ?_⟩
      refine congrArg (EpipoleEntry.mk e.pair e.epipole) (Bool.eq_iff_iff.mpr ?_)
      rw [available]
      simp [or_assoc]
  · rintro ⟨f, ⟨epipole, given, after, added, isWords, available⟩, rfl⟩
    refine ⟨epipole, given, _, lastAdded_concat_iff.mpr (.inr ⟨nofun, after, rfl, added⟩), isWords, ?_⟩
    simp only [Bool.or_eq_true, beq_iff_eq, List.mem_append, List.mem_singleton, Change.makeAvailable.injEq,
      available, or_assoc]

/-- One more change is one more line of the history. -/
theorem mem_apply_iff [LawfulInfinities α] {list : EpipoleList}
    (told : ∀ e, e ∈ list.entries ↔ Recorded history e) (change : Change α) (e : EpipoleEntry) :
    e ∈ (list.apply change).entries ↔ Recorded (history ++ [change]) e := by
  cases change with
  | add epipole pair isAvailable => rw [apply, mem_add, recorded_concat_add_iff, told]
  | makeAvailable current =>
    rw [apply, mem_makeAvailable, recorded_concat_makeAvailable_iff]
    simp only [told]

theorem mem_foldl_apply_iff [LawfulInfinities α] (history : List (Change α)) (e : EpipoleEntry) :
    e ∈ (history.foldl apply ⟨[], .nil⟩).entries ↔ Recorded history e := by
  induction history using List.reverseRecOn generalizing e with
  | nil =>
    refine iff_of_false List.not_mem_nil ?_
    rintro ⟨_, _, _, ⟨⟨before, none⟩, -⟩, -⟩
    simp at none
  | append_singleton history change ih =>
    rw [List.foldl_append]
    exact mem_apply_iff ih change e

omit [Scalar α] in
/-- A pair that is added at all is added a last time. -/
theorem exists_lastAdded (member : pair ∈ history.filterMap Change.pair?) :
    ∃ epipole isAvailable after, LastAdded history pair epipole isAvailable after := by
  induction history using List.reverseRecOn with
  | nil => cases member
  | append_singleton history change ih =>
    by_cases same : change.pair? = some pair
    · cases change with
      | makeAvailable current => cases same
      | add epipole added isAvailable =>
        cases same
        exact ⟨epipole, isAvailable, [], lastAdded_concat_iff.mpr (.inl ⟨rfl, rfl⟩)⟩
    · have earlier : pair ∈ history.filterMap Change.pair? := by simpa [List.filterMap_append, same] using member
      obtain ⟨epipole, isAvailable, after, added⟩ := ih earlier
      exact ⟨epipole, isAvailable, _, lastAdded_concat_iff.mpr (.inr ⟨same, after, rfl, added⟩)⟩

/-- The pairs with an entry are those that have been added. -/
theorem exists_recorded_iff :
    (∃ e, Recorded history e ∧ e.pair = pair) ↔ pair ∈ history.filterMap Change.pair? := by
  constructor
  · rintro ⟨e, ⟨epipole, isAvailable, after, ⟨⟨before, rfl⟩, -⟩, -⟩, rfl⟩
    simp [Change.pair?]
  · intro member
    obtain ⟨epipole, isAvailable, after, added⟩ := exists_lastAdded member
    classical
    exact ⟨⟨pair, _, decide (isAvailable = true ∨ .makeAvailable pair.current ∈ after)⟩,
      ⟨epipole, isAvailable, after, added, rfl, decide_eq_true_iff⟩, rfl⟩

/-- What a list holds, found and left over from its history. -/
structure Tells (list : EpipoleList) (history : List (Change α)) : Prop where
  /-- The entries are those that the history tells of, each pair that was added having one. -/
  mem_iff {e : EpipoleEntry} : e ∈ list.entries ↔ Recorded history e
  exists_iff {pair : PicturePair} : (∃ e ∈ list.entries, e.pair = pair) ↔ pair ∈ history.filterMap Change.pair?
  unique {e f : EpipoleEntry} : e ∈ list.entries → f ∈ list.entries → e.pair = f.pair → e = f
  nonempty : list.entries ≠ []
  length : list.length = (history.filterMap Change.pair?).toFinset.card
  /-- The epipole of a pair is that of the first of its tiers that is available. -/
  find_eq_ok_iff {pair : PicturePair} {epipole : Vec3 α} :
    list.find pair = .ok epipole ↔ ∃ e, Chosen history pair e ∧ e.value = epipole
  find_eq_error_iff {pair : PicturePair} {cause : EpipoleError} :
    (list.find pair : Except EpipoleError (Vec3 α)) = .error cause ↔
      cause = .notFound pair ∧ ∀ tier ∈ pair.tiers, ¬Available history tier
  /-- An epipole that was found is stored under any pair as it was stored where it was found. -/
  find_add {pair other : PicturePair} {epipole : Vec3 α} {isAvailable : Bool} :
    list.find pair = .ok epipole → (∃ e, Chosen history pair e ∧
        ⟨other, e.epipole, isAvailable⟩ ∈ (list.add epipole other isAvailable).entries) ∧
      (list.add epipole other true).find other = .ok epipole
  /-- Changes that concern different current pictures may be made in either order. -/
  apply_comm {a b : Change α} : a.current ≠ b.current → (list.apply a).apply b = (list.apply b).apply a

end Values

theorem add_add_comm (list : EpipoleList) {p q : PicturePair} (apart : p ≠ q) (v w : Vec3 α) (first second : Bool) :
    (list.add v p first).add w q second = (list.add w q second).add v p first := by
  refine eq_of_mem_iff fun e => ?_
  simp only [mem_add]
  constructor
  · rintro (rfl | ⟨rfl | ⟨member, other⟩, other'⟩)
    · exact .inr ⟨.inl rfl, apart.symm⟩
    · exact .inl rfl
    · exact .inr ⟨.inr ⟨member, other'⟩, other⟩
  · rintro (rfl | ⟨rfl | ⟨member, other⟩, other'⟩)
    · exact .inr ⟨.inl rfl, apart⟩
    · exact .inl rfl
    · exact .inr ⟨.inr ⟨member, other'⟩, other⟩

theorem makeAvailable_add_comm (list : EpipoleList) {p : PicturePair} {current : Int32}
    (apart : p.current ≠ current) (v : Vec3 α) (isAvailable : Bool) :
    (list.add v p isAvailable).makeAvailable current = (list.makeAvailable current).add v p isAvailable := by
  refine eq_of_mem_iff fun e => ?_
  simp only [mem_add, mem_makeAvailable]
  constructor
  · rintro ⟨f, rfl | ⟨member, other⟩, rfl⟩
    · exact .inl (by simp [apart])
    · exact .inr ⟨⟨f, member, rfl⟩, other⟩
  · rintro (rfl | ⟨⟨f, member, rfl⟩, other⟩)
    · exact ⟨_, .inl rfl, by simp [apart]⟩
    · exact ⟨f, .inr ⟨member, other⟩, rfl⟩

theorem makeAvailable_makeAvailable_comm (list : EpipoleList) (c d : Int32) :
    (list.makeAvailable c).makeAvailable d = (list.makeAvailable d).makeAvailable c := by
  refine eq_of_mem_iff fun e => ?_
  simp only [mem_makeAvailable]
  constructor
  · rintro ⟨f, ⟨g, member, rfl⟩, rfl⟩
    exact ⟨_, ⟨g, member, rfl⟩, by simp only [Bool.or_right_comm]⟩
  · rintro ⟨f, ⟨g, member, rfl⟩, rfl⟩
    exact ⟨_, ⟨g, member, rfl⟩, by simp only [Bool.or_right_comm]⟩

/-- Changes that concern different current pictures may be made in either order. -/
theorem apply_apply_comm (list : EpipoleList) {a b : Change α} (apart : a.current ≠ b.current) :
    (list.apply a).apply b = (list.apply b).apply a := by
  cases a with
  | add v p first =>
    cases b with
    | add w q second =>
      exact list.add_add_comm (fun same => apart (congrArg PicturePair.current same)) v w first second
    | makeAvailable current => exact list.makeAvailable_add_comm apart v first
  | makeAvailable current =>
    cases b with
    | add w q second => exact (list.makeAvailable_add_comm apart.symm w second).symm
    | makeAvailable other => exact list.makeAvailable_makeAvailable_comm current other

/-- A new list is an empty one to which a zero vector has been added. -/
theorem run_eq_foldl_history [RealValued α] (changes : List (Change α)) :
    run changes = (historyOf changes).foldl apply ⟨[], .nil⟩ := by
  have zero : FixedPoint.ofScalar (0 : α) EpipoleEntry.precision = 0 := by
    rw [FixedPoint.ofScalar_of_real (by decide) RealValued.value_zero, FixedPoint.word, zero_mul, halfAway_zero]
    rfl
  have new : (add ⟨[], .nil⟩ (.zero : Vec3 α) .global false) = initial := by
    have words : (Vec3.zero : Vec3 α).map (FixedPoint.ofScalar · EpipoleEntry.precision) = ⟨0, 0, 0⟩ :=
      Vec3.ext zero zero zero
    simp only [add, words]
    rfl
  rw [historyOf, List.foldl_cons, apply, new, run]

section Told

variable [RealValued α] {list : EpipoleList} (told : ∀ {e}, e ∈ list.entries ↔ Recorded history e)

include told

theorem available?_eq_none_iff : list.available? pair = none ↔ ¬Available history pair := by
  rw [Option.eq_none_iff_forall_ne_some, Available]
  simp only [ne_eq, available?_eq_some_iff, told, not_exists]

/-- The scan of the tiers chooses as the history does. -/
theorem findSome?_available?_eq_some_iff {e : EpipoleEntry} :
    pair.tiers.findSome? list.available? = some e ↔ Chosen history pair e := by
  simp only [List.findSome?_eq_some_iff, available?_eq_some_iff, available?_eq_none_iff told, told, Chosen]
  constructor
  · rintro ⟨earlier, tier, later, parts, ⟨recorded, rfl, available⟩, none⟩
    exact ⟨recorded, available, earlier, later, parts, none⟩
  · rintro ⟨recorded, available, earlier, later, parts, none⟩
    exact ⟨earlier, e.pair, later, parts, ⟨recorded, rfl, available⟩, none⟩

theorem find_eq_ok_iff : list.find pair = .ok epipole ↔ ∃ e, Chosen history pair e ∧ e.value = epipole := by
  rw [find_eq]
  constructor
  · intro found
    split at found
    next e chosen => exact ⟨e, (findSome?_available?_eq_some_iff told).mp chosen, Except.ok.inj found⟩
    next => cases found
  · rintro ⟨e, chosen, rfl⟩
    rw [(findSome?_available?_eq_some_iff told).mpr chosen]

theorem find_eq_error_iff {cause : EpipoleError} :
    (list.find pair : Except EpipoleError (Vec3 α)) = .error cause ↔
      cause = .notFound pair ∧ ∀ tier ∈ pair.tiers, ¬Available history tier := by
  have none : pair.tiers.findSome? list.available? = none ↔ ∀ tier ∈ pair.tiers, ¬Available history tier := by
    simp only [List.findSome?_eq_none_iff, available?_eq_none_iff told]
  rw [find_eq, ← none]
  cases pair.tiers.findSome? list.available? with
  | none => simp [eq_comm]
  | some e => simp

end Told

/-- An available entry under the pair itself is what is found. -/
theorem find_add_self (list : EpipoleList) (epipole : Vec3 α) (pair : PicturePair) :
    (list.add epipole pair true).find pair =
      .ok (EpipoleEntry.value
        ⟨pair, epipole.map (FixedPoint.ofScalar · EpipoleEntry.precision), true⟩ : Vec3 α) := by
  have first : (list.add epipole pair true).available? pair =
      some ⟨pair, epipole.map (FixedPoint.ofScalar · EpipoleEntry.precision), true⟩ :=
    available?_eq_some_iff.mpr ⟨mem_add.mpr (.inl rfl), rfl, rfl⟩
  rw [find, first, Option.some_or]

/-- Whatever changes are made to a new list, it holds and finds what their history tells. -/
theorem tells_run [RealValued α] [LawfulInfinities α] (changes : List (Change α)) :
    (run changes).Tells (historyOf changes) := by
  have told {e : EpipoleEntry} : e ∈ (run changes).entries ↔ Recorded (historyOf changes) e := by
    rw [run_eq_foldl_history]
    exact mem_foldl_apply_iff _ e
  have added {pair : PicturePair} :
      (∃ e ∈ (run changes).entries, e.pair = pair) ↔ pair ∈ (historyOf changes).filterMap Change.pair? := by
    simp only [told]
    exact exists_recorded_iff
  refine ⟨told, added, eq_of_pair_eq, ?_, ?_, find_eq_ok_iff told, find_eq_error_iff told, ?_, apply_apply_comm _⟩
  · obtain ⟨e, member, -⟩ := added.mpr (List.mem_cons_self (a := PicturePair.global))
    exact List.ne_nil_of_mem member
  · rw [length, ← List.length_map (·.pair), ← List.toFinset_card_of_nodup (nodup_pairs _)]
    congr 1
    ext pair
    rw [List.mem_toFinset, List.mem_toFinset, List.mem_map, added]
  · intro pair other epipole isAvailable found
    obtain ⟨e, chosen, rfl⟩ := (find_eq_ok_iff told).mp found
    rw [find_add_self, EpipoleEntry.map_value]
    exact ⟨⟨e, chosen, mem_add.mpr (.inl (by rw [EpipoleEntry.map_value]))⟩, rfl⟩

/-- An epipole that is added again has to be made available again, and until then the next tier is found. A
vector of an infinity, an undefined component and a negative half is stored too. -/
theorem tells_run_of_overwritten :
    let odd : Vec3 Double := ⟨.ofBits 0x7ff0000000000000, .undefined, .ofBits 0xbfe0000000000000⟩
    let changes : List (Change Double) :=
      [.add odd ⟨3, 2⟩ false, .makeAvailable 3, .add odd ⟨3, -1⟩ true, .add .unitX ⟨3, 2⟩ false, .makeAvailable 4]
    (run changes).Tells (historyOf changes) ∧
      (run changes).entries = [⟨.global, ⟨0, 0, 0⟩, false⟩, ⟨⟨3, -1⟩, ⟨Int32.maxValue, 0, -8192⟩, true⟩,
        ⟨⟨3, 2⟩, ⟨16384, 0, 0⟩, false⟩] ∧
      (run changes).find ⟨3, 2⟩ =
        .ok (EpipoleEntry.value ⟨⟨3, -1⟩, ⟨Int32.maxValue, 0, -8192⟩, true⟩ : Vec3 Double) ∧
      (run changes).find ⟨5, 2⟩ = (.error (.notFound ⟨5, 2⟩) : Except EpipoleError (Vec3 Double)) := by
  intro odd changes
  refine ⟨tells_run changes, ?_, ?_, ?_⟩ <;> simp only [changes, odd] <;> rfl

end EpipoleList

end SphereMotion
