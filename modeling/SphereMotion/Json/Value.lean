namespace SphereMotion

/-- A number as it is written: `digits * 10 ^ exponent`, whole if it has neither a point nor an exponent. -/
structure JsonNumber where
  isNegative : Bool
  digits : Nat
  exponent : Int
  isWhole : Bool
  deriving DecidableEq, Repr

/-- A string, or `none` if an escape in it stands for half of a surrogate pair. -/
abbrev JsonText := Option String

/-- A JSON value as it is written. Members of an object keep their order and may repeat a key. -/
inductive Json where
  | null
  | bool (b : Bool)
  | number (n : JsonNumber)
  | text (s : JsonText)
  | list (items : List Json)
  | object (members : List (JsonText × Json))

namespace JsonNumber

def ofInt (n : Int) : JsonNumber := ⟨n < 0, n.natAbs, 0, true⟩

/-- The integer that a whole number stands for. A negative zero is not an integer. -/
def int? (n : JsonNumber) : Option Int :=
  if !n.isWhole || (n.isNegative && n.digits == 0) then none
  else some (if n.isNegative then -n.digits else n.digits)

/-- The double nearest to the number, if it is finite. Numbers far outside the range of doubles are told by the
length of their digits, three tenths of a decimal for each binary one. -/
def float? (n : JsonNumber) : Option Float :=
  let bits : Int := n.digits.log2
  let magnitude : Option Float :=
    if n.digits = 0 ∨ n.exponent + (bits + 1) * 31 / 100 < -400 then some 0
    else if 400 < n.exponent + bits * 3 / 10 then none
    else
      let x := Float.ofScientific n.digits (n.exponent < 0) n.exponent.natAbs
      if x.isFinite then some x else none
  magnitude.map fun x => if n.isNegative then -x else x

end JsonNumber

namespace Json

def ofString (s : String) : Json := text (some s)

def ofBool (b : Bool) : Json := bool b

def bool? : Json → Option Bool
  | bool b => some b
  | _ => none

def string? : Json → Option String
  | text s => s
  | _ => none

def list? : Json → Option (List Json)
  | list items => some items
  | _ => none

def float? : Json → Option Float
  | number n => n.float?
  | _ => none

def int? (low high : Int) : Json → Option Int
  | number n => n.int?.filter fun i => low ≤ i && i ≤ high
  | _ => none

def nat? (high : Nat) (json : Json) : Option Nat := (json.int? 0 high).map Int.toNat

/-- The values of a record's fields, by position in `fields`. A record is written as an object, in which no
field may repeat and other members are ignored, or as the list of its first fields in order. -/
def record? (fields : List String) : Json → Option (List (Option Json))
  | list items =>
    if items.length ≤ fields.length then
      some (items.map some ++ List.replicate (fields.length - items.length) none)
    else none
  | object members => do
    let keys ← members.mapM (·.1)
    if fields.any fun field => 1 < keys.count field then none
    some (fields.map fun field => (members.find? (·.1 == some field)).map (·.2))
  | _ => none

mutual

/-- Whether the strings of a value are sound, its numbers are finite doubles and its lists and objects nest at
most `depth` deep. -/
def isPlain (depth : Nat) : Json → Bool
  | null | bool _ => true
  | number n => n.float?.isSome
  | text s => s.isSome
  | list items => 0 < depth && allPlain (depth - 1) items
  | object members => 0 < depth && membersPlain (depth - 1) members

def allPlain (depth : Nat) : List Json → Bool
  | [] => true
  | item :: rest => isPlain depth item && allPlain depth rest

def membersPlain (depth : Nat) : List (JsonText × Json) → Bool
  | [] => true
  | (key, value) :: rest => key.isSome && isPlain depth value && membersPlain depth rest

end

end Json

end SphereMotion
