import SphereMotion.Json.Value

namespace SphereMotion

/-- The smallest parts of a JSON text. Values other than lists and objects are a token each. -/
inductive JsonToken where
  | openList
  | closeList
  | openObject
  | closeObject
  | comma
  | colon
  | value (v : Json)

namespace JsonToken

/-- A piece of a string: a character, or a UTF-16 unit given by an escape. -/
inductive Piece where
  | char (c : Char)
  | unit (n : Nat)

/-- Joins the pieces of a string. A unit of a surrogate pair needs the other one beside it. -/
def join : List Piece → Option (List Char)
  | [] => some []
  | .char c :: rest => (join rest).map (c :: ·)
  | .unit high :: .unit low :: rest =>
    if 0xD800 ≤ high ∧ high < 0xDC00 then
      if 0xDC00 ≤ low ∧ low < 0xE000 then
        (join rest).map (Char.ofNat (0x10000 + (high - 0xD800) * 0x400 + (low - 0xDC00)) :: ·)
      else none
    else if 0xDC00 ≤ high ∧ high < 0xE000 then none
    else (join (.unit low :: rest)).map (Char.ofNat high :: ·)
  | .unit n :: rest =>
    if 0xD800 ≤ n ∧ n < 0xE000 then none else (join rest).map (Char.ofNat n :: ·)

def hexDigit? (c : Char) : Option Nat :=
  if c.isDigit then some (c.toNat - '0'.toNat)
  else if 'a' ≤ c ∧ c ≤ 'f' then some (c.toNat - 'a'.toNat + 10)
  else if 'A' ≤ c ∧ c ≤ 'F' then some (c.toNat - 'A'.toNat + 10)
  else none

def escaped? : Char → Option Char
  | '"' => some '"'
  | '\\' => some '\\'
  | '/' => some '/'
  | 'b' => some '\x08'
  | 'f' => some '\x0c'
  | 'n' => some '\n'
  | 'r' => some '\r'
  | 't' => some '\t'
  | _ => none

/-- The pieces of a string up to its closing quote, and what follows the quote. -/
def pieces : List Char → Option (List Piece × List Char)
  | [] => none
  | '"' :: rest => some ([], rest)
  | '\\' :: 'u' :: a :: b :: c :: d :: rest => do
    let n := (((← hexDigit? a) * 16 + (← hexDigit? b)) * 16 + (← hexDigit? c)) * 16 + (← hexDigit? d)
    let (found, rest) ← pieces rest
    some (.unit n :: found, rest)
  | '\\' :: letter :: rest => do
    let c ← escaped? letter
    let (found, rest) ← pieces rest
    some (.char c :: found, rest)
  | c :: rest =>
    if c < ' ' then none else do
      let (found, rest) ← pieces rest
      some (.char c :: found, rest)

theorem pieces_length {cs rest : List Char} {found : List Piece} (read : pieces cs = some (found, rest)) :
    rest.length < cs.length := by
  fun_induction pieces cs generalizing found rest with
  | case1 => simp at read
  | case2 => simp_all
  | case3 a b c d tail ih =>
    simp only [Option.bind_eq_bind, Option.bind_eq_some_iff] at read
    obtain ⟨_, _, _, _, _, _, _, _, ⟨_, _⟩, inner, last⟩ := read
    have := ih inner
    simp only [Option.some.injEq, Prod.mk.injEq] at last
    grind
  | case4 letter tail _ ih =>
    simp only [Option.bind_eq_bind, Option.bind_eq_some_iff] at read
    obtain ⟨_, _, ⟨_, _⟩, inner, last⟩ := read
    have := ih inner
    simp only [Option.some.injEq, Prod.mk.injEq] at last
    grind
  | case5 => simp at read
  | case6 c tail _ _ _ _ ih =>
    simp only [Option.bind_eq_bind, Option.bind_eq_some_iff] at read
    obtain ⟨⟨_, _⟩, inner, last⟩ := read
    have := ih inner
    simp only [Option.some.injEq, Prod.mk.injEq] at last
    grind

theorem length_dropWhile_le (p : Char → Bool) (cs : List Char) : (cs.dropWhile p).length ≤ cs.length :=
  (List.dropWhile_suffix p).length_le

/-- The leading digits, at least one, and what follows them. -/
def digits (cs : List Char) : Option (List Char × List Char) :=
  if (cs.takeWhile Char.isDigit).isEmpty then none else some (cs.takeWhile Char.isDigit, cs.dropWhile Char.isDigit)

/-- The digits of an integer part, which starts with zero only if it is zero. -/
def integerPart (cs : List Char) : Option (List Char × List Char) :=
  match digits cs with
  | some ('0' :: _ :: _, _) => none
  | found => found

def fractionPart : List Char → Option (List Char × List Char)
  | '.' :: rest => digits rest
  | rest => some ([], rest)

def natOf (ds : List Char) : Nat := ds.foldl (fun n d => n * 10 + (d.toNat - '0'.toNat)) 0

/-- The exponent, if there is one, and what follows. -/
def exponentPart (cs : List Char) : Option (Option Int × List Char) :=
  match cs with
  | e :: sign :: rest =>
    if e = 'e' ∨ e = 'E' then
      if sign = '-' then (digits rest).map fun (ds, rest) => (some (-(natOf ds)), rest)
      else if sign = '+' then (digits rest).map fun (ds, rest) => (some (natOf ds), rest)
      else (digits (sign :: rest)).map fun (ds, rest) => (some (natOf ds), rest)
    else some (none, cs)
  | [e] => if e = 'e' ∨ e = 'E' then none else some (none, cs)
  | [] => some (none, [])

/-- A number without its sign, and what follows it. -/
def unsigned (isNegative : Bool) (cs : List Char) : Option (JsonNumber × List Char) := do
  let (whole, rest) ← integerPart cs
  let (fraction, rest) ← fractionPart rest
  let (exponent, rest) ← exponentPart rest
  some (⟨isNegative, natOf (whole ++ fraction), exponent.getD 0 - fraction.length,
    fraction.isEmpty && exponent.isNone⟩, rest)

/-- The next token and what follows it. The text starts with no blank. -/
def next : List Char → Option (JsonToken × List Char)
  | '[' :: rest => some (openList, rest)
  | ']' :: rest => some (closeList, rest)
  | '{' :: rest => some (openObject, rest)
  | '}' :: rest => some (closeObject, rest)
  | ',' :: rest => some (comma, rest)
  | ':' :: rest => some (colon, rest)
  | '"' :: rest => (pieces rest).map fun (found, rest) => (value (.text ((join found).map String.ofList)), rest)
  | 'n' :: 'u' :: 'l' :: 'l' :: rest => some (value .null, rest)
  | 't' :: 'r' :: 'u' :: 'e' :: rest => some (value (.bool true), rest)
  | 'f' :: 'a' :: 'l' :: 's' :: 'e' :: rest => some (value (.bool false), rest)
  | '-' :: rest => (unsigned true rest).map fun (n, rest) => (value (.number n), rest)
  | cs => (unsigned false cs).map fun (n, rest) => (value (.number n), rest)

theorem digits_length {cs ds rest : List Char} (read : digits cs = some (ds, rest)) : rest.length < cs.length := by
  unfold digits at read
  split at read
  · simp at read
  next full =>
    obtain ⟨rfl, rfl⟩ := Prod.mk.inj (Option.some.inj read)
    have whole := congrArg List.length (List.takeWhile_append_dropWhile (p := Char.isDigit) (l := cs))
    have := List.length_pos_iff.mpr (by simpa using full : cs.takeWhile Char.isDigit ≠ [])
    rw [List.length_append] at whole
    omega

theorem integerPart_length {cs ds rest : List Char} (read : integerPart cs = some (ds, rest)) :
    rest.length < cs.length := by
  unfold integerPart at read
  split at read
  · simp at read
  · exact digits_length read

theorem fractionPart_length {cs ds rest : List Char} (read : fractionPart cs = some (ds, rest)) :
    rest.length ≤ cs.length := by
  unfold fractionPart at read
  split at read
  · have := digits_length read
    simp only [List.length_cons]
    omega
  · simp_all

theorem exponentPart_length {cs rest : List Char} {e : Option Int} (read : exponentPart cs = some (e, rest)) :
    rest.length ≤ cs.length := by
  have shorter {ds : List Char} {f : List Char → Int}
      (found : (digits ds).map (fun (ds, rest) => (some (f ds), rest)) = some (e, rest)) :
      rest.length < ds.length := by
    obtain ⟨⟨_, _⟩, inner, last⟩ := Option.map_eq_some_iff.mp found
    obtain ⟨-, rfl⟩ := Prod.mk.inj last
    exact digits_length inner
  unfold exponentPart at read
  split at read
  · split at read
    · split at read
      · have := shorter (f := fun ds => -(natOf ds : Int)) read
        simp only [List.length_cons]
        omega
      · split at read
        · have := shorter (f := fun ds => (natOf ds : Int)) read
          simp only [List.length_cons]
          omega
        · have := shorter (f := fun ds => (natOf ds : Int)) read
          simp only [List.length_cons] at *
          omega
    · simp_all
  · split at read <;> simp_all
  · simp_all

theorem unsigned_length {isNegative : Bool} {cs rest : List Char} {n : JsonNumber}
    (read : unsigned isNegative cs = some (n, rest)) : rest.length < cs.length := by
  simp only [unsigned, Option.bind_eq_bind, Option.bind_eq_some_iff] at read
  obtain ⟨⟨_, _⟩, whole, ⟨_, _⟩, fraction, ⟨_, _⟩, exponent, last⟩ := read
  have := integerPart_length whole
  have := fractionPart_length fraction
  have := exponentPart_length exponent
  grind

theorem next_length {cs rest : List Char} {t : JsonToken} (read : next cs = some (t, rest)) :
    rest.length < cs.length := by
  unfold next at read
  split at read
  case h_7 =>
    obtain ⟨⟨_, _⟩, inner, last⟩ := Option.map_eq_some_iff.mp read
    have := pieces_length inner
    grind
  case h_11 =>
    obtain ⟨⟨_, _⟩, inner, last⟩ := Option.map_eq_some_iff.mp read
    have := unsigned_length inner
    grind
  case h_12 =>
    obtain ⟨⟨_, _⟩, inner, last⟩ := Option.map_eq_some_iff.mp read
    have := unsigned_length inner
    grind
  all_goals grind

def isBlank (c : Char) : Bool := c == ' ' || c == '\t' || c == '\n' || c == '\r'

def tokens? (cs : List Char) : Option (List JsonToken) :=
  match trimmed : cs.dropWhile isBlank with
  | [] => some []
  | c :: rest =>
    match read : next (c :: rest) with
    | none => none
    | some (t, later) =>
      have : later.length < cs.length :=
        Nat.lt_of_lt_of_le (next_length read) (trimmed ▸ length_dropWhile_le isBlank cs)
      (tokens? later).map (t :: ·)
termination_by cs.length

end JsonToken

end SphereMotion
