import SphereMotion.Json.Value

namespace SphereMotion.Json

/-- A character as it stands in a string. Control characters are written by their code. -/
def renderChar (c : Char) : String :=
  if c = '"' then "\\\""
  else if c = '\\' then "\\\\"
  else if c < ' ' then
    "\\u00" ++ String.singleton (Nat.digitChar (c.toNat / 16)) ++ String.singleton (Nat.digitChar (c.toNat % 16))
  else String.singleton c

def renderString (s : String) : String := "\"" ++ String.join (s.toList.map renderChar) ++ "\""

def renderNumber (n : JsonNumber) : String :=
  (if n.isNegative then "-" else "") ++ toString n.digits ++ (if n.isWhole then "" else "e" ++ toString n.exponent)

mutual

/-- A value on one line, without blanks. -/
def render : Json → String
  | null => "null"
  | bool b => if b then "true" else "false"
  | number n => renderNumber n
  | text s => renderString (s.getD "")
  | list items => "[" ++ ",".intercalate (renderAll items) ++ "]"
  | object members => "\x7b" ++ ",".intercalate (renderMembers members) ++ "\x7d"

def renderAll : List Json → List String
  | [] => []
  | item :: rest => render item :: renderAll rest

def renderMembers : List (JsonText × Json) → List String
  | [] => []
  | (key, value) :: rest => (renderString (key.getD "") ++ ":" ++ render value) :: renderMembers rest

end

end SphereMotion.Json
