import SphereMotion.Json.Token

namespace SphereMotion.Json

/-- A list or an object that is being read, with its parts so far in reverse. -/
inductive Context where
  | items (done : List Json)
  | members (done : List (JsonText × Json)) (key : JsonText)

/-- What the reader waits for inside the contexts around it, the innermost first. -/
inductive Stage where
  | value (outer : List Context)
  | firstItem (outer : List Context)
  | firstKey (outer : List Context)
  | key (done : List (JsonText × Json)) (outer : List Context)
  | colon (done : List (JsonText × Json)) (key : JsonText) (outer : List Context)
  /-- A value has been read; the innermost context says what may follow it. -/
  | after (v : Json) (outer : List Context)

namespace Stage

def start (outer : List Context) : JsonToken → Option Stage
  | .value v => some (after v outer)
  | .openList => some (firstItem outer)
  | .openObject => some (firstKey outer)
  | _ => none

def step : Stage → JsonToken → Option Stage
  | value outer, t => start outer t
  | firstItem outer, .closeList => some (after (.list []) outer)
  | firstItem outer, t => start (.items [] :: outer) t
  | firstKey outer, .closeObject => some (after (.object []) outer)
  | firstKey outer, .value (.text k) => some (colon [] k outer)
  | key done outer, .value (.text k) => some (colon done k outer)
  | colon done k outer, .colon => some (value (.members done k :: outer))
  | after v (.items done :: outer), .comma => some (value (.items (v :: done) :: outer))
  | after v (.items done :: outer), .closeList => some (after (.list (v :: done).reverse) outer)
  | after v (.members done k :: outer), .comma => some (key ((k, v) :: done) outer)
  | after v (.members done k :: outer), .closeObject => some (after (.object ((k, v) :: done).reverse) outer)
  | _, _ => none

end Stage

/-- Reads a text that holds one value and nothing else but blanks. -/
def read? (text : String) : Option Json := do
  match ← (← JsonToken.tokens? text.toList).foldlM Stage.step (.value []) with
  | .after v [] => some v
  | _ => none

end SphereMotion.Json
