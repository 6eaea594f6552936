import RelayControl.Json.Token

/-!
The tree of a JSON text. Every text has one: where reading stops, the tree holds the flaw at that
place, and nothing follows it. Keys are kept as often as they are written, and a tree says nothing
about the depth that a reader accepts.
-/

namespace RelayControl.Json

inductive Doc where
  /-- Refused with `strict`, or with `skipped`, if at all, where the value is not needed. -/
  | flawed (strict : Flaw) (skipped : Option Flaw)
  | null
  | bool (b : Bool)
  | number (n : Number)
  | text (s : String)
  | items (xs : List Doc) (ending : Option Flaw)
  /-- A key is `none` when a surrogate in it has no partner. -/
  | members (ms : List (Option String × Doc)) (ending : Option Flaw)
  deriving Inhabited

namespace Doc

def broken (f : Flaw) : Doc := .flawed f (some f)

/-- An array or object that has been opened, its finished parts in reverse. -/
inductive Frame where
  | items (before : List Doc)
  | members (before : List (Option String × Doc)) (key : Option String)

inductive State where
  | value (outer : List Frame)
  | firstItem (outer : List Frame)
  | firstKey (outer : List Frame)
  | key (before : List (Option String × Doc)) (outer : List Frame)
  | colon (before : List (Option String × Doc)) (key : Option String) (outer : List Frame)
  /-- A value stands in the innermost frame; its end or a comma follows. -/
  | after (v : Doc) (inner : Frame) (outer : List Frame)
  /-- The whole value is read; `trailing` tells whether anything follows it. -/
  | complete (v : Doc) (trailing : Bool)
  | stopped (v : Doc)

/-- The whole value, when nothing follows `v` in any of the frames around it. -/
def close (v : Doc) : List Frame → Doc
  | [] => v
  | .items before :: outer => close (.items (v :: before).reverse none) outer
  | .members before k :: outer => close (.members ((k, v) :: before).reverse none) outer

/-- The frame with its last value and the flaw that follows it. -/
def Frame.endAt (v : Doc) (f : Flaw) : Frame → Doc
  | .items before => .items (v :: before).reverse (some f)
  | .members before k => .members ((k, v) :: before).reverse (some f)

namespace State

def stopAt (v : Doc) (outer : List Frame) : State :=
  .stopped (v.close outer)

def place (v : Doc) : List Frame → State
  | [] => .complete v false
  | inner :: outer => .after v inner outer

def startValue (outer : List Frame) : Token → State
  | .openArray => .firstItem outer
  | .openObject => .firstKey outer
  | .null => place .null outer
  | .bool b => place (.bool b) outer
  | .number n => place (.number n) outer
  | .text s => place (.text s) outer
  | .flawed _ strict none => place (.flawed strict none) outer
  | .flawed _ strict (some f) => stopAt (.flawed strict (some f)) outer
  | _ => stopAt (.broken .malformed) outer

def startKey (before : List (Option String × Doc)) (outer : List Frame) : Token → State
  | .text s => .colon before (some s) outer
  | .flawed true _ none => .colon before none outer
  | .flawed true strict (some f) =>
      if strict = f then stopAt (.members before.reverse (some f)) outer
      else stopAt (.members ((none, .broken f) :: before).reverse none) outer
  | _ => stopAt (.members before.reverse (some .malformed)) outer

def step : State → Token → State
  | .value outer, t => startValue outer t
  | .firstItem outer, .closeArray => place (.items [] none) outer
  | .firstItem outer, t => startValue (.items [] :: outer) t
  | .firstKey outer, .closeObject => place (.members [] none) outer
  | .firstKey outer, t => startKey [] outer t
  | .key before outer, t => startKey before outer t
  | .colon before k outer, .colon => .value (.members before k :: outer)
  | .colon before k outer, _ => stopAt (.broken .malformed) (.members before k :: outer)
  | .after v (.items before) outer, .comma => .value (.items (v :: before) :: outer)
  | .after v (.items before) outer, .closeArray => place (.items (v :: before).reverse none) outer
  | .after v (.members before k) outer, .comma => .key ((k, v) :: before) outer
  | .after v (.members before k) outer, .closeObject =>
      place (.members ((k, v) :: before).reverse none) outer
  | .after v inner outer, _ => stopAt (inner.endAt v .malformed) outer
  | .complete v _, _ => .complete v true
  | .stopped v, _ => .stopped v

def finish : State → Doc × Bool
  | .value outer => ((broken .truncated).close outer, false)
  | .firstItem outer => ((items [] (some .truncated)).close outer, false)
  | .firstKey outer => ((members [] (some .truncated)).close outer, false)
  | .key before outer => ((members before.reverse (some .truncated)).close outer, false)
  | .colon before k outer => ((broken .truncated).close (.members before k :: outer), false)
  | .after v inner outer => ((inner.endAt v .truncated).close outer, false)
  | .complete v trailing => (v, trailing)
  | .stopped v => (v, false)

end State

/-- The tree of a text and whether anything but blanks follows it. -/
def read (s : String) : Doc × Bool :=
  ((tokens s.toList).foldl State.step (.value [])).finish

mutual

def ofJson : Json → Doc
  | .null => .null
  | .bool b => .bool b
  | .number n => .number n
  | .text s => .text s
  | .array xs => .items (ofItems xs) none
  | .object ms => .members (ofMembers ms) none

def ofItems : List Json → List Doc
  | [] => []
  | x :: xs => ofJson x :: ofItems xs

def ofMembers : List (String × Json) → List (Option String × Doc)
  | [] => []
  | (k, v) :: ms => (some k, ofJson v) :: ofMembers ms

end

end Doc

end RelayControl.Json
