import RelayControl.Json.Doc

/-!
Decoding a tree into a value of a given shape. A decoder goes through the tree in reading order and
answers with the first problem it meets, be it a flaw of the text or a value of the wrong shape.
-/

namespace RelayControl.Json

/-- Arrays and objects may be nested this deep. -/
def depthLimit : Nat := 127

/-- Reads a tree that stands inside the given number of arrays and objects. -/
abbrev Decoder (α : Type) := Nat → Doc → Except Flaw α

def proceed : Option Flaw → Except Flaw Unit
  | none => .ok ()
  | some f => .error f

namespace Doc

def refusal : Doc → Flaw
  | .flawed strict _ => strict
  | _ => .unfit

mutual

/-- Any value; in an object the last member of a key counts. -/
def toJson (depth : Nat) : Doc → Except Flaw Json
  | .flawed strict _ => .error strict
  | .null => .ok .null
  | .bool b => .ok (.bool b)
  | .number n => .ok (.number n)
  | .text s => .ok (.text s)
  | .items xs ending =>
      if depth < depthLimit then do
        let vs ← toItems (depth + 1) xs
        proceed ending
        pure (.array vs)
      else .error .malformed
  | .members ms ending =>
      if depth < depthLimit then do
        let vs ← toMembers (depth + 1) ms
        proceed ending
        pure (.object (vs.foldl (fun acc m => Members.insert m.1 m.2 acc) []))
      else .error .malformed

def toItems (depth : Nat) : List Doc → Except Flaw (List Json)
  | [] => .ok []
  | x :: xs => do
      let v ← toJson depth x
      let vs ← toItems depth xs
      pure (v :: vs)

def toMembers (depth : Nat) : List (Option String × Doc) → Except Flaw (List (String × Json))
  | [] => .ok []
  | (none, _) :: _ => .error .malformed
  | (some k, d) :: ms => do
      let v ← toJson depth d
      let vs ← toMembers depth ms
      pure ((k, v) :: vs)

end

mutual

def skip : Doc → Except Flaw Unit
  | .flawed _ skipped => proceed skipped
  | .items xs ending => do
      skipItems xs
      proceed ending
  | .members ms ending => do
      skipMembers ms
      proceed ending
  | _ => .ok ()

def skipItems : List Doc → Except Flaw Unit
  | [] => .ok ()
  | x :: xs => do
      skip x
      skipItems xs

def skipMembers : List (Option String × Doc) → Except Flaw Unit
  | [] => .ok ()
  | (_, d) :: ms => do
      skip d
      skipMembers ms

end

end Doc

namespace Decoder

def json : Decoder Json := Doc.toJson

def text : Decoder String
  | _, .text s => .ok s
  | _, d => .error d.refusal

def bool : Decoder Bool
  | _, .bool b => .ok b
  | _, d => .error d.refusal

def whole (low high : Int) : Decoder Int
  | _, .number n =>
      match n.toInt? with
      | some i => if low ≤ i ∧ i ≤ high then .ok i else .error .unfit
      | none => .error .unfit
  | _, d => .error d.refusal

def natural (bits : Nat) : Decoder Nat := fun depth d =>
  (whole 0 (Nat.pow 2 bits - 1) depth d).map Int.toNat

def word32 : Decoder UInt32 := fun depth d => (natural 32 depth d).map UInt32.ofNat

def byte : Decoder UInt8 := fun depth d => (natural 8 depth d).map UInt8.ofNat

def signed64 : Decoder Int := whole (-0x8000000000000000) 0x7FFFFFFFFFFFFFFF

def members : Decoder Members
  | depth, .members ms ending => do
      match ← json depth (.members ms ending) with
      | .object ms => pure ms
      | _ => .error .unfit
  | _, d => .error d.refusal

def andThen (item : Decoder α) (f : α → β) : Decoder β := fun depth d => (item depth d).map f

def optional (item : Decoder α) : Decoder (Option α)
  | _, .null => .ok none
  | depth, d => (item depth d).map some

def listItems (item : Decoder α) (depth : Nat) : List Doc → Except Flaw (List α)
  | [] => .ok []
  | d :: ds => do
      let x ← item depth d
      let xs ← listItems item depth ds
      pure (x :: xs)

def list (item : Decoder α) : Decoder (List α)
  | depth, .items xs ending =>
      if depth < depthLimit then do
        let vs ← listItems item (depth + 1) xs
        proceed ending
        pure vs
      else .error .malformed
  | _, d => .error d.refusal

def mapMembers (item : Decoder α) (depth : Nat) (acc : List (String × α)) :
    List (Option String × Doc) → Except Flaw (List (String × α))
  | [] => .ok acc
  | (none, _) :: _ => .error .malformed
  | (some k, d) :: ms => do
      let v ← item depth d
      mapMembers item depth (Members.insert k v acc) ms

/-- An object with free keys; the last member of a key counts. -/
def map (item : Decoder α) : Decoder (List (String × α))
  | depth, .members ms ending =>
      if depth < depthLimit then do
        let vs ← mapMembers item (depth + 1) [] ms
        proceed ending
        pure vs
      else .error .malformed
  | _, d => .error d.refusal

/-- Tries one shape after the other on a value that is sound as a whole. -/
def oneOf (first second : Decoder α) : Decoder α := fun depth d => do
  let _ ← json depth d
  match first depth d with
  | .ok x => pure x
  | .error _ =>
      match second depth d with
      | .ok x => pure x
      | .error _ => .error .unfit

end Decoder

/-- A named field of a record, with the change its value makes to the record. -/
structure RecordField (σ : Type) where
  name : String
  required : Bool
  read : Nat → Doc → Except Flaw (σ → σ)

namespace RecordField

/-- A field that is there at most once and may be `null`. -/
def optional (name : String) (item : Decoder α) (put : Option α → σ → σ) : RecordField σ :=
  ⟨name, false, fun depth d => (Decoder.optional item depth d).map put⟩

def defaulted (name : String) (item : Decoder α) (put : α → σ → σ) : RecordField σ :=
  ⟨name, false, fun depth d => (item depth d).map put⟩

def mandatory (name : String) (item : Decoder α) (put : α → σ → σ) : RecordField σ :=
  ⟨name, true, fun depth d => (item depth d).map put⟩

end RecordField

namespace Record

structure Draft (σ : Type) where
  record : σ
  given : List String

/-- Takes up the members in order; `other` says what becomes of a key that is no field. -/
def takeMembers (fields : List (RecordField σ)) (other : Nat → String → Doc → σ → Except Flaw σ)
    (depth : Nat) (draft : Draft σ) : List (Option String × Doc) → Except Flaw (Draft σ)
  | [] => .ok draft
  | (none, _) :: _ => .error .malformed
  | (some key, d) :: ms =>
      match fields.find? (·.name == key) with
      | some field =>
          if draft.given.contains key then .error .unfit
          else do
            let change ← field.read depth d
            takeMembers fields other depth ⟨change draft.record, key :: draft.given⟩ ms
      | none => do
          let record ← other depth key d draft.record
          takeMembers fields other depth ⟨record, draft.given⟩ ms

def complete (fields : List (RecordField σ)) (draft : Draft σ) : Except Flaw σ :=
  if fields.all fun f => !f.required || draft.given.contains f.name then .ok draft.record
  else .error .unfit

def ofMembers (fields : List (RecordField σ)) (other : Nat → String → Doc → σ → Except Flaw σ)
    (blank : σ) (depth : Nat) (ms : List (Option String × Doc)) (ending : Option Flaw) :
    Except Flaw σ := do
  let draft ← takeMembers fields other depth ⟨blank, []⟩ ms
  proceed ending
  complete fields draft

/-- A record that keeps the members it does not know. -/
def opened (fields : List (RecordField σ)) (keep : String → Json → σ → σ) (blank : σ) : Decoder σ
  | depth, .members ms ending =>
      if depth < depthLimit then
        ofMembers fields (fun depth key d record => (d.toJson depth).map (keep key · record))
          blank (depth + 1) ms ending
      else .error .malformed
  | _, d => .error d.refusal

def takeItems (depth : Nat) (ending : Option Flaw) :
    List (RecordField σ) → σ → List Doc → Except Flaw σ
  | [], record, [] => do
      proceed ending
      pure record
  | [], _, _ :: _ => .error .malformed
  | field :: fields, record, [] => do
      proceed ending
      if field.required then .error .unfit else takeItems depth ending fields record []
  | field :: fields, record, d :: ds => do
      let change ← field.read depth d
      takeItems depth ending fields (change record) ds

/-- A record that passes over the members it does not know, and may be written as an array. -/
def closed (fields : List (RecordField σ)) (blank : σ) : Decoder σ
  | depth, .members ms ending =>
      if depth < depthLimit then
        ofMembers fields (fun _ _ d record => d.skip.map fun _ => record)
          blank (depth + 1) ms ending
      else .error .malformed
  | depth, .items xs ending =>
      if depth < depthLimit then takeItems (depth + 1) ending fields blank xs
      else .error .malformed
  | _, d => .error d.refusal

end Record

def decode (item : Decoder α) (s : String) : Except Flaw α := do
  let (doc, trailing) := Doc.read s
  let x ← item 0 doc
  if trailing then .error .malformed else pure x

def fromJson (item : Decoder α) (v : Json) : Except Flaw α :=
  item 0 (Doc.ofJson v)

def parse (s : String) : Except Flaw Json := decode Decoder.json s

end RelayControl.Json
