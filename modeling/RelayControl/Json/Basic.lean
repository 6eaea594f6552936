import RelayControl.Binary64

/-!
JSON values. The members of an object stand in the order in which they are written; objects whose
keys carry no meaning are kept with their keys in increasing order, each once.
-/

namespace RelayControl

def fitsWord (n : Int) : Bool :=
  -0x8000000000000000 ≤ n && n < 0x10000000000000000

/-- A number as a document holds it: whole where it is written so and fits, else binary64. -/
inductive Number where
  | whole (n : Int) (fits : fitsWord n = true)
  | float (x : Binary64)
  deriving DecidableEq

inductive Json where
  | null
  | bool (b : Bool)
  | number (n : Number)
  | text (s : String)
  | array (items : List Json)
  | object (members : List (String × Json))
  deriving Inhabited

namespace Number

/-- Numbers of one kind with one value; a float zero has two signs. -/
def same : Number → Number → Bool
  | .whole m _, .whole n _ => m == n
  | .float x, .float y => x.same y
  | _, _ => false

@[simp] theorem same_self (n : Number) : n.same n = true := by
  cases n <;> simp [same]

def ofInt? (n : Int) : Option Number :=
  if h : fitsWord n = true then some (.whole n h) else none

def toInt? : Number → Option Int
  | .whole n _ => some n
  | .float _ => none

@[simp] theorem toInt?_whole (n : Int) (h : fitsWord n = true) :
    (whole n h).toInt? = some n := rfl

@[simp] theorem toInt?_float (x : Binary64) : (float x).toInt? = none := rfl

end Number

namespace Json

mutual

def same : Json → Json → Bool
  | .null, .null => true
  | .bool a, .bool b => a == b
  | .number m, .number n => m.same n
  | .text s, .text t => s == t
  | .array xs, .array ys => sameItems xs ys
  | .object ms, .object ns => sameMembers ms ns
  | _, _ => false

def sameItems : List Json → List Json → Bool
  | [], [] => true
  | x :: xs, y :: ys => same x y && sameItems xs ys
  | _, _ => false

def sameMembers : List (String × Json) → List (String × Json) → Bool
  | [], [] => true
  | (k, x) :: ms, (l, y) :: ns => k == l && same x y && sameMembers ms ns
  | _, _ => false

end

instance : BEq Json := ⟨same⟩

mutual

theorem same_self : ∀ v : Json, same v v = true
  | .null => rfl
  | .bool b => by simp [same]
  | .number n => by simp [same]
  | .text s => by simp [same]
  | .array xs => by simp [same, sameItems_self xs]
  | .object ms => by simp [same, sameMembers_self ms]

theorem sameItems_self : ∀ xs : List Json, sameItems xs xs = true
  | [] => rfl
  | x :: xs => by simp [sameItems, same_self x, sameItems_self xs]

theorem sameMembers_self : ∀ ms : List (String × Json), sameMembers ms ms = true
  | [] => rfl
  | (k, x) :: ms => by simp [sameMembers, same_self x, sameMembers_self ms]

end

instance : ReflBEq Json := ⟨same_self _⟩

def int (n : Int) : Json :=
  match Number.ofInt? n with
  | some m => .number m
  | none => .null

def nat (n : Nat) : Json := int n

def asText? : Json → Option String
  | .text s => some s
  | _ => none

def member? (v : Json) (key : String) : Option Json :=
  match v with
  | .object ms => ms.lookup key
  | _ => none

/-- The item an index text such as `0` or `17` names. -/
private def item? (items : List Json) (index : String) : Option Json :=
  let digits := index.toList
  if digits.isEmpty || !digits.all Char.isDigit || (digits.length > 1 && digits.head? == some '0')
  then none
  else index.toNat?.bind (items[·]?)

def at? (v : Json) : List String → Option Json
  | [] => some v
  | step :: rest =>
      let next := match v with
        | .object ms => ms.lookup step
        | .array items => item? items step
        | _ => none
      next.bind (at? · rest)

end Json

/-- Members in increasing order of their keys. -/
abbrev Members := List (String × Json)

namespace Members

def insert (key : String) (value : α) : List (String × α) → List (String × α)
  | [] => [(key, value)]
  | (k, v) :: rest =>
      if key < k then (key, value) :: (k, v) :: rest
      else if key = k then (key, value) :: rest
      else (k, v) :: insert key value rest

def erase (key : String) (ms : List (String × α)) : List (String × α) :=
  ms.filter (·.1 != key)

@[simp] theorem erase_nil (key : String) : erase key ([] : List (String × α)) = [] := rfl

@[simp] theorem lookup_erase (key : String) (ms : List (String × α)) :
    (erase key ms).lookup key = none := by
  induction ms with
  | nil => rfl
  | cons m ms ih =>
      obtain ⟨k, v⟩ := m
      unfold erase at ih ⊢
      rw [List.filter_cons]
      by_cases h : k = key
      · simp [h, ih]
      · have : (key == k) = false := by simpa using fun e => h e.symm
        simp [h, List.lookup_cons, this, ih]

theorem insert_cons_of_not_lt {key k : String} (below : ¬key < k) (differs : key ≠ k)
    (value v : α) (rest : List (String × α)) :
    insert key value ((k, v) :: rest) = (k, v) :: insert key value rest := by
  rw [insert, if_neg below, if_neg differs]

theorem lookup_insert_self (key : String) (value : α) (ms : List (String × α)) :
    (insert key value ms).lookup key = some value := by
  induction ms with
  | nil => simp [insert]
  | cons m ms ih =>
      obtain ⟨k, v⟩ := m
      rw [insert]
      split
      · simp
      · split
        · simp
        · rename_i h
          have : (key == k) = false := by simpa using h
          simp [List.lookup_cons, this, ih]

end Members

end RelayControl
