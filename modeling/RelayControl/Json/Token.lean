import RelayControl.Json.Basic

/-!
The tokens of a JSON text. A text that breaks off or goes wrong still has tokens: the last one then
says what is wrong. Two defects do not end the reading, a surrogate without its partner and a number
beyond the range of binary64; they matter only to a reader that needs the value.
-/

namespace RelayControl.Json

inductive Flaw where
  | malformed
  | truncated
  /-- The value has another shape than the one asked for. -/
  | unfit
  deriving DecidableEq, Repr

def Flaw.category : Flaw → String
  | .malformed => "syntax"
  | .truncated => "eof"
  | .unfit => "data"

inductive Token where
  | openArray
  | closeArray
  | openObject
  | closeObject
  | comma
  | colon
  | null
  | bool (b : Bool)
  | number (n : Number)
  | text (s : String)
  /-- Refused with `strict`, or with `skipped`, if at all, where its value is not needed. -/
  | flawed (quoted : Bool) (strict : Flaw) (skipped : Option Flaw)
  /-- A character that begins no token. -/
  | stray
  deriving DecidableEq

namespace Token

/-- A token at which every reader stops. -/
def broken (quoted : Bool) (flaw : Flaw) : Token :=
  .flawed quoted flaw (some flaw)

end Token

def isSpace (c : Char) : Bool :=
  c == ' ' || c == '\t' || c == '\n' || c == '\r'

section Strings

/-- What stands in a string: a character, or a unit of sixteen bits given by its digits. -/
inductive Piece where
  | char (c : Char)
  | unit (n : Nat)
  deriving DecidableEq

inductive Ending where
  | closed (rest : List Char)
  | flaw (f : Flaw)

def hexValue? (c : Char) : Option Nat :=
  if '0' ≤ c ∧ c ≤ '9' then some (c.toNat - '0'.toNat)
  else if 'a' ≤ c ∧ c ≤ 'f' then some (c.toNat - 'a'.toNat + 10)
  else if 'A' ≤ c ∧ c ≤ 'F' then some (c.toNat - 'A'.toNat + 10)
  else none

def hexUnit? (a b c d : Char) : Option Nat :=
  match hexValue? a, hexValue? b, hexValue? c, hexValue? d with
  | some a, some b, some c, some d => some (((a * 16 + b) * 16 + c) * 16 + d)
  | _, _, _, _ => none

def escaped? : Char → Option Char
  | '"' => some '"'
  | '\\' => some '\\'
  | '/' => some '/'
  | 'b' => some '\x08'
  | 'f' => some '\x0c'
  | 'n' => some '\n'
  | 'r' => some '\r'
  | 't' => some '\t'
  | _ => none

def utf8Length (cs : List Char) : Nat :=
  cs.foldl (fun n c => n + c.utf8Size) 0

/-- The pieces of a string after its opening quote, and how it ends. -/
def pieces : List Char → List Piece × Ending
  | [] => ([], .flaw .truncated)
  | '\\' :: 'u' :: a :: b :: c :: d :: rest =>
      match hexUnit? a b c d with
      | some n => let (ps, e) := pieces rest; (.unit n :: ps, e)
      | none => ([], .flaw .malformed)
  | '\\' :: 'u' :: rest => ([], .flaw (if utf8Length rest < 4 then .truncated else .malformed))
  | '\\' :: c :: rest =>
      match escaped? c with
      | some c => let (ps, e) := pieces rest; (.char c :: ps, e)
      | none => ([], .flaw .malformed)
  | ['\\'] => ([], .flaw .truncated)
  | c :: rest =>
      if c = '"' then ([], .closed rest)
      else if c.toNat < 0x20 then ([], .flaw .malformed)
      else let (ps, e) := pieces rest; (.char c :: ps, e)

inductive Joined where
  | chars (cs : List Char)
  | alone
  /-- A leading surrogate is the last piece. -/
  | dangling

def Joined.push (c : Char) : Joined → Joined
  | .chars cs => .chars (c :: cs)
  | j => j

def isLeading (n : Nat) : Bool := 0xD800 ≤ n && n ≤ 0xDBFF

def isTrailing (n : Nat) : Bool := 0xDC00 ≤ n && n ≤ 0xDFFF

def pairValue (lead trail : Nat) : Nat :=
  0x10000 + (lead - 0xD800) * 0x400 + (trail - 0xDC00)

def join : List Piece → Joined
  | [] => .chars []
  | .char c :: rest => (join rest).push c
  | [.unit n] =>
      if isTrailing n then .alone
      else if isLeading n then .dangling
      else .chars [Char.ofNat n]
  | .unit n :: .unit m :: rest =>
      if isTrailing n then .alone
      else if isLeading n then
        if isTrailing m then (join rest).push (Char.ofNat (pairValue n m)) else .alone
      else (join (.unit m :: rest)).push (Char.ofNat n)
  | .unit n :: .char c :: rest =>
      if isTrailing n then .alone
      else if isLeading n then .alone
      else ((join rest).push c).push (Char.ofNat n)

def stringToken (cs : List Char) : Token × Option (List Char) :=
  match pieces cs with
  | (ps, .closed rest) =>
      match join ps with
      | .chars cs => (.text (String.ofList cs), some rest)
      | _ => (.flawed true .malformed none, some rest)
  | (ps, .flaw f) =>
      match join ps with
      | .alone => (.flawed true .malformed (some f), none)
      | _ => (.broken true f, none)

end Strings

section Numbers

def digitsValue (ds : List Char) : Nat :=
  ds.foldl (fun n c => n * 10 + (c.toNat - '0'.toNat)) 0

/-- A number whose digits are missing: cut off, or followed by something else. -/
private def missingDigits (rest : List Char) : Token × Option (List Char) :=
  if rest.isEmpty then (.flawed false .truncated (some .malformed), none)
  else (.broken false .malformed, none)

def floatToken (negative : Bool) (digits : Nat) (exponent : Int) : Token :=
  match Binary64.ofDecimal? negative digits exponent with
  | some x => .number (.float x)
  | none => .flawed false .malformed none

/-- The token of a number written without fraction and exponent; `-0` is a float. -/
def wholeToken (negative : Bool) (digits : Nat) : Token :=
  let value : Int := if negative then -(digits : Int) else digits
  match if negative ∧ digits = 0 then none else Number.ofInt? value with
  | some n => .number n
  | none => floatToken negative digits 0

private def exponentPart (cs : List Char) : Option Int × List Char :=
  let (negative, cs) := match cs with
    | '-' :: rest => (true, rest)
    | '+' :: rest => (false, rest)
    | _ => (false, cs)
  let ds := cs.takeWhile Char.isDigit
  let rest := cs.dropWhile Char.isDigit
  if ds.isEmpty then (none, rest)
  else
    let value : Int := digitsValue ds
    (some (if negative then -value else value), rest)

private def finishNumber (negative isWhole : Bool) (digits : Nat) (scale : Int) :
    List Char → Token × Option (List Char)
  | c :: rest =>
      if c = 'e' ∨ c = 'E' then
        match exponentPart rest with
        | (some e, rest) => (floatToken negative digits (e + scale), some rest)
        | (none, rest) => missingDigits rest
      else if isWhole then (wholeToken negative digits, some (c :: rest))
      else (floatToken negative digits scale, some (c :: rest))
  | [] =>
      (if isWhole then wholeToken negative digits else floatToken negative digits scale, some [])

private def unsignedToken (negative : Bool) (cs : List Char) : Token × Option (List Char) :=
  let whole := cs.takeWhile Char.isDigit
  let rest := cs.dropWhile Char.isDigit
  if whole.isEmpty then missingDigits rest
  else if whole.length > 1 ∧ whole.head? = some '0' then (.broken false .malformed, none)
  else match rest with
    | '.' :: rest =>
        let fraction := rest.takeWhile Char.isDigit
        let rest := rest.dropWhile Char.isDigit
        if fraction.isEmpty then missingDigits rest
        else finishNumber negative false (digitsValue (whole ++ fraction)) (-(fraction.length : Int))
          rest
    | rest => finishNumber negative true (digitsValue whole) 0 rest

def numberToken : List Char → Token × Option (List Char)
  | '-' :: rest => unsignedToken true rest
  | cs => unsignedToken false cs

end Numbers

private def wordToken (token : Token) : List Char → List Char → Token × Option (List Char)
  | [], rest => (token, some rest)
  | _ :: _, [] => (.broken false .truncated, none)
  | c :: word, d :: rest =>
      if c = d then wordToken token word rest else (.broken false .malformed, none)

/-- The token that a character begins, and the text behind it unless reading stops. -/
def tokenAt (c : Char) (rest : List Char) : Token × Option (List Char) :=
  match c with
  | '[' => (.openArray, some rest)
  | ']' => (.closeArray, some rest)
  | '{' => (.openObject, some rest)
  | '}' => (.closeObject, some rest)
  | ',' => (.comma, some rest)
  | ':' => (.colon, some rest)
  | '"' => stringToken rest
  | 'n' => wordToken .null ['u', 'l', 'l'] rest
  | 't' => wordToken (.bool true) ['r', 'u', 'e'] rest
  | 'f' => wordToken (.bool false) ['a', 'l', 's', 'e'] rest
  | c => if c = '-' ∨ c.isDigit then numberToken (c :: rest) else (.stray, none)

private def tokensWithin : Nat → List Char → List Token
  | 0, _ => []
  | _, [] => []
  | fuel + 1, c :: rest =>
      if isSpace c then tokensWithin fuel rest
      else match tokenAt c rest with
        | (t, some rest) => t :: tokensWithin fuel rest
        | (t, none) => [t]

/-- The tokens of a text; every token takes at least one character. -/
def tokens (cs : List Char) : List Token :=
  tokensWithin cs.length cs

/-! What is left behind a token is no longer than what stood behind its first character. -/

private theorem length_le_of_pieces {cs rest : List Char} (closed : (pieces cs).2 = .closed rest) :
    rest.length ≤ cs.length := by
  fun_induction pieces cs with
  | case2 a b c d tail n found ps e read ih =>
      have shorter := ih (by simpa [read] using closed)
      simp only [List.length_cons]
      omega
  | case5 =>
      rename_i tail _ c found ps e read ih
      have shorter := ih (by simpa [read] using closed)
      simp only [List.length_cons]
      omega
  | case8 =>
      cases closed
      simp
  | case10 =>
      rename_i ps e read ih
      have shorter := ih (by simpa [read] using closed)
      simp only [List.length_cons]
      omega
  | _ => cases closed

private theorem length_le_of_stringToken {cs rest : List Char} {t : Token}
    (read : stringToken cs = (t, some rest)) : rest.length ≤ cs.length := by
  unfold stringToken at read
  split at read
  next ps tail closed =>
    have same : tail = rest := by split at read <;> simpa using (Prod.mk.inj read).2
    exact same ▸ length_le_of_pieces (by rw [closed])
  next => split at read <;> cases read

private theorem length_le_of_wordToken {token t : Token} {word cs rest : List Char}
    (read : wordToken token word cs = (t, some rest)) : rest.length ≤ cs.length := by
  induction word generalizing cs with
  | nil =>
      cases read
      exact Nat.le_refl _
  | cons c word ih =>
      cases cs with
      | nil => cases read
      | cons d tail =>
          unfold wordToken at read
          split at read
          next => exact Nat.le_succ_of_le (ih read)
          next => cases read

private theorem length_dropWhile_le (p : Char → Bool) (cs : List Char) :
    (cs.dropWhile p).length ≤ cs.length :=
  (List.dropWhile_sublist p).length_le

private theorem missingDigits_ne {cs rest : List Char} {t : Token} :
    missingDigits cs ≠ (t, some rest) := by
  unfold missingDigits
  split <;> simp

private theorem length_exponentPart_le (cs : List Char) : (exponentPart cs).2.length ≤ cs.length := by
  unfold exponentPart
  split
  next negative unsigned signed =>
    have behind : unsigned.length ≤ cs.length := by
      split at signed <;> cases signed <;> simp
    dsimp only
    split <;> exact Nat.le_trans (length_dropWhile_le _ _) behind

private theorem length_le_of_finishNumber {negative isWhole : Bool} {digits : Nat} {scale : Int}
    {cs rest : List Char} {t : Token}
    (read : finishNumber negative isWhole digits scale cs = (t, some rest)) :
    rest.length ≤ cs.length := by
  unfold finishNumber at read
  split at read
  next c tail =>
    split at read
    next =>
      have shorter := length_exponentPart_le tail
      split at read
      next found =>
        cases read
        rw [found] at shorter
        exact Nat.le_succ_of_le shorter
      next => exact absurd read missingDigits_ne
    next =>
      split at read <;> cases read <;> exact Nat.le_refl _
  next =>
    cases read
    exact Nat.le_refl _

private theorem length_lt_of_unsignedToken {negative : Bool} {cs rest : List Char} {t : Token}
    (read : unsignedToken negative cs = (t, some rest)) : rest.length < cs.length := by
  have parts := congrArg List.length (List.takeWhile_append_dropWhile (p := Char.isDigit) (l := cs))
  rw [List.length_append] at parts
  unfold unsignedToken at read
  dsimp only at read
  split at read
  next => exact absurd read missingDigits_ne
  next nonempty =>
    have digits : 0 < (cs.takeWhile Char.isDigit).length := by
      rw [List.length_pos_iff]
      simpa using nonempty
    split at read
    next => cases read
    next =>
      split at read
      next tail behind =>
        rw [behind, List.length_cons] at parts
        have fraction := length_dropWhile_le Char.isDigit tail
        split at read
        next => exact absurd read missingDigits_ne
        next =>
          have shorter := length_le_of_finishNumber read
          omega
      next =>
        have shorter := length_le_of_finishNumber read
        omega

theorem length_le_of_tokenAt {c : Char} {cs rest : List Char} {t : Token}
    (read : tokenAt c cs = (t, some rest)) : rest.length ≤ cs.length := by
  unfold tokenAt at read
  split at read
  case h_7 => exact length_le_of_stringToken read
  case h_8 => exact length_le_of_wordToken read
  case h_9 => exact length_le_of_wordToken read
  case h_10 => exact length_le_of_wordToken read
  case h_11 =>
    split at read
    next =>
      unfold numberToken at read
      split at read
      next tail same =>
        cases same
        exact Nat.le_of_lt (length_lt_of_unsignedToken read)
      next => exact Nat.le_of_lt_succ (length_lt_of_unsignedToken read)
    next => cases read
  all_goals
    cases read
    exact Nat.le_refl _

private theorem tokensWithin_eq {fuel fuel' : Nat} {cs : List Char} (enough : cs.length ≤ fuel)
    (enough' : cs.length ≤ fuel') : tokensWithin fuel cs = tokensWithin fuel' cs := by
  induction fuel generalizing fuel' cs with
  | zero =>
      have empty : cs = [] := List.length_eq_zero_iff.mp (Nat.le_zero.mp enough)
      subst empty
      cases fuel' <;> rfl
  | succ fuel ih =>
      cases cs with
      | nil => cases fuel' <;> rfl
      | cons c rest =>
          cases fuel' with
          | zero => cases enough'
          | succ fuel' =>
              have fits : rest.length ≤ fuel := Nat.le_of_succ_le_succ enough
              have fits' : rest.length ≤ fuel' := Nat.le_of_succ_le_succ enough'
              unfold tokensWithin
              split
              next => exact ih fits fits'
              next =>
                split
                next tail read =>
                  have shorter := length_le_of_tokenAt read
                  rw [ih (Nat.le_trans shorter fits) (Nat.le_trans shorter fits')]
                next => rfl

@[simp] theorem tokens_nil : tokens [] = [] := rfl

theorem tokens_cons_of_isSpace {c : Char} (space : isSpace c = true) (rest : List Char) :
    tokens (c :: rest) = tokens rest := by
  simp [tokens, tokensWithin, space]

theorem tokens_cons_of_tokenAt {c : Char} {cs rest : List Char} {t : Token}
    (solid : isSpace c = false) (read : tokenAt c cs = (t, some rest)) :
    tokens (c :: cs) = t :: tokens rest := by
  have rest_eq := tokensWithin_eq (length_le_of_tokenAt read) (Nat.le_refl rest.length)
  simp [tokens, tokensWithin, solid, read, rest_eq]

/-! Whole numbers. -/

def EndsNumber (rest : List Char) : Prop :=
  ∀ c ∈ rest.head?, c.isDigit = false ∧ c ≠ '.' ∧ c ≠ 'e' ∧ c ≠ 'E'

private theorem finishNumber_of_ends (negative : Bool) (digits : Nat) {rest : List Char}
    (ends : EndsNumber rest) :
    finishNumber negative true digits 0 rest = (wholeToken negative digits, some rest) := by
  cases rest with
  | nil => rfl
  | cons c rest =>
      obtain ⟨-, -, lower, upper⟩ := ends c rfl
      simp [finishNumber, lower, upper]

private theorem unsignedToken_of_digits (negative : Bool) {ds rest : List Char}
    (digits : ∀ c ∈ ds, c.isDigit = true) (written : ds ≠ [])
    (leading : 1 < ds.length → ds.head? ≠ some '0') (ends : EndsNumber rest) :
    unsignedToken negative (ds ++ rest) = (wholeToken negative (digitsValue ds), some rest) := by
  have stops : rest.takeWhile Char.isDigit = [] ∧ rest.dropWhile Char.isDigit = rest := by
    cases rest with
    | nil => exact ⟨rfl, rfl⟩
    | cons c rest => simp [(ends c rfl).1]
  have taken : (ds ++ rest).takeWhile Char.isDigit = ds := by
    rw [List.takeWhile_append_of_pos digits, stops.1, List.append_nil]
  have dropped : (ds ++ rest).dropWhile Char.isDigit = rest := by
    rw [List.dropWhile_append_of_pos digits, stops.2]
  unfold unsignedToken
  rw [taken, dropped]
  dsimp only
  rw [if_neg (by simpa using written), if_neg (fun both => leading both.1 both.2)]
  cases rest with
  | nil => exact finishNumber_of_ends negative _ ends
  | cons c rest =>
      split
      · rename_i same
        exact absurd (List.cons.inj same).1 (ends c rfl).2.1
      · exact finishNumber_of_ends negative _ ends

theorem tokenAt_of_digits {c : Char} {ds rest : List Char}
    (digits : ∀ d ∈ c :: ds, d.isDigit = true) (leading : ds ≠ [] → c ≠ '0')
    (ends : EndsNumber rest) :
    tokenAt c (ds ++ rest) = (wholeToken false (digitsValue (c :: ds)), some rest) := by
  have digit := digits c (List.mem_cons_self ..)
  have number : tokenAt c (ds ++ rest) = numberToken (c :: (ds ++ rest)) := by
    unfold tokenAt
    split <;> first | cases digit | rw [if_pos (.inr digit)]
  have unsigned : numberToken (c :: (ds ++ rest)) = unsignedToken false (c :: (ds ++ rest)) := by
    unfold numberToken
    split
    · rename_i same
      rw [(List.cons.inj same).1] at digit
      cases digit
    · rfl
  rw [number, unsigned]
  apply unsignedToken_of_digits false digits (List.cons_ne_nil c ds) _ ends
  intro longer zero
  exact leading (by rintro rfl; simp at longer) (by simpa using zero)

theorem tokenAt_of_minus {c : Char} {ds rest : List Char}
    (digits : ∀ d ∈ c :: ds, d.isDigit = true) (leading : ds ≠ [] → c ≠ '0')
    (ends : EndsNumber rest) :
    tokenAt '-' (c :: ds ++ rest) = (wholeToken true (digitsValue (c :: ds)), some rest) := by
  apply unsignedToken_of_digits true digits (List.cons_ne_nil c ds) _ ends
  intro longer zero
  exact leading (by rintro rfl; simp at longer) (by simpa using zero)

end RelayControl.Json
