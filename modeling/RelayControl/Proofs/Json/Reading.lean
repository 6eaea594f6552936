import RelayControl.Json.Decode
import RelayControl.Proofs.Basic
import RelayControl.Proofs.Json.Quoting

/-!
Printed values. The tokens of an indented text are those of the value, and they build its tree again;
so a decoder finds in the text of a value what it finds in the value.
-/

namespace RelayControl

def Json.Ends (rest : List Char) : Prop :=
  ∀ c ∈ rest.head?, c = ',' ∨ c = '\n' ∨ c = ']' ∨ c = '}'

def Number.Legible (n : Number) : Prop :=
  ∀ rest, Json.Ends rest → Json.tokens (n.render.toList ++ rest) = .number n :: Json.tokens rest

/-! Whole numbers are read as they are written. -/

namespace Json

theorem digitsValue_toDigits (n : Nat) : digitsValue (Nat.toDigits 10 n) = n := by
  have value := Nat.ofDigitChars_ten_toDigits (n := n)
  simp only [Nat.ofDigitChars, Nat.mul_comm 10] at value
  exact value

theorem toDigits_eq_cons (n : Nat) :
    ∃ c ds, Nat.toDigits 10 n = c :: ds ∧ (0 < n → c ≠ '0') ∧ (ds ≠ [] → 0 < n) := by
  induction n using Nat.strong_induction_on with
  | h n ih =>
      by_cases small : n < 10
      · refine ⟨n.digitChar, [], Nat.toDigits_of_lt_base small, ?_, by simp⟩
        intro positive
        interval_cases n <;> decide
      · obtain ⟨c, ds, shown, leading, -⟩ := ih (n / 10) (by omega)
        refine ⟨c, ds ++ [(n % 10).digitChar], ?_, fun _ => leading (by omega), by omega⟩
        rw [Nat.toDigits_of_base_le (by decide) (by omega), shown, List.cons_append]

theorem isDigit_toDigits (n : Nat) : ∀ c ∈ Nat.toDigits 10 n, c.isDigit = true :=
  fun _ => Nat.isDigit_of_mem_toDigits (by decide) (by decide)

theorem wholeToken_eq {negative : Bool} {digits : Nat} {n : Int}
    (value : (if negative then -(digits : Int) else digits) = n)
    (solid : ¬(negative ∧ digits = 0)) (fits : fitsWord n = true) :
    wholeToken negative digits = .number (.whole n fits) := by
  rw [wholeToken, if_neg solid, value, Number.ofInt?, dif_pos fits]

theorem Ends.endsNumber {rest : List Char} (ends : Ends rest) : EndsNumber rest := by
  intro c first
  rcases ends c first with rfl | rfl | rfl | rfl <;> decide

theorem isSpace_of_isDigit {c : Char} (digit : c.isDigit = true) : isSpace c = false := by
  cases space : isSpace c with
  | false => rfl
  | true =>
      simp only [isSpace, Bool.or_eq_true, beq_iff_eq] at space
      rcases space with ((rfl | rfl) | rfl) | rfl <;> cases digit

end Json

theorem Number.legible_whole (n : Int) (fits : fitsWord n = true) :
    (Number.whole n fits).Legible := by
  intro rest ends
  cases n with
  | ofNat n =>
      obtain ⟨c, ds, shown, leading, longer⟩ := Json.toDigits_eq_cons n
      have digits := Json.isDigit_toDigits n
      have value := Json.digitsValue_toDigits n
      rw [shown] at digits value
      have text : (Number.whole (Int.ofNat n) fits).render.toList = c :: ds := by
        change (String.ofList (Nat.toDigits 10 n)).toList = c :: ds
        rw [String.toList_ofList, shown]
      have read := Json.tokenAt_of_digits digits (leading ∘ longer) ends.endsNumber
      rw [value, Json.wholeToken_eq (if_neg Bool.false_ne_true)
        (fun both => Bool.false_ne_true both.1) fits] at read
      rw [text]
      exact Json.tokens_cons_of_tokenAt
        (Json.isSpace_of_isDigit (digits c (List.mem_cons_self ..))) read
  | negSucc n =>
      obtain ⟨c, ds, shown, leading, longer⟩ := Json.toDigits_eq_cons (n + 1)
      have digits := Json.isDigit_toDigits (n + 1)
      have value := Json.digitsValue_toDigits (n + 1)
      rw [shown] at digits value
      have text : (Number.whole (Int.negSucc n) fits).render.toList = '-' :: c :: ds := by
        change ("-" ++ String.ofList (Nat.toDigits 10 (n + 1))).toList = '-' :: c :: ds
        simp [shown]
      have read := Json.tokenAt_of_minus digits (leading ∘ longer) ends.endsNumber
      rw [value, Json.wholeToken_eq (if_pos rfl) (fun both => Nat.succ_ne_zero n both.2) fits]
        at read
      rw [text]
      exact Json.tokens_cons_of_tokenAt (by decide) read

namespace Json

mutual

def Legible : Json → Prop
  | .number n => n.Legible
  | .array xs => LegibleItems xs
  | .object ms => LegibleMembers ms
  | _ => True

def LegibleItems : List Json → Prop
  | [] => True
  | x :: xs => Legible x ∧ LegibleItems xs

def LegibleMembers : List (String × Json) → Prop
  | [] => True
  | (_, v) :: ms => Legible v ∧ LegibleMembers ms

end

theorem legible_array {xs : List Json} : (array xs).Legible ↔ ∀ x ∈ xs, x.Legible := by
  rw [Legible]
  induction xs with
  | nil => simp [LegibleItems]
  | cons x xs ih => simp [LegibleItems, ih]

theorem legible_object {ms : List (String × Json)} :
    (object ms).Legible ↔ ∀ m ∈ ms, m.2.Legible := by
  rw [Legible]
  induction ms with
  | nil => simp [LegibleMembers]
  | cons m ms ih => simp [LegibleMembers, ih]

mutual

def written : Json → List Token
  | .null => [.null]
  | .bool b => [.bool b]
  | .number n => [.number n]
  | .text s => [.text s]
  | .array [] => [.openArray, .closeArray]
  | .array (x :: xs) => .openArray :: written x ++ laterItems xs ++ [.closeArray]
  | .object [] => [.openObject, .closeObject]
  | .object ((k, v) :: ms) =>
      .openObject :: .text k :: .colon :: written v ++ laterMembers ms ++ [.closeObject]

def laterItems : List Json → List Token
  | [] => []
  | x :: xs => .comma :: written x ++ laterItems xs

def laterMembers : List (String × Json) → List Token
  | [] => []
  | (k, v) :: ms => .comma :: .text k :: .colon :: written v ++ laterMembers ms

end

/-! From characters to tokens. -/

def mark? : Char → Option Token
  | '[' => some .openArray
  | ']' => some .closeArray
  | '{' => some .openObject
  | '}' => some .closeObject
  | ',' => some .comma
  | ':' => some .colon
  | _ => none

theorem tokens_mark (c : Char) {t : Token} (mark : mark? c = some t) (rest : List Char) :
    tokens (c :: rest) = t :: tokens rest := by
  unfold mark? at mark
  split at mark <;> cases mark <;> exact tokens_cons_of_tokenAt (by decide) rfl

theorem tokens_blanks (n : Nat) (rest : List Char) :
    tokens (List.replicate n ' ' ++ rest) = tokens rest := by
  induction n with
  | zero => rfl
  | succ n ih =>
      rw [List.replicate_succ, List.cons_append, tokens_cons_of_isSpace (by decide), ih]

theorem tokens_newline (n : Nat) (rest : List Char) :
    tokens ('\n' :: (List.replicate n ' ' ++ rest)) = tokens rest := by
  rw [tokens_cons_of_isSpace (by decide), tokens_blanks]

theorem ends_newline (rest : List Char) : Ends ('\n' :: rest) := by
  simp [Ends]

theorem ends_parts {parts : List String} {f : String → List Char} {rest : List Char}
    (ends : Ends rest) : Ends ((parts.flatMap fun part => ',' :: f part) ++ rest) := by
  cases parts with
  | nil => exact ends
  | cons part parts => simp [Ends]

mutual

theorem tokens_prettyAt (indent : Nat) : ∀ {v : Json}, v.Legible → ∀ {rest}, Ends rest →
    tokens ((prettyAt indent v).toList ++ rest) = written v ++ tokens rest
  | .null, _, rest, _ => by
      rw [prettyAt, written]
      exact tokens_cons_of_tokenAt (by decide) rfl
  | .bool true, _, rest, _ => by
      rw [prettyAt, written]
      exact tokens_cons_of_tokenAt (by decide) rfl
  | .bool false, _, rest, _ => by
      rw [prettyAt, written]
      exact tokens_cons_of_tokenAt (by decide) rfl
  | .number n, legible, rest, ends => by
      rw [Legible] at legible
      rw [prettyAt, legible rest ends, written]
      rfl
  | .text s, _, rest, _ => by
      rw [prettyAt, tokens_quoted, written]
      rfl
  | .array [], _, rest, _ => by
      rw [prettyAt, prettyItems, toList_block_nil, written]
      simp only [String.reduceToList, List.cons_append, List.nil_append]
      rw [tokens_mark '[' rfl, tokens_mark ']' rfl]
  | .array (x :: xs), legible, rest, _ => by
      rw [Legible, LegibleItems] at legible
      rw [prettyAt, prettyItems, toList_block_cons, written]
      simp only [String.reduceToList, List.append_assoc, List.cons_append, List.nil_append]
      rw [tokens_mark '[' rfl, tokens_newline,
        tokens_prettyAt (indent + 1) legible.1 (ends_parts (ends_newline _)),
        tokens_laterItems (indent + 1) legible.2 (ends_newline _), tokens_newline,
        tokens_mark ']' rfl]
  | .object [], _, rest, _ => by
      rw [prettyAt, prettyMembers, toList_block_nil, written]
      simp only [String.reduceToList, List.cons_append, List.nil_append]
      rw [tokens_mark '{' rfl, tokens_mark '}' rfl]
  | .object ((k, v) :: ms), legible, rest, _ => by
      rw [Legible, LegibleMembers] at legible
      rw [prettyAt, prettyMembers, toList_block_cons, written]
      simp only [String.reduceToList, String.toList_append, List.append_assoc, List.cons_append,
        List.nil_append]
      rw [tokens_mark '{' rfl, tokens_newline, tokens_quoted, tokens_mark ':' rfl,
        tokens_cons_of_isSpace (by decide),
        tokens_prettyAt (indent + 1) legible.1 (ends_parts (ends_newline _)),
        tokens_laterMembers (indent + 1) legible.2 (ends_newline _), tokens_newline,
        tokens_mark '}' rfl]

theorem tokens_laterItems (indent : Nat) : ∀ {xs : List Json}, LegibleItems xs → ∀ {rest},
    Ends rest →
    tokens (((prettyItems indent xs).flatMap fun part =>
      ',' :: '\n' :: (List.replicate (2 * indent) ' ' ++ part.toList)) ++ rest) =
      laterItems xs ++ tokens rest
  | [], _, rest, _ => rfl
  | x :: xs, legible, rest, ends => by
      rw [LegibleItems] at legible
      rw [prettyItems, laterItems, List.flatMap_cons]
      simp only [List.append_assoc, List.cons_append]
      rw [tokens_mark ',' rfl, tokens_newline, tokens_prettyAt indent legible.1 (ends_parts ends),
        tokens_laterItems indent legible.2 ends]

theorem tokens_laterMembers (indent : Nat) : ∀ {ms : List (String × Json)}, LegibleMembers ms →
    ∀ {rest}, Ends rest →
    tokens (((prettyMembers indent ms).flatMap fun part =>
      ',' :: '\n' :: (List.replicate (2 * indent) ' ' ++ part.toList)) ++ rest) =
      laterMembers ms ++ tokens rest
  | [], _, rest, _ => rfl
  | (k, v) :: ms, legible, rest, ends => by
      rw [LegibleMembers] at legible
      rw [prettyMembers, laterMembers, List.flatMap_cons]
      simp only [String.reduceToList, String.toList_append, List.append_assoc, List.cons_append,
        List.nil_append]
      rw [tokens_mark ',' rfl, tokens_newline, tokens_quoted, tokens_mark ':' rfl,
        tokens_cons_of_isSpace (by decide), tokens_prettyAt indent legible.1 (ends_parts ends),
        tokens_laterMembers indent legible.2 ends]

end

theorem tokens_pretty {v : Json} (legible : v.Legible) : tokens v.pretty.toList = written v := by
  have ends : Ends [] := by simp [Ends]
  simpa [pretty] using tokens_prettyAt 0 legible ends

/-! From tokens to the tree. -/

theorem exists_written (v : Json) : ∃ t ts, written v = t :: ts ∧ t ≠ .closeArray := by
  cases v with
  | array xs => cases xs <;> simp [written]
  | object ms => cases ms <;> simp [written]
  | _ => simp [written]

namespace Doc

theorem foldl_firstItem (v : Json) (outer : List Frame) (rest : List Token) :
    (written v ++ rest).foldl State.step (.firstItem outer) =
      (written v ++ rest).foldl State.step (.value (.items [] :: outer)) := by
  obtain ⟨t, ts, starts, solid⟩ := exists_written v
  rw [starts, List.cons_append, List.foldl_cons, List.foldl_cons]
  cases t with
  | closeArray => exact absurd rfl solid
  | _ => rfl

mutual

theorem foldl_written : ∀ (v : Json) (outer : List Frame) (rest : List Token),
    (written v ++ rest).foldl State.step (.value outer) =
      rest.foldl State.step (.place (ofJson v) outer)
  | .null, _, _ => rfl
  | .bool _, _, _ => rfl
  | .number _, _, _ => rfl
  | .text _, _, _ => rfl
  | .array [], _, _ => rfl
  | .array (x :: xs), outer, rest => by
      simp only [written, List.append_assoc, List.cons_append, List.nil_append]
      rw [List.foldl_cons]
      change List.foldl _ (State.firstItem outer) _ = _
      rw [foldl_firstItem, foldl_written x]
      exact foldl_laterItems xs (ofJson x) [] outer rest
  | .object [], _, _ => rfl
  | .object ((k, v) :: ms), outer, rest => by
      simp only [written, List.append_assoc, List.cons_append, List.nil_append]
      rw [List.foldl_cons, List.foldl_cons, List.foldl_cons]
      change List.foldl _ (State.value (.members [] (some k) :: outer)) _ = _
      rw [foldl_written v]
      exact foldl_laterMembers ms k (ofJson v) [] outer rest

theorem foldl_laterItems : ∀ (xs : List Json) (v : Doc) (before : List Doc) (outer : List Frame)
    (rest : List Token),
    (laterItems xs ++ .closeArray :: rest).foldl State.step (.after v (.items before) outer) =
      rest.foldl State.step (.place (.items (before.reverse ++ v :: ofItems xs) none) outer)
  | [], v, before, outer, rest => by
      rw [laterItems, List.nil_append, List.foldl_cons, ofItems, ← List.reverse_cons]
      rfl
  | x :: xs, v, before, outer, rest => by
      simp only [laterItems, List.append_assoc, List.cons_append]
      rw [List.foldl_cons]
      change List.foldl _ (State.value (.items (v :: before) :: outer)) _ = _
      rw [foldl_written x]
      refine (foldl_laterItems xs (ofJson x) (v :: before) outer rest).trans ?_
      rw [ofItems, List.reverse_cons, List.append_assoc, List.singleton_append]

theorem foldl_laterMembers : ∀ (ms : List (String × Json)) (k : String) (v : Doc)
    (before : List (Option String × Doc)) (outer : List Frame) (rest : List Token),
    (laterMembers ms ++ .closeObject :: rest).foldl State.step
        (.after v (.members before (some k)) outer) =
      rest.foldl State.step
        (.place (.members (before.reverse ++ (some k, v) :: ofMembers ms) none) outer)
  | [], k, v, before, outer, rest => by
      rw [laterMembers, List.nil_append, List.foldl_cons, ofMembers, ← List.reverse_cons]
      rfl
  | (k', w) :: ms, k, v, before, outer, rest => by
      simp only [laterMembers, List.append_assoc, List.cons_append]
      rw [List.foldl_cons, List.foldl_cons, List.foldl_cons]
      change List.foldl _ (State.value (.members ((some k, v) :: before) (some k') :: outer)) _ = _
      rw [foldl_written w]
      refine (foldl_laterMembers ms k' (ofJson w) ((some k, v) :: before) outer rest).trans ?_
      rw [ofMembers, List.reverse_cons, List.append_assoc, List.singleton_append]

end

theorem read_pretty {v : Json} (legible : v.Legible) : read v.pretty = (ofJson v, false) := by
  have built := foldl_written v [] []
  rw [List.append_nil] at built
  rw [read, tokens_pretty legible, built]
  rfl

end Doc

theorem decode_eq_ok_iff {item : Decoder α} {s : String} {x : α} :
    decode item s = .ok x ↔ item 0 (Doc.read s).1 = .ok x ∧ (Doc.read s).2 = false := by
  unfold decode
  generalize Doc.read s = tree
  obtain ⟨d, trailing⟩ := tree
  cases trailing <;> simp

theorem tree_of_decode {item : Decoder α} {s : String} {x : α} (read : decode item s = .ok x) :
    item 0 (Doc.read s).1 = .ok x :=
  (decode_eq_ok_iff.mp read).1

/-- A decoder finds in the text of a value what it finds in the value. -/
theorem decode_pretty {v : Json} (legible : v.Legible) (item : Decoder α) :
    decode item v.pretty = fromJson item v := by
  rw [decode, Doc.read_pretty legible]
  cases found : item 0 (Doc.ofJson v) <;> simp [found, fromJson]

end Json

end RelayControl
