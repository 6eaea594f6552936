import RelayControl.Proofs.Basic
import RelayControl.Proofs.Text.ByteOrder
import RelayControl.Text.Base64

/-!
Base64 has one text for every sequence of bytes: reading accepts exactly what writing produces, so
that padding is complete, bits to spare are zero, and nothing else stands between the symbols.
-/

namespace RelayControl

namespace Text

theorem toList_loop (b : ByteArray) (i : Nat) (seen : List UInt8) :
    ByteArray.toList.loop b i seen = seen.reverse ++ b.data.toList.drop i := by
  fun_induction ByteArray.toList.loop b i seen with
  | case1 i seen inside ih =>
      have bound : i < b.data.toList.length := inside
      have byte : b.get! i = b.data.toList[i] := getElem!_pos b.data i inside
      rw [ih, List.drop_eq_getElem_cons bound, byte, List.reverse_cons, List.append_assoc]
      rfl
  | case2 i seen outside =>
      have past : b.data.toList.drop i = [] := List.drop_eq_nil_of_le (Nat.le_of_not_lt outside)
      rw [past, List.append_nil]

theorem toList_toUTF8 (s : String) : s.toUTF8.toList = bytes s := by
  rw [ByteArray.toList, toList_loop]
  rfl

theorem length_bytes (s : String) : (bytes s).length = s.utf8ByteSize := rfl

end Text

namespace Base64

variable {offset index a b c d : Nat} {byte : UInt8} {symbols bytes : List UInt8}

theorem symbol_of_value? {v : Nat} (read : value? byte = some v) : v < 64 ∧ symbol v = byte := by
  have all : ∀ n : Fin 256, ∀ v ∈ value? (.ofNat n.val), v < 64 ∧ symbol v = .ofNat n.val := by
    decide +kernel
  have own := all ⟨byte.toNat, byte.toNat_lt⟩ v
  rw [UInt8.ofNat_toNat] at own
  exact own read

theorem value?_symbol {v : Nat} (small : v < 64) : value? (symbol v) = some v := by
  have all : ∀ v : Fin 64, value? (symbol v.val) = some v.val := by decide
  exact all ⟨v, small⟩

theorem symbol_ne_pad {v : Nat} (small : v < 64) : symbol v ≠ pad := by
  intro same
  have read := value?_symbol small
  rw [same] at read
  cases read

theorem valueAt_eq_ok_iff {v : Nat} :
    valueAt offset byte = .ok v ↔ v < 64 ∧ symbol v = byte := by
  constructor
  · intro read
    unfold valueAt at read
    split at read
    · rename_i w found
      cases read
      exact symbol_of_value? found
    · cases read
  · rintro ⟨small, rfl⟩
    rw [valueAt, value?_symbol small]

/-! Groups of four symbols. -/

theorem encodeBytes_bytesOf (ha : a < 64) (hb : b < 64) (hc : c < 64) (hd : d < 64)
    (later : List UInt8) :
    encodeBytes (bytesOf a b c d ++ later) =
      symbol a :: symbol b :: symbol c :: symbol d :: encodeBytes later := by
  have first : (UInt8.ofNat (a * 4 + b / 16)).toNat = a * 4 + b / 16 :=
    UInt8.toNat_ofNat_of_lt' (by simp only [UInt8.size]; omega)
  have second : (UInt8.ofNat (b % 16 * 16 + c / 4)).toNat = b % 16 * 16 + c / 4 :=
    UInt8.toNat_ofNat_of_lt' (by simp only [UInt8.size]; omega)
  have third : (UInt8.ofNat (c % 4 * 64 + d)).toNat = c % 4 * 64 + d :=
    UInt8.toNat_ofNat_of_lt' (by simp only [UInt8.size]; omega)
  have a' : (a * 4 + b / 16) / 4 = a := by omega
  have b' : (a * 4 + b / 16) % 4 * 16 + (b % 16 * 16 + c / 4) / 16 = b := by omega
  have c' : (b % 16 * 16 + c / 4) % 16 * 4 + (c % 4 * 64 + d) / 64 = c := by omega
  have d' : (c % 4 * 64 + d) % 64 = d := by omega
  simp only [bytesOf, List.cons_append, List.nil_append, encodeBytes, first, second, third, a', b',
    c', d']

theorem encodeBytes_bytesOf_take_one (ha : a < 64) (hb : b < 64) (spare : b % 16 = 0) :
    encodeBytes ((bytesOf a b 0 0).take 1) = [symbol a, symbol b, pad, pad] := by
  have only : (UInt8.ofNat (a * 4 + b / 16)).toNat = a * 4 + b / 16 :=
    UInt8.toNat_ofNat_of_lt' (by simp only [UInt8.size]; omega)
  have a' : (a * 4 + b / 16) / 4 = a := by omega
  have b' : (a * 4 + b / 16) % 4 * 16 = b := by omega
  simp only [bytesOf, List.take_succ_cons, List.take_zero, encodeBytes, only, a', b']

theorem encodeBytes_bytesOf_take_two (ha : a < 64) (hb : b < 64) (hc : c < 64)
    (spare : c % 4 = 0) :
    encodeBytes ((bytesOf a b c 0).take 2) = [symbol a, symbol b, symbol c, pad] := by
  have first : (UInt8.ofNat (a * 4 + b / 16)).toNat = a * 4 + b / 16 :=
    UInt8.toNat_ofNat_of_lt' (by simp only [UInt8.size]; omega)
  have second : (UInt8.ofNat (b % 16 * 16 + c / 4)).toNat = b % 16 * 16 + c / 4 :=
    UInt8.toNat_ofNat_of_lt' (by simp only [UInt8.size]; omega)
  have a' : (a * 4 + b / 16) / 4 = a := by omega
  have b' : (a * 4 + b / 16) % 4 * 16 + (b % 16 * 16 + c / 4) / 16 = b := by omega
  have c' : (b % 16 * 16 + c / 4) % 16 * 4 = c := by omega
  simp only [bytesOf, List.take_succ_cons, List.take_zero, encodeBytes, first, second, a', b', c']

theorem bytesOf_values (x y z : UInt8) :
    bytesOf (x.toNat / 4) (x.toNat % 4 * 16 + y.toNat / 16) (y.toNat % 16 * 4 + z.toNat / 64)
      (z.toNat % 64) = [x, y, z] := by
  have hx := x.toNat_lt
  have hy := y.toNat_lt
  have hz := z.toNat_lt
  simp only [bytesOf, List.cons.injEq, ← UInt8.toNat_inj, UInt8.toNat_ofNat']
  exact ⟨by omega, by omega, by omega, trivial⟩

theorem lastValues_eq_ok {padded : Option Nat} {values : List (Nat × UInt8 × Nat)}
    (read : lastValues offset index padded symbols = .ok values) :
    (∀ v ∈ values, v.1 < 64) ∧ (padded.isSome = true → values = []) ∧
    ∃ n, symbols = values.map (symbol ·.1) ++ List.replicate n pad := by
  fun_induction lastValues offset index padded symbols generalizing values with
  | case1 index padded =>
      cases read
      exact ⟨by simp, fun _ => rfl, 0, rfl⟩
  | case2 index padded rest early => cases read
  | case3 index padded rest late ih =>
      obtain ⟨-, none, n, rest⟩ := ih read
      have some : (padded <|> some index).isSome = true := by cases padded <;> rfl
      obtain rfl := none some
      exact ⟨by simp, fun _ => rfl, n + 1, by rw [rest]; rfl⟩
  | case4 index byte rest differs first => cases read
  | case5 index byte rest differs ih =>
      simp only [bind_eq_ok_iff, pure_eq_ok_iff] at read
      obtain ⟨v, found, later, read, rfl⟩ := read
      obtain ⟨small, rfl⟩ := valueAt_eq_ok_iff.mp found
      obtain ⟨all, -, n, rest⟩ := ih read
      exact ⟨List.forall_mem_cons.mpr ⟨small, all⟩, by simp, n, by rw [rest]; rfl⟩

theorem eq_encodeBytes_of_lastBytes (read : lastBytes offset symbols = .ok bytes) :
    symbols = encodeBytes bytes := by
  obtain ⟨values, found, read⟩ := bind_eq_ok_iff.mp read
  obtain ⟨small, -, n, rfl⟩ := lastValues_eq_ok found
  dsimp only at read
  split at read
  · cases read
  · split at read
    · cases read
    · rename_i whole
      simp only [not_not, List.length_append, List.length_map, List.length_replicate] at whole
      dsimp only [pure, Except.pure, bind, Except.bind] at read
      split at read
      · split at read
        · rename_i spare
          cases read
          simp only [List.mem_cons, forall_eq_or_imp] at small
          simp only [List.length_cons, List.length_nil] at whole
          obtain rfl : n = 2 := by omega
          rw [encodeBytes_bytesOf_take_one small.1 small.2.1 spare]
          rfl
        · cases read
      · split at read
        · rename_i spare
          cases read
          simp only [List.mem_cons, forall_eq_or_imp] at small
          simp only [List.length_cons, List.length_nil] at whole
          obtain rfl : n = 1 := by omega
          rw [encodeBytes_bytesOf_take_two small.1 small.2.1 small.2.2.1 spare]
          rfl
        · cases read
      · cases read
        simp only [List.mem_cons, forall_eq_or_imp] at small
        obtain rfl : n = 0 := by simpa using whole
        exact (encodeBytes_bytesOf small.1 small.2.1 small.2.2.1 small.2.2.2.1 []).symm
      · cases read

theorem eq_encodeBytes_of_groups (read : groups offset symbols = .ok bytes) :
    symbols = encodeBytes bytes := by
  fun_induction groups offset symbols generalizing bytes with
  | case1 offset a b c d e rest ih =>
      simp only [bind_eq_ok_iff, pure_eq_ok_iff, valueAt_eq_ok_iff] at read
      obtain ⟨va, ⟨ha, rfl⟩, vb, ⟨hb, rfl⟩, vc, ⟨hc, rfl⟩, vd, ⟨hd, rfl⟩, later, found, rfl⟩ := read
      rw [encodeBytes_bytesOf ha hb hc hd, ← ih found]
  | case2 offset group short => exact eq_encodeBytes_of_lastBytes read

/-! What was written is read. -/

theorem length_encodeBytes (bytes : List UInt8) :
    (encodeBytes bytes).length = 4 * ((bytes.length + 2) / 3) := by
  fun_induction encodeBytes bytes with
  | case1 => rfl
  | case2 x => simp
  | case3 x y => simp
  | case4 x y z rest ih =>
      simp only [List.length_cons, ih]
      omega

theorem lastValues_symbol {v : Nat} (small : v < 64) (rest : List UInt8) :
    lastValues offset index none (symbol v :: rest) =
      (lastValues offset (index + 1) none rest).map ((v, symbol v, offset + index) :: ·) := by
  rw [lastValues, if_neg (symbol_ne_pad small), valueAt_eq_ok_iff.mpr ⟨small, rfl⟩]
  cases lastValues offset (index + 1) none rest <;> rfl

theorem lastBytes_one (ha : a < 64) (hb : b < 64) (spare : b % 16 = 0) :
    lastBytes offset [symbol a, symbol b, pad, pad] = .ok ((bytesOf a b 0 0).take 1) := by
  have values : lastValues offset 0 none [symbol a, symbol b, pad, pad] =
      .ok [(a, symbol a, offset + 0), (b, symbol b, offset + 1)] := by
    rw [lastValues_symbol ha, lastValues_symbol hb]
    rfl
  rw [lastBytes, values]
  simp [bind, Except.bind, pure, Except.pure, spare]

theorem lastBytes_two (ha : a < 64) (hb : b < 64) (hc : c < 64) (spare : c % 4 = 0) :
    lastBytes offset [symbol a, symbol b, symbol c, pad] = .ok ((bytesOf a b c 0).take 2) := by
  have values : lastValues offset 0 none [symbol a, symbol b, symbol c, pad] =
      .ok [(a, symbol a, offset + 0), (b, symbol b, offset + 1), (c, symbol c, offset + 2)] := by
    rw [lastValues_symbol ha, lastValues_symbol hb, lastValues_symbol hc]
    rfl
  rw [lastBytes, values]
  simp [bind, Except.bind, pure, Except.pure, spare]

theorem lastBytes_three (ha : a < 64) (hb : b < 64) (hc : c < 64) (hd : d < 64) :
    lastBytes offset [symbol a, symbol b, symbol c, symbol d] = .ok (bytesOf a b c d) := by
  have values : lastValues offset 0 none [symbol a, symbol b, symbol c, symbol d] =
      .ok [(a, symbol a, offset + 0), (b, symbol b, offset + 1), (c, symbol c, offset + 2),
        (d, symbol d, offset + 3)] := by
    rw [lastValues_symbol ha, lastValues_symbol hb, lastValues_symbol hc, lastValues_symbol hd]
    rfl
  rw [lastBytes, values]
  simp [bind, Except.bind, pure, Except.pure]

theorem encodeBytes_ne_nil (some : bytes ≠ []) : encodeBytes bytes ≠ [] := by
  fun_cases encodeBytes bytes with
  | case1 => exact absurd rfl some
  | case2 x => exact List.cons_ne_nil _ _
  | case3 x y => exact List.cons_ne_nil _ _
  | case4 x y z rest => exact List.cons_ne_nil _ _

theorem groups_encodeBytes (offset : Nat) (some : bytes ≠ []) :
    groups offset (encodeBytes bytes) = .ok bytes := by
  fun_induction encodeBytes bytes generalizing offset with
  | case1 => exact absurd rfl some
  | case2 x =>
      have hx := x.toNat_lt
      have back : (bytesOf (x.toNat / 4) (x.toNat % 4 * 16) 0 0).take 1 = [x] := by
        simp only [bytesOf, List.take_succ_cons, List.take_zero, List.cons.injEq, and_true,
          ← UInt8.toNat_inj, UInt8.toNat_ofNat']
        omega
      exact (lastBytes_one (by omega) (by omega) (by omega)).trans (congrArg Except.ok back)
  | case3 x y =>
      have hx := x.toNat_lt
      have hy := y.toNat_lt
      have back : (bytesOf (x.toNat / 4) (x.toNat % 4 * 16 + y.toNat / 16) (y.toNat % 16 * 4) 0).take
          2 = [x, y] := by
        simp only [bytesOf, List.take_succ_cons, List.take_zero, List.cons.injEq, and_true,
          ← UInt8.toNat_inj, UInt8.toNat_ofNat']
        omega
      exact (lastBytes_two (by omega) (by omega) (by omega) (by omega)).trans
        (congrArg Except.ok back)
  | case4 x y z rest ih =>
      have hx := x.toNat_lt
      have hy := y.toNat_lt
      have ha : x.toNat / 4 < 64 := by omega
      have hb : x.toNat % 4 * 16 + y.toNat / 16 < 64 := by omega
      have hc : y.toNat % 16 * 4 + z.toNat / 64 < 64 := by
        have hz := z.toNat_lt
        omega
      have hd : z.toNat % 64 < 64 := Nat.mod_lt _ (by decide)
      by_cases last : rest = []
      · subst last
        exact (lastBytes_three ha hb hc hd).trans (congrArg Except.ok (bytesOf_values x y z))
      · obtain ⟨e, es, more⟩ := List.exists_cons_of_ne_nil (encodeBytes_ne_nil last)
        have later := ih (offset + 4) last
        rw [more] at later ⊢
        rw [groups, valueAt_eq_ok_iff.mpr ⟨ha, rfl⟩, valueAt_eq_ok_iff.mpr ⟨hb, rfl⟩,
          valueAt_eq_ok_iff.mpr ⟨hc, rfl⟩, valueAt_eq_ok_iff.mpr ⟨hd, rfl⟩, later]
        exact congrArg (fun first => Except.ok (first ++ rest)) (bytesOf_values x y z)

theorem decodeBytes_encodeBytes (bytes : List UInt8) :
    decodeBytes (encodeBytes bytes) = .ok bytes := by
  by_cases none : bytes = []
  · subst none
    rfl
  · have some : (encodeBytes bytes).isEmpty = false := by
      simpa using encodeBytes_ne_nil none
    have whole : strayEnd? (encodeBytes bytes) = Option.none := by
      have length := length_encodeBytes bytes
      unfold strayEnd?
      split
      · rw [if_neg (by omega)]
      · rfl
    rw [decodeBytes, some, whole]
    exact groups_encodeBytes 0 none

theorem decodeBytes_eq_ok_iff : decodeBytes symbols = .ok bytes ↔ symbols = encodeBytes bytes := by
  constructor
  · intro read
    unfold decodeBytes at read
    split at read
    · rename_i nothing
      cases read
      exact List.isEmpty_iff.mp nothing
    · split at read
      · cases read
      · exact eq_encodeBytes_of_groups read
  · rintro rfl
    exact decodeBytes_encodeBytes bytes

theorem decode_eq_ok_iff {s : String} {bytes : List UInt8} :
    decode s = .ok bytes ↔ Text.bytes s = encodeBytes bytes := by
  rw [decode, Text.toList_toUTF8, decodeBytes_eq_ok_iff]

/-! No symbol is a control character, a space or a part of a longer character. -/

theorem symbol_bounds (v : Nat) : 43 ≤ (symbol v).toNat ∧ (symbol v).toNat < 128 := by
  unfold symbol
  split_ifs
  · rw [UInt8.toNat_ofNat']
    omega
  · rw [UInt8.toNat_ofNat']
    omega
  · rw [UInt8.toNat_ofNat']
    omega
  · decide
  · decide

theorem bounds_of_mem_encodeBytes {b : UInt8} {bytes : List UInt8}
    (member : b ∈ encodeBytes bytes) : 43 ≤ b.toNat ∧ b.toNat < 128 := by
  have padding : 43 ≤ pad.toNat ∧ pad.toNat < 128 := by decide
  fun_induction encodeBytes bytes with
  | case1 => cases member
  | case2 x =>
      simp only [List.mem_cons, List.not_mem_nil, or_false] at member
      rcases member with rfl | rfl | rfl | rfl
      · exact symbol_bounds _
      · exact symbol_bounds _
      · exact padding
      · exact padding
  | case3 x y =>
      simp only [List.mem_cons, List.not_mem_nil, or_false] at member
      rcases member with rfl | rfl | rfl | rfl
      · exact symbol_bounds _
      · exact symbol_bounds _
      · exact symbol_bounds _
      · exact padding
  | case4 x y z rest ih =>
      simp only [List.mem_cons] at member
      rcases member with rfl | rfl | rfl | rfl | member
      · exact symbol_bounds _
      · exact symbol_bounds _
      · exact symbol_bounds _
      · exact symbol_bounds _
      · exact ih member

end Base64

end RelayControl
