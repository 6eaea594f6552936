import Mathlib.Data.String.Basic

/-!
The order of texts. Texts are compared character by character, which is the order of their bytes in
UTF-8: where two characters differ, the encoding of the lesser one is less at the first byte in
which the encodings differ.
-/

namespace RelayControl.Text

def bytes (s : String) : List UInt8 := s.toUTF8.data.toList

theorem bytes_eq_flatMap (s : String) : bytes s = s.toList.flatMap String.utf8EncodeChar := by
  conv => lhs; rw [← String.ofList_toList (s := s)]
  rw [bytes, String.toUTF8_eq_toByteArray, String.toByteArray_ofList, List.utf8Encode,
    List.data_toByteArray]

theorem utf8EncodeChar_append_lt {c d : Char} (less : c < d) (r r' : List UInt8) :
    String.utf8EncodeChar c ++ r < String.utf8EncodeChar d ++ r' := by
  have below : c.val.toNat < d.val.toNat := less
  have valid : d.val.toNat < 0xd800 ∨ 0xdfff < d.val.toNat ∧ d.val.toNat < 0x110000 := d.valid
  unfold String.utf8EncodeChar
  dsimp only
  split_ifs <;>
    simp (disch := omega) only [List.cons_append, List.nil_append, List.cons_lt_cons_iff,
      UInt8.lt_iff_toNat_lt, ← UInt8.toNat_inj, UInt8.toNat_ofNat', Nat.mod_eq_of_lt] <;>
    omega

theorem append_lt_append_iff (p : List UInt8) {r r' : List UInt8} : p ++ r < p ++ r' ↔ r < r' := by
  induction p with
  | nil => rfl
  | cons b p ih => simp [ih]

theorem flatMap_utf8EncodeChar_lt_iff (cs ds : List Char) :
    cs.flatMap String.utf8EncodeChar < ds.flatMap String.utf8EncodeChar ↔ cs < ds := by
  induction cs generalizing ds with
  | nil =>
      cases ds with
      | nil => simp
      | cons d ds =>
          obtain ⟨b, bs, starts⟩ :=
            List.exists_cons_of_ne_nil (String.utf8EncodeChar_ne_nil (c := d))
          simp [starts]
  | cons c cs ih =>
      cases ds with
      | nil => simp
      | cons d ds =>
          rw [List.flatMap_cons, List.flatMap_cons, List.cons_lt_cons_iff]
          rcases lt_trichotomy c d with less | rfl | greater
          · simp only [less, utf8EncodeChar_append_lt less, true_or]
          · rw [append_lt_append_iff, ih]
            simp
          · have back := List.lt_asymm (utf8EncodeChar_append_lt greater
              (ds.flatMap String.utf8EncodeChar) (cs.flatMap String.utf8EncodeChar))
            simp only [back, not_lt_of_gt greater, ne_of_gt greater, false_and, or_self]

theorem bytes_lt_bytes_iff (s t : String) : bytes s < bytes t ↔ s < t := by
  rw [bytes_eq_flatMap, bytes_eq_flatMap, flatMap_utf8EncodeChar_lt_iff, String.lt_iff_toList_lt]

end RelayControl.Text
