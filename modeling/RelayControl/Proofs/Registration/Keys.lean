import RelayControl.Proofs.Text.Base64
import RelayControl.Registration.Exchange

/-!
Good keys. The text of a key is the base64 text of its 32 bytes, which is 44 symbols and nothing
around them; what is checked of a key that was supplied is its text without the blanks at its ends.
-/

namespace RelayControl

/-- The text of the 32 bytes of a key. -/
def KeyText (s : String) : Prop :=
  ∃ bytes : List UInt8, bytes.length = 32 ∧ Text.bytes s = Base64.encodeBytes bytes

namespace Text

theorem dropWhile_isBlank {cs : List Char} (solid : ∀ c ∈ cs, isBlank c = false) :
    cs.dropWhile isBlank = cs := by
  cases cs with
  | nil => rfl
  | cons c rest => rw [List.dropWhile_cons, solid c (List.mem_cons_self ..)]; rfl

theorem trim_eq_self {s : String} (solid : ∀ c ∈ s.toList, isBlank c = false) : trim s = s := by
  have back : ∀ c ∈ s.toList.reverse, isBlank c = false := fun c inside =>
    solid c (List.mem_reverse.mp inside)
  rw [trim, dropWhile_isBlank solid, dropWhile_isBlank back, List.reverse_reverse,
    String.ofList_toList]

def blanks (n : Nat) : String := String.ofList (List.replicate n ' ')

theorem trim_blanks_append (n : Nat) (s : String) : trim (blanks n ++ s) = trim s := by
  have blank : ∀ c ∈ List.replicate n ' ', isBlank c = true := by
    intro c member
    rw [List.eq_of_mem_replicate member]
    rfl
  rw [trim, trim, blanks, String.toList_append, String.toList_ofList,
    List.dropWhile_append_of_pos blank]

theorem size_blanks (n : Nat) : (blanks n).utf8ByteSize = n := by
  rw [← length_bytes, bytes_eq_flatMap, blanks, String.toList_ofList]
  induction n with
  | zero => rfl
  | succ n ih =>
      rw [List.replicate_succ, List.flatMap_cons, List.length_append, ih, Nat.add_comm]
      rfl

/-- In ASCII the blanks come before all signs; beyond it the first byte of a character is high. -/
theorem exists_byte_of_isBlank {c : Char} (blank : isBlank c = true) :
    ∃ b ∈ String.utf8EncodeChar c, b.toNat < 43 ∨ 128 ≤ b.toNat := by
  have number : c.toNat = c.val.toNat := rfl
  simp only [isBlank, number, Bool.or_eq_true, Bool.and_eq_true, decide_eq_true_eq, beq_iff_eq]
    at blank
  unfold String.utf8EncodeChar
  dsimp only
  split_ifs
  all_goals
    refine ⟨_, List.mem_cons_self, ?_⟩
    rw [UInt8.toNat_ofNat']
    omega

end Text

namespace KeyText

variable {s : String}

theorem size (text : KeyText s) : s.utf8ByteSize = 44 := by
  obtain ⟨bytes, length, written⟩ := text
  rw [← Text.length_bytes, written, Base64.length_encodeBytes, length]

theorem bare (text : KeyText s) : Text.trim s = s := by
  obtain ⟨bytes, -, written⟩ := text
  apply Text.trim_eq_self
  intro c inside
  by_contra blank
  obtain ⟨b, own, odd⟩ := Text.exists_byte_of_isBlank (eq_true_of_ne_false blank)
  have member : b ∈ Text.bytes s := by
    rw [Text.bytes_eq_flatMap]
    exact List.mem_flatMap.mpr ⟨c, inside, own⟩
  rw [written] at member
  have plain := Base64.bounds_of_mem_encodeBytes member
  omega

end KeyText

theorem checkKey_eq_ok_iff {what key : String} :
    checkKey what key = .ok () ↔ KeyText (Text.trim key) := by
  simp only [KeyText, ← Base64.decode_eq_ok_iff]
  unfold checkKey
  cases read : Base64.decode (Text.trim key) with
  | error f => simp
  | ok bytes => simp

theorem checkKey_blanks_append (what : String) (n : Nat) (key : String) :
    checkKey what (Text.blanks n ++ key) = checkKey what key := by
  rw [checkKey, checkKey, Text.trim_blanks_append]

theorem size_of_checkKey {what key : String} (good : checkKey what key = .ok ()) :
    (Text.trim key).utf8ByteSize = 44 :=
  (checkKey_eq_ok_iff.mp good).size

end RelayControl
