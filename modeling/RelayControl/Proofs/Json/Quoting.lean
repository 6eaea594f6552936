import Mathlib.Data.List.Basic
import Mathlib.Tactic.IntervalCases
import RelayControl.Json.Printer
import RelayControl.Json.Token

/-!
Quoted texts. What is written between quotes is read back, whatever characters it holds.
-/

namespace RelayControl.Json

theorem quoted_of_plain {s : String} (plain : ∀ c ∈ s.toList, escape c = [c]) :
    quoted s = "\"" ++ s ++ "\"" := by
  have same : s.toList.flatMap escape = s.toList := by
    rw [List.flatMap_congr (g := fun c => [c]) plain, List.flatMap_singleton']
  apply String.toList_inj.mp
  simp [quoted, same]

theorem join_cons_char (c : Char) (ps : List Piece) : join (.char c :: ps) = (join ps).push c := by
  rw [join]

theorem join_cons_unit {n : Nat} (plain : n < 0xD800) (ps : List Piece) :
    join (.unit n :: ps) = (join ps).push (Char.ofNat n) := by
  have notTrailing : isTrailing n = false := by
    simp [isTrailing]
    omega
  have notLeading : isLeading n = false := by
    simp [isLeading]
    omega
  match ps with
  | [] => simp [join, notTrailing, notLeading, Joined.push]
  | .unit m :: rest => simp [join, notTrailing, notLeading]
  | .char c :: rest => simp [join, notTrailing, notLeading]

theorem pieces_escape (c : Char) (rest : List Char) :
    ∃ p, pieces (escape c ++ rest) = (p :: (pieces rest).1, (pieces rest).2) ∧
      ∀ ps, join (p :: ps) = (join ps).push c := by
  by_cases control : c.toNat < 0x20
  · obtain ⟨n, named⟩ : ∃ n, c.toNat = n := ⟨_, rfl⟩
    have same : c = Char.ofNat n := by rw [← named, Char.ofNat_toNat]
    rw [named] at control
    subst same
    interval_cases n <;> first
      | exact ⟨.char _, rfl, join_cons_char _⟩
      | exact ⟨.unit _, rfl, join_cons_unit (by decide)⟩
  · refine ⟨.char c, ?_, join_cons_char c⟩
    by_cases quote : c = '"'
    · subst quote
      rfl
    by_cases backslash : c = '\\'
    · subst backslash
      rfl
    have unescaped : escape c = [c] := by
      unfold escape
      split
      case h_8 => rw [if_neg control]
      all_goals first
        | exact absurd rfl quote
        | exact absurd rfl backslash
        | exact absurd (by decide) control
    rw [unescaped, List.singleton_append, pieces]
    · simp only [if_neg quote, if_neg control]
    all_goals simp [backslash]

theorem pieces_quoted (cs rest : List Char) :
    ∃ ps, pieces (cs.flatMap escape ++ '"' :: rest) = (ps, .closed rest) ∧ join ps = .chars cs := by
  induction cs with
  | nil => exact ⟨[], by simp [pieces], rfl⟩
  | cons c cs ih =>
      obtain ⟨ps, read, joined⟩ := ih
      obtain ⟨p, first, stands⟩ := pieces_escape c (cs.flatMap escape ++ '"' :: rest)
      refine ⟨p :: ps, ?_, ?_⟩
      · rw [List.flatMap_cons, List.append_assoc, first, read]
      · rw [stands, joined]
        rfl

theorem tokens_quoted (s : String) (rest : List Char) :
    tokens ((quoted s).toList ++ rest) = .text s :: tokens rest := by
  have written : (quoted s).toList ++ rest = '"' :: (s.toList.flatMap escape ++ '"' :: rest) := by
    simp [quoted]
  obtain ⟨ps, read, joined⟩ := pieces_quoted s.toList rest
  rw [written]
  apply tokens_cons_of_tokenAt (by decide)
  simp [tokenAt, stringToken, read, joined]

end RelayControl.Json
