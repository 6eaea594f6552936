import RelayControl.Proofs.Json.Decoders
import RelayControl.Proofs.Json.Layout

/-!
Places in a tree, each at the end of a path of keys, and what decoders have read there. A record
that is read at one place has read its slots at the places below.
-/

namespace RelayControl.Json

namespace Doc

def member? (key : String) : Doc → Option Doc
  | .members ms _ => ms.reverse.lookup (some key)
  | _ => none

def at? (d : Doc) (path : List String) : Option Doc := path.foldlM (fun d key => d.member? key) d

def LeavesOpen (d : Doc) (path : List String) : Prop := ∀ e, d.at? path = some e → e = .null

/-- What is read at a place, or the blank value where the place is left open. -/
inductive Yields {α : Type} (item : Decoder α) (blank : α) (d : Doc) (path : List String) :
    α → Prop
  | read {depth : Nat} {e : Doc} {x : α} (stands : d.at? path = some e)
      (read : item depth e = .ok x) : Yields item blank d path x
  | blank (opens : d.LeavesOpen path) : Yields item blank d path blank

theorem at?_concat (d : Doc) (path : List String) (key : String) :
    d.at? (path ++ [key]) = (d.at? path).bind (member? key) := by
  simp [at?]

theorem LeavesOpen.below {d : Doc} {path : List String} (opens : d.LeavesOpen path) (key : String) :
    d.LeavesOpen (path ++ [key]) := by
  intro e stands
  rw [at?_concat] at stands
  obtain ⟨outer, found, inner⟩ := Option.bind_eq_some_iff.mp stands
  obtain rfl := opens outer found
  cases inner

namespace Yields

variable {α σ : Type} {item : Decoder α} {d : Doc} {path : List String}

theorem slot {L : Layout σ} {r : σ} (keeps : L.Keeps) (yields : d.Yields L.opened L.blank path r)
    {s : Slot σ} (member : s ∈ L.slots) :
    d.Yields s.item (s.get L.blank) (path ++ [s.name]) (s.get r) := by
  cases yields with
  | read stands read =>
      obtain ⟨-, ms, rfl, holds⟩ := Layout.holds_of_opened keeps read
      have below : d.at? (path ++ [s.name]) = ms.reverse.lookup (some s.name) := by
        rw [at?_concat, stands]
        rfl
      cases present : ms.reverse.lookup (some s.name) with
      | some e => exact .read (below.trans present) (holds.given s member e present)
      | none =>
          rw [(holds.missing s member present).2]
          refine .blank fun e stands => ?_
          rw [below, present] at stands
          cases stands
  | blank opens => exact .blank (opens.below s.name)

theorem present {x? : Option α} (yields : d.Yields (.optional item) none path x?) (blank : α) :
    d.Yields item blank path (x?.getD blank) := by
  cases yields with
  | read stands read =>
      rcases Decoder.optional_eq_ok_iff.mp read with ⟨rfl, rfl⟩ | ⟨-, x, found, rfl⟩
      · refine .blank fun e stands' => ?_
        rw [stands] at stands'
        exact (Option.some.inj stands').symm
      · exact .read stands found
  | blank opens => exact .blank opens

theorem eq_none_iff {x? : Option α} (yields : d.Yields (.optional item) none path x?) :
    x? = none ↔ d.LeavesOpen path := by
  cases yields with
  | read stands read =>
      rcases Decoder.optional_eq_ok_iff.mp read with ⟨rfl, rfl⟩ | ⟨solid, x, -, rfl⟩
      · simp [LeavesOpen, stands]
      · simp [LeavesOpen, stands, solid]
  | blank opens => exact ⟨fun _ => opens, fun _ => rfl⟩

theorem entry {xs : List (String × α)} (yields : d.Yields (.map item) [] path xs) (key : String)
    (blank : α) : d.Yields item blank (path ++ [key]) ((xs.lookup key).getD blank) := by
  cases yields with
  | read stands read =>
      obtain ⟨-, ms, made, rfl, each, rfl⟩ := Decoder.map_eq_ok_iff.mp read
      have below : d.at? (path ++ [key]) = ms.reverse.lookup (some key) := by
        rw [at?_concat, stands]
        rfl
      have same := Decoder.lookup_makesOf (List.forall₂_reverse_iff.mpr each) key
      rw [Members.lookup_ofList_eq_reverse]
      generalize made.reverse.lookup key = x? at same ⊢
      generalize ms.reverse.lookup (some key) = e? at same below
      cases same with
      | none =>
          refine .blank fun e stands => ?_
          rw [below] at stands
          cases stands
      | some read => exact .read below read
  | blank opens => exact .blank (opens.below key)

theorem sorted {xs : List (String × α)} (yields : d.Yields (.map item) [] path xs) :
    Members.Sorted xs := by
  cases yields with
  | read stands read =>
      obtain ⟨-, ms, made, rfl, each, rfl⟩ := Decoder.map_eq_ok_iff.mp read
      exact Members.sorted_ofList made
  | blank opens => exact Members.sorted_nil

end Yields

end Doc

end RelayControl.Json
