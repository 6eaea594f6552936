import RelayControl.Relay.Config.Lookup

/-! Putting an outbound in its place: over the first one that has its tag, or behind all others. -/

namespace RelayControl

/-- The second list is the first one with a new outbound of a tag put in its place. -/
inductive Placed (tag : String) (new : Outbound) : List Outbound → List Outbound → Prop
  | inPlace {before after : List Outbound} {old : Outbound} (own : old.tag? = some tag)
      (first : ∀ o ∈ before, o.tag? ≠ some tag) :
      Placed tag new (before ++ old :: after) (before ++ new :: after)
  | behind {outbounds : List Outbound} (unused : ∀ o ∈ outbounds, o.tag? ≠ some tag) :
      Placed tag new outbounds (outbounds ++ [new])

namespace Placed

variable {tag : String} {new o : Outbound} {outbounds placed : List Outbound}

theorem cons (other : o.tag? ≠ some tag) (rest : Placed tag new outbounds placed) :
    Placed tag new (o :: outbounds) (o :: placed) := by
  cases rest with
  | inPlace own first =>
      rw [← List.cons_append, ← List.cons_append]
      exact .inPlace own (List.forall_mem_cons.mpr ⟨other, first⟩)
  | behind unused =>
      rw [← List.cons_append]
      exact .behind (List.forall_mem_cons.mpr ⟨other, unused⟩)

theorem upsert (tagged : new.tag? = some tag) (outbounds : List Outbound) :
    Placed tag new outbounds (upsert new outbounds) := by
  induction outbounds with
  | nil => exact .behind (by simp)
  | cons o rest ih =>
      rw [RelayControl.upsert, tagged]
      split
      · rename_i same
        have first : ∀ o ∈ ([] : List Outbound), o.tag? ≠ some tag := List.forall_mem_nil _
        exact .inPlace same.2 first
      · rename_i differs
        exact ih.cons fun same => differs ⟨rfl, same⟩

theorem find? (tagged : new.tag? = some tag) (placement : Placed tag new outbounds placed) :
    placed.find? (·.tag? == some tag) = some new := by
  have passed : ∀ {before after : List Outbound}, (∀ o ∈ before, o.tag? ≠ some tag) →
      (before ++ new :: after).find? (·.tag? == some tag) = some new := by
    intro before after others
    have none : before.find? (·.tag? == some tag) = none := by
      simpa [List.find?_eq_none] using others
    rw [List.find?_append, none, Option.none_or, List.find?_cons_of_pos (by simp [tagged])]
  cases placement with
  | inPlace _ first => exact passed first
  | behind unused => exact passed unused

end Placed

end RelayControl
