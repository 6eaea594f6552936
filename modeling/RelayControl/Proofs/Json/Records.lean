import RelayControl.Json.Decode
import RelayControl.Proofs.Basic
import Mathlib.Data.List.Forall2

/-!
Reading a record from two trees side by side. Where every field makes related changes, related
records come out, and where one tree is refused the other is refused for the same reason.
-/

namespace RelayControl.Json

variable {σ : Type} {R : σ → σ → Prop} {fields : List (RecordField σ)}

/-- Two values from which a field makes related changes, or which it refuses alike. -/
def RecordField.AlikeAt (R : σ → σ → Prop) (field : RecordField σ) (d d' : Doc) : Prop :=
  ∀ depth, SameUpTo (fun change change' => ∀ r r', R r r' → R (change r) (change' r'))
    (field.read depth d) (field.read depth d')

theorem RecordField.alikeAt_mandatory {item : Decoder α} {put : α → σ → σ} {Q : α → α → Prop}
    {d d' : Doc} (name : String) (items : ∀ depth, SameUpTo Q (item depth d) (item depth d'))
    (puts : ∀ v v', Q v v' → ∀ r r', R r r' → R (put v r) (put v' r')) :
    (RecordField.mandatory name item put).AlikeAt R d d' := by
  intro depth
  exact (items depth).map puts

structure AlikeMember (R : σ → σ → Prop) (fields : List (RecordField σ))
    (m m' : Option String × Doc) : Prop where
  key : m.1 = m'.1
  known : ∀ field ∈ fields, some field.name = m.1 → field.AlikeAt R m.2 m'.2
  skipped : m.2.skip = m'.2.skip

namespace Record

abbrev passOver (_ : Nat) (_ : String) (d : Doc) (record : σ) : Except Flaw σ :=
  d.skip.map fun _ => record

theorem takeMembers_alike {ms ms' : List (Option String × Doc)}
    (alike : List.Forall₂ (AlikeMember R fields) ms ms') (depth : Nat) {draft draft' : Draft σ}
    (records : R draft.record draft'.record) (given : draft.given = draft'.given) :
    SameUpTo (fun done done' => R done.record done'.record ∧ done.given = done'.given)
      (takeMembers fields passOver depth draft ms)
      (takeMembers fields passOver depth draft' ms') := by
  induction alike generalizing draft draft' with
  | nil => exact .value ⟨records, given⟩
  | @cons m m' ms ms' member rest ih =>
      obtain ⟨key?, d⟩ := m
      obtain ⟨key?', d'⟩ := m'
      obtain ⟨rfl, known, skipped⟩ := member
      cases key? with
      | none => exact .fault Flaw.malformed
      | some key =>
          unfold takeMembers
          cases found : fields.find? (·.name == key) with
          | none =>
              dsimp only at skipped ⊢
              rw [passOver, passOver, skipped]
              have passed : SameUpTo R (d'.skip.map fun _ => draft.record)
                  (d'.skip.map fun _ => draft'.record) :=
                (SameUpTo.refl Eq.refl d'.skip).map fun _ _ _ => records
              apply passed.bind
              intro record record' related
              exact ih related given
          | some field =>
              have named : field.name = key := by simpa using List.find?_some found
              dsimp only
              rw [← given]
              split
              · exact .fault Flaw.unfit
              · apply (known field (List.mem_of_find?_eq_some found)
                  (congrArg some named) depth).bind
                intro change change' related
                exact ih (related _ _ records) rfl

theorem takeItems_alike (reads : ∀ field ∈ fields, ∀ d, field.AlikeAt R d d) (depth : Nat)
    (ending : Option Flaw) {record record' : σ} (records : R record record') (ds : List Doc) :
    SameUpTo R (takeItems depth ending fields record ds)
      (takeItems depth ending fields record' ds) := by
  induction fields generalizing record record' ds with
  | nil =>
      cases ds with
      | nil =>
          apply (SameUpTo.refl Eq.refl (proceed ending)).bind
          intro _ _ _
          exact .value records
      | cons d ds => exact .fault Flaw.malformed
  | cons field fields ih =>
      have later : ∀ field ∈ fields, ∀ d, field.AlikeAt R d d :=
        fun field member => reads field (List.mem_cons_of_mem _ member)
      cases ds with
      | nil =>
          unfold takeItems
          apply (SameUpTo.refl Eq.refl (proceed ending)).bind
          intro _ _ _
          split
          · exact .fault Flaw.unfit
          · exact ih later records []
      | cons d ds =>
          unfold takeItems
          apply (reads field (List.mem_cons_self ..) d depth).bind
          intro change change' related
          exact ih later (related _ _ records) ds

theorem closed_members_alike {ms ms' : List (Option String × Doc)}
    (alike : List.Forall₂ (AlikeMember R fields) ms ms') {blank : σ} (initial : R blank blank)
    (depth : Nat) (ending : Option Flaw) :
    SameUpTo R (closed fields blank depth (.members ms ending))
      (closed fields blank depth (.members ms' ending)) := by
  unfold closed
  dsimp only
  split
  · unfold ofMembers
    apply (takeMembers_alike alike (depth + 1) initial rfl).bind
    rintro draft draft' ⟨records, given⟩
    apply (SameUpTo.refl Eq.refl (proceed ending)).bind
    intro _ _ _
    unfold complete
    rw [given]
    split
    · exact .value records
    · exact .fault Flaw.unfit
  · exact .fault Flaw.malformed

theorem closed_row_alike {field : RecordField σ} {d d' : Doc} (first : field.AlikeAt R d d')
    (reads : ∀ field ∈ fields, ∀ d, field.AlikeAt R d d) {blank : σ} (initial : R blank blank)
    (depth : Nat) (rest : List Doc) (ending : Option Flaw) :
    SameUpTo R (closed (field :: fields) blank depth (.items (d :: rest) ending))
      (closed (field :: fields) blank depth (.items (d' :: rest) ending)) := by
  unfold closed
  dsimp only
  split
  · unfold takeItems
    apply (first (depth + 1)).bind
    intro change change' related
    exact takeItems_alike reads (depth + 1) ending (related _ _ initial) rest
  · exact .fault Flaw.malformed

end Record

end RelayControl.Json
