import RelayControl.Proofs.Relay.Dependence
import RelayControl.Proofs.Relay.Selection

/-!
What becomes of the clients of a rule when it may be used by others than before. Whether a client
may use it is asked of its email alone, so that to ask more is to keep fewer of the same clients,
and the records of one email decide nothing for the clients of another.
-/

namespace RelayControl

open Json

namespace Client

def chosen (may : Option String → Bool) (entries : List Json) : List Client :=
  (distinct [] ((entries.filterMap ofRaw?).filter (may ·.email))).map withPlainFlow

theorem filter_chosen (may also : Option String → Bool) (entries : List Json) :
    (chosen may entries).filter (also ·.email) =
      chosen (fun email => may email && also email) entries := by
  have unchanged : (also ·.email) ∘ withPlainFlow = (also ·.email) := by
    funext c
    rw [Function.comp_apply, withPlainFlow_email]
  have both : (entries.filterMap ofRaw?).filter (fun c => may c.email && also c.email) =
      ((entries.filterMap ofRaw?).filter (may ·.email)).filter (also ·.email) := by
    rw [List.filter_filter]
    simp only [Bool.and_comm]
  rw [chosen, chosen, List.filter_map, unchanged, both,
    distinct_filter also (fun _ _ => Iff.rfl)]

end Client

theorem admittedClients_eq_chosen (records : List ClientRecord) (policy : MissingRecordPolicy)
    (entries : List Json) :
    admittedClients records policy entries = Client.chosen (entitles records policy) entries := rfl

variable {records others : List ClientRecord} {policy policy' : MissingRecordPolicy}

theorem admittedClients_narrowed (also : Option String → Bool)
    (narrowed : ∀ email,
      MayUse others policy' email ↔ MayUse records policy email ∧ also email = true)
    (entries : List Json) :
    admittedClients others policy' entries =
      (admittedClients records policy entries).filter (also ·.email) := by
  have same : entitles others policy' =
      fun email => entitles records policy email && also email := by
    funext email
    rw [Bool.eq_iff_iff, Bool.and_eq_true, ← mayUse_iff, ← mayUse_iff]
    exact narrowed email
  rw [admittedClients_eq_chosen, admittedClients_eq_chosen, Client.filter_chosen, same]

def AlikeBut (email : String) (records others : List ClientRecord) : Prop :=
  ∀ r, r.email ≠ email → (r ∈ records ↔ r ∈ others)

namespace AlikeBut

variable {email : String}

theorem mayUse_iff (alike : AlikeBut email records others) {named : Option String}
    (other : named ≠ some email) :
    MayUse records policy named ↔ MayUse others policy named := by
  have own : ∀ r : ClientRecord, named = some r.email → (r ∈ records ↔ r ∈ others) := by
    rintro r rfl
    exact alike r fun same => other (congrArg some same)
  have first : (∀ r ∈ records, named = some r.email → r.enabled = true) ↔
      ∀ r ∈ others, named = some r.email → r.enabled = true :=
    forall_congr' fun r =>
      ⟨fun on member same => on ((own r same).mpr member) same,
        fun on member same => on ((own r same).mp member) same⟩
  have second : (∃ r ∈ records, named = some r.email) ↔ ∃ r ∈ others, named = some r.email :=
    exists_congr fun r => and_congr_left (own r)
  exact ⟨fun may => ⟨first.mp may.notDisabled, fun asked => second.mp (may.recordedIfAsked asked)⟩,
    fun may => ⟨first.mpr may.notDisabled, fun asked => second.mpr (may.recordedIfAsked asked)⟩⟩

theorem insert (before after : List ClientRecord) (r : ClientRecord) :
    AlikeBut r.email (before ++ after) (before ++ r :: after) := by
  intro s other
  have differs : s ≠ r := fun same => other (congrArg ClientRecord.email same)
  simp [differs]

theorem replace (before after : List ClientRecord) (r r' : ClientRecord)
    (same : r'.email = r.email) :
    AlikeBut r.email (before ++ r :: after) (before ++ r' :: after) := by
  intro s other
  have differs : s ≠ r := fun equal => other (congrArg ClientRecord.email equal)
  have differs' : s ≠ r' := fun equal => other ((congrArg ClientRecord.email equal).trans same)
  simp [differs, differs']

theorem filter_admittedClients (alike : AlikeBut email records others)
    (policy : MissingRecordPolicy) (entries : List Json) :
    (admittedClients records policy entries).filter (·.email ≠ some email) =
      (admittedClients others policy entries).filter (·.email ≠ some email) := by
  have same : (fun named => entitles records policy named && decide (named ≠ some email)) =
      fun named => entitles others policy named && decide (named ≠ some email) := by
    funext named
    by_cases own : named = some email
    · simp [own]
    · have equal : entitles records policy named = entitles others policy named := by
        rw [Bool.eq_iff_iff, ← RelayControl.mayUse_iff, ← RelayControl.mayUse_iff]
        exact alike.mayUse_iff own
      rw [equal]
  rw [admittedClients_eq_chosen, admittedClients_eq_chosen,
    Client.filter_chosen _ (fun named => decide (named ≠ some email)),
    Client.filter_chosen _ (fun named => decide (named ≠ some email)), same]

theorem mayUse_iff_of_disabled (alike : AlikeBut email records others)
    (disabled : ∃ r ∈ others, r.email = email ∧ r.enabled = false) (named : Option String) :
    MayUse others policy named ↔
      MayUse records policy named ∧ decide (named ≠ some email) = true := by
  rw [decide_eq_true_iff]
  constructor
  · intro may
    have other : named ≠ some email := by
      rintro rfl
      obtain ⟨r, member, rfl, off⟩ := disabled
      rw [may.notDisabled r member rfl] at off
      cases off
    exact ⟨(alike.mayUse_iff other).mpr may, other⟩
  · rintro ⟨may, other⟩
    exact (alike.mayUse_iff other).mp may

end AlikeBut

/-- The clients after an email was disabled: at most its one client has gone. -/
structure LosesOnly (email : String) (clients remaining : List Client) : Prop where
  others : remaining = clients.filter (·.email ≠ some email)
  once : (clients.filter (·.email = some email)).length ≤ 1

theorem admittedClients_losesOnly {email : String} (alike : AlikeBut email records others)
    (disabled : ∃ r ∈ others, r.email = email ∧ r.enabled = false) (entries : List Json) :
    LosesOnly email (admittedClients records policy entries)
      (admittedClients others policy entries) where
  others := admittedClients_narrowed (fun named => decide (named ≠ some email))
    (alike.mayUse_iff_of_disabled disabled) entries
  once := by
    have count :=
      List.nodup_iff_count_le_one.mp (admittedClients_nodup records policy entries) email
    rw [List.count_filterMap] at count
    rw [← List.countP_eq_length_filter]
    simpa only [beq_eq_decide] using count

/--
Where fewer emails may use a rule, the clients that go are those that no longer may; the others stay
as they were and in their order. Records count as a set; to disable an email is to lose at most its
client; and what is recorded of an email is nothing to the clients of another.
-/
theorem admittedClients_revoked (entries : List Json) :
    (∀ records policy others policy',
      (∀ email, MayUse others policy' email → MayUse records policy email) →
      (admittedClients others policy' entries).Sublist (admittedClients records policy entries) ∧
      admittedClients others policy' entries =
        (admittedClients records policy entries).filter (MayUse others policy' ·.email)) ∧
    (∀ records others policy, (∀ r, r ∈ records ↔ r ∈ others) →
      admittedClients records policy entries = admittedClients others policy entries) ∧
    (∀ before after policy email,
      LosesOnly email (admittedClients (before ++ after) policy entries)
        (admittedClients (before ++ ⟨email, false⟩ :: after) policy entries)) ∧
    (∀ before after policy (r : ClientRecord),
      LosesOnly r.email (admittedClients (before ++ r :: after) policy entries)
        (admittedClients (before ++ { r with enabled := false } :: after) policy entries)) ∧
    ∀ email records others policy, AlikeBut email records others →
      (admittedClients records policy entries).filter (·.email ≠ some email) =
        (admittedClients others policy entries).filter (·.email ≠ some email) := by
  refine ⟨?_, ?_, ?_, ?_, ?_⟩
  · intro records policy others policy' fewer
    have kept : admittedClients others policy' entries =
        (admittedClients records policy entries).filter (MayUse others policy' ·.email) := by
      apply admittedClients_narrowed fun email => decide (MayUse others policy' email)
      intro email
      rw [decide_eq_true_iff]
      exact ⟨fun may => ⟨fewer email may, may⟩, And.right⟩
    exact ⟨kept ▸ List.filter_sublist, kept⟩
  · intro records others policy same
    exact admittedClients_congr same policy entries
  · intro before after policy email
    apply admittedClients_losesOnly (.insert before after ⟨email, false⟩)
    exact ⟨⟨email, false⟩, by simp, rfl, rfl⟩
  · intro before after policy r
    have alike := AlikeBut.replace before after r { r with enabled := false } rfl
    apply admittedClients_losesOnly alike
    exact ⟨{ r with enabled := false }, by simp, rfl, rfl⟩
  · intro email records others policy alike
    exact alike.filter_admittedClients policy entries

/-- A client is disabled beside a record that let it use the rule, and records are asked for. -/
theorem admittedClients_revoked_disabled :
    let entries : List Json :=
      [.object [("email", .text "a@x"), ("id", .text "1")], .object [("id", .text "2")],
        .object [("email", .text "b@x")], .object [("email", .text "a@x"), ("id", .text "3")]]
    let records : List ClientRecord := [⟨"a@x", true⟩, ⟨"b@x", true⟩]
    let others : List ClientRecord := [⟨"a@x", true⟩, ⟨"a@x", false⟩, ⟨"b@x", true⟩]
    let a : Client := { email := some "a@x", id := some "1" }
    let b : Client := { email := some "b@x" }
    let nameless : Client := { id := some "2" }
    (∀ email, MayUse others .drop email → MayUse records .keep email) ∧
      admittedClients records .keep entries = [a, nameless, b] ∧
      admittedClients others .drop entries = [b] ∧
      List.Sublist [b] [a, nameless, b] ∧
      LosesOnly "a@x" [a, nameless, b] (admittedClients others .keep entries) ∧
      (∀ r, r ∈ others ↔ r ∈ others.reverse) ∧
      admittedClients others.reverse .drop entries = [b] ∧
      AlikeBut "a@x" records others ∧
      (admittedClients others .keep entries).filter (·.email ≠ some "a@x") = [nameless, b] := by
  intro entries records others a b nameless
  have fewer : ∀ email, MayUse others .drop email → MayUse records .keep email := by
    intro email _
    have allOn : ∀ r ∈ records, r.enabled = true := by decide
    exact ⟨fun r member _ => allOn r member, nofun⟩
  have wide : admittedClients records .keep entries = [a, nameless, b] := by decide +kernel
  have narrow : admittedClients others .drop entries = [b] := by decide +kernel
  have alike : AlikeBut "a@x" records others :=
    .insert [⟨"a@x", true⟩] [⟨"b@x", true⟩] ⟨"a@x", false⟩
  have sameSet : ∀ r, r ∈ others ↔ r ∈ others.reverse := fun r => List.mem_reverse.symm
  obtain ⟨narrows, asSet, inserted, -, apart⟩ := admittedClients_revoked entries
  obtain ⟨sublist, -⟩ := narrows records .keep others .drop fewer
  have loses := inserted [⟨"a@x", true⟩] [⟨"b@x", true⟩] .keep "a@x"
  have reversed := asSet others others.reverse .drop sameSet
  have rest := apart "a@x" records others .keep alike
  refine ⟨fewer, wide, narrow, ?_, ?_, sameSet, ?_, alike, ?_⟩
  · rw [wide, narrow] at sublist
    exact sublist
  · exact wide ▸ loses
  · exact reversed.symm.trans narrow
  · rw [← rest, wide]
    decide

end RelayControl
