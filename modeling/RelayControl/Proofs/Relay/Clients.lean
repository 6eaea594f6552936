import RelayControl.Relay.Clients

/-!
The client list of an inbound. Each client comes from an entry that is not switched off, its records
entitle it, and no email stands twice.
-/

namespace RelayControl

theorem entitlement?_eq_none {records : List ClientRecord} {email : String}
    (undecided : entitlement? records email = none) : ∀ r ∈ records, r.email ≠ email := by
  unfold entitlement? at undecided
  split at undecided
  · rename_i nothing
    simpa [List.filter_eq_nil_iff] using nothing
  · cases undecided

theorem entitlement?_eq_some {records : List ClientRecord} {email : String} {enabled : Bool}
    (decided : entitlement? records email = some enabled) :
    (∃ r ∈ records, r.email = email) ∧
      (enabled = true ↔ ∀ r ∈ records, r.email = email → r.enabled = true) := by
  unfold entitlement? at decided
  split at decided
  · cases decided
  · rename_i something
    cases decided
    constructor
    · obtain ⟨r, found⟩ := List.exists_mem_of_ne_nil _ something
      obtain ⟨member, same⟩ := List.mem_filter.mp found
      exact ⟨r, member, eq_of_beq same⟩
    · simp only [List.all_eq_true, List.mem_filter, beq_iff_eq, and_imp]

theorem entitles_iff {records : List ClientRecord} {policy : MissingRecordPolicy}
    {email : Option String} :
    entitles records policy email = true ↔
      (∀ r ∈ records, email = some r.email → r.enabled = true) ∧
        (policy = .drop → ∃ r ∈ records, email = some r.email) := by
  cases email with
  | none => cases policy <;> simp [entitles]
  | some email =>
      simp only [Option.some.injEq, eq_comm (a := email)]
      cases decided : entitlement? records email with
      | none =>
          have absent := entitlement?_eq_none decided
          have vacuous : ∀ r ∈ records, r.email = email → r.enabled = true :=
            fun r member same => absurd same (absent r member)
          cases policy with
          | keep => simpa [entitles, decided] using vacuous
          | drop => simpa [entitles, decided] using fun _ => absent
      | some enabled =>
          obtain ⟨present, decides⟩ := entitlement?_eq_some decided
          have outcome : entitles records policy (some email) = enabled := by
            simp [entitles, decided]
          rw [outcome, decides]
          exact ⟨fun all => ⟨all, fun _ => present⟩, fun all => all.1⟩

namespace Client

theorem ofRaw?_eq_some {entry : Json} {c : Client} (candidate : ofRaw? entry = some c) :
    ∃ members, entry = .object members ∧ members.lookup "enable" ≠ some (.bool false) ∧
      Json.fromJson decoder entry = .ok c := by
  cases entry with
  | object members =>
      unfold ofRaw? at candidate
      dsimp only at candidate
      split at candidate
      · cases candidate
      · rename_i not_off
        refine ⟨members, rfl, ?_, ?_⟩
        · intro off
          exact not_off (by rw [off]; exact beq_self_eq_true _)
        · cases decoded : Json.fromJson decoder (.object members) with
          | error f => simp [decoded, Except.toOption] at candidate
          | ok found =>
              simp only [decoded, Except.toOption, Option.some.injEq] at candidate
              rw [candidate]
  | _ => cases candidate

theorem ofRaw?_eq_some_iff {entry : Json} {c : Client} :
    ofRaw? entry = some c ↔
      ∃ members, entry = .object members ∧ members.lookup "enable" ≠ some (.bool false) ∧
        Json.fromJson decoder entry = .ok c := by
  refine ⟨ofRaw?_eq_some, ?_⟩
  rintro ⟨members, rfl, switchedOn, read⟩
  have notOff : (members.lookup "enable" == some (.bool false)) = false := by
    rw [Bool.eq_false_iff]
    intro off
    cases found : members.lookup "enable" with
    | none => simp [found] at off
    | some v =>
        rw [found] at off switchedOn
        cases v with
        | bool b =>
            cases b with
            | false => exact switchedOn rfl
            | true => cases off
        | _ => cases off
  rw [ ofRaw?, notOff, read]
  rfl

theorem distinct_fresh (seen : List String) (cs : List Client) :
    ∀ email ∈ (distinct seen cs).filterMap (·.email), email ∉ seen := by
  induction cs generalizing seen with
  | nil => simp
  | cons c rest ih =>
      intro email member
      unfold distinct at member
      split at member
      · rename_i nameless
        exact ih seen email (by simpa [nameless] using member)
      · rename_i own named
        split at member
        · exact ih seen email member
        · rename_i unseen
          simp only [List.filterMap_cons, named, List.mem_cons] at member
          rcases member with rfl | later
          · simpa using unseen
          · intro known
            exact ih (own :: seen) email later (List.mem_cons_of_mem _ known)

theorem distinct_nodup (seen : List String) (cs : List Client) :
    ((distinct seen cs).filterMap (·.email)).Nodup := by
  induction cs generalizing seen with
  | nil => simp
  | cons c rest ih =>
      unfold distinct
      split
      · rename_i nameless
        simpa [nameless] using ih seen
      · rename_i own named
        split
        · exact ih seen
        · simp only [List.filterMap_cons, named, List.nodup_cons]
          refine ⟨fun again => ?_, ih (own :: seen)⟩
          exact distinct_fresh (own :: seen) rest own again List.mem_cons_self

theorem distinct_concat (seen : List String) (cs : List Client) (c : Client) :
    distinct seen (cs ++ [c]) = distinct seen cs ++
      if ∃ email, c.email = some email ∧ (email ∈ seen ∨ some email ∈ cs.map (·.email)) then []
      else [c] := by
  induction cs generalizing seen with
  | nil =>
      cases named : c.email with
      | none => simp [distinct, named]
      | some own => by_cases known : own ∈ seen <;> simp [distinct, named, known]
  | cons d rest ih =>
      rw [List.cons_append, distinct, distinct]
      cases named : d.email with
      | none => simp [ih, named]
      | some other =>
          by_cases known : other ∈ seen
          · have condition : ∀ email, email ∈ seen ∨ some email ∈ (d :: rest).map (·.email) ↔
                email ∈ seen ∨ some email ∈ rest.map (·.email) := by
              intro email
              rw [List.map_cons, List.mem_cons, named, Option.some.injEq]
              constructor
              · rintro (inside | rfl | later)
                · exact .inl inside
                · exact .inl known
                · exact .inr later
              · exact Or.imp_right .inr
            simp only [List.contains_iff_mem, known, if_true, ih, condition]
          · have condition : ∀ email, email ∈ seen ∨ some email ∈ (d :: rest).map (·.email) ↔
                email ∈ other :: seen ∨ some email ∈ rest.map (·.email) := by
              intro email
              rw [List.map_cons, List.mem_cons, List.mem_cons, named, Option.some.injEq,
                or_left_comm, or_assoc]
            simp only [List.contains_iff_mem, known, if_false, ih, condition, List.cons_append]

theorem distinct_filter (q : Option String → Bool) {seen seen' : List String}
    (agree : ∀ email, q (some email) = true → (email ∈ seen ↔ email ∈ seen')) (cs : List Client) :
    distinct seen (cs.filter (q ·.email)) = (distinct seen' cs).filter (q ·.email) := by
  induction cs generalizing seen seen' with
  | nil => rfl
  | cons c rest ih =>
      cases named : c.email with
      | none =>
          cases asked : q none with
          | true => simp [distinct, named, asked, ih agree]
          | false => simp [distinct, named, asked, ih agree]
      | some own =>
          cases asked : q (some own) with
          | true =>
              have both := agree own asked
              by_cases known : own ∈ seen'
              · simp [distinct, named, asked, known, both.mpr known, ih agree]
              · have later : ∀ email, q (some email) = true →
                    (email ∈ own :: seen ↔ email ∈ own :: seen') := by
                  intro email also
                  rw [List.mem_cons, List.mem_cons, agree email also]
                simp [distinct, named, asked, known, mt both.mp known, ih later]
          | false =>
              -- an email that is not asked for may be noted on one side and not on the other
              have later : ∀ email, q (some email) = true →
                  (email ∈ seen ↔ email ∈ own :: seen') := by
                intro email also
                have differs : email ≠ own := by
                  rintro rfl
                  rw [asked] at also
                  cases also
                rw [agree email also, List.mem_cons, or_iff_right differs]
              by_cases known : own ∈ seen'
              · simp [distinct, named, asked, known, ih agree]
              · simp [distinct, named, asked, known, ih later]

theorem distinct_of_nodup {seen : List String} {cs : List Client}
    (nodup : (cs.filterMap (·.email)).Nodup)
    (fresh : ∀ email ∈ cs.filterMap (·.email), email ∉ seen) : distinct seen cs = cs := by
  induction cs generalizing seen with
  | nil => rfl
  | cons c rest ih =>
      cases named : c.email with
      | none =>
          simp only [List.filterMap_cons, named] at nodup fresh
          rw [distinct, named]
          dsimp only
          rw [ih nodup fresh]
      | some own =>
          simp only [List.filterMap_cons, named, List.nodup_cons, List.forall_mem_cons]
            at nodup fresh
          have later : ∀ email ∈ rest.filterMap (·.email), email ∉ own :: seen := by
            intro email member again
            rcases List.mem_cons.mp again with rfl | again
            · exact nodup.1 member
            · exact fresh.2 email member again
          rw [distinct, named]
          dsimp only
          rw [if_neg (by simpa using fresh.1), ih nodup.2 later]

end Client

theorem mem_admittedClients {records : List ClientRecord} {policy : MissingRecordPolicy}
    {entries : List Json} {c : Client} (member : c ∈ admittedClients records policy entries) :
    ∃ entry ∈ entries, ∃ raw, Client.ofRaw? entry = some raw ∧
      entitles records policy raw.email = true ∧ c = raw.withPlainFlow := by
  obtain ⟨raw, kept, rfl⟩ := List.mem_map.mp member
  obtain ⟨candidate, entitled⟩ :=
    List.mem_filter.mp ((Client.distinct_sublist _ _).subset kept)
  obtain ⟨entry, entryMember, read⟩ := List.mem_filterMap.mp candidate
  exact ⟨entry, entryMember, raw, read, entitled, rfl⟩

theorem admittedClients_nodup (records : List ClientRecord) (policy : MissingRecordPolicy)
    (entries : List Json) :
    ((admittedClients records policy entries).filterMap (·.email)).Nodup := by
  have same : (·.email) ∘ Client.withPlainFlow = (·.email) := by
    funext c
    exact c.withPlainFlow_email
  rw [admittedClients, List.filterMap_map, same]
  exact Client.distinct_nodup _ _

end RelayControl
