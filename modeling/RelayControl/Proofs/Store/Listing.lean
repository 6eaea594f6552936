import RelayControl.Proofs.Store.Traffic
import Mathlib.Data.List.Induction

/-!
The store as an ordered map. What it lists after a history is said by the writes that succeeded:
the rules as they were added, under the flag set last, and each email with the rule and the flag
that the last recording gave it, in the order of the first recordings.
-/

namespace RelayControl

namespace StoreAction

def switched? (id : Int) : StoreAction → Option Bool
  | .setEnabled other enabled => if other = id then some enabled else none
  | _ => none

def recorded? : StoreAction → Option String
  | .addClient _ email _ => some email
  | _ => none

def saying? (email : String) : StoreAction → Option (Int × Bool)
  | .addClient inbound recorded enabled =>
      if recorded = email then some (inbound, enabled) else none
  | _ => none

end StoreAction

open StoreAction

/-! What a list of writes, all of which succeeded, says of the store. -/

def lastFlag (id : Int) (initial : Bool) (done : List StoreAction) : Bool :=
  (done.filterMap (switched? id)).getLast?.getD initial

/-- The rules that are added, numbered from `n` on, each under the flag that is set for it last. -/
def rulesFrom (n : Int) : List StoreAction → List (Int × RuleBody)
  | [] => []
  | .addInbound rule :: later =>
      (n, { rule with enabled := lastFlag n rule.enabled later }) :: rulesFrom (n + 1) later
  | _ :: later => rulesFrom n later

def emailsIn (done : List StoreAction) : List String := (done.filterMap recorded?).eraseDups

def lastRecorded? (email : String) (done : List StoreAction) : Option (Int × Bool) :=
  (done.filterMap (saying? email)).getLast?

def recordsIn (rule : Int) (done : List StoreAction) : List ClientRecord :=
  (emailsIn done).filterMap fun email =>
    match lastRecorded? email done with
    | some (inbound, enabled) => if inbound = rule then some ⟨email, enabled⟩ else none
    | none => none

def countersIn? (email : String) (done : List StoreAction) : Option (Tally × Tally) :=
  done.foldl (onCounters email) none

def usageIn (email : String) (done : List StoreAction) :
    Except StoreFault (Option Store.ClientUsage) :=
  match lastRecorded? email done, countersIn? email done with
  | some (inbound, enabled), some (up, down) => do
      let up ← Store.counted up
      let down ← Store.counted down
      pure (some ⟨inbound, email, enabled, up, down⟩)
  | _, _ => pure none

def listing (done : List StoreAction) : List RoutingRule :=
  ((rulesFrom 1 done).filter (·.2.enabled)).map fun (id, rule) =>
    { rule with id, records := recordsIn id done }

/-! One more write. -/

theorem lastFlag_concat (id : Int) (initial : Bool) (done : List StoreAction)
    (action : StoreAction) :
    lastFlag id initial (done ++ [action]) =
      (action.switched? id).getD (lastFlag id initial done) := by
  unfold lastFlag
  rw [getLast?_filterMap_append]
  cases action.switched? id <;> rfl

theorem rulesFrom_concat (action : StoreAction) (n : Int) (done : List StoreAction) :
    rulesFrom n (done ++ [action]) = action.onRules n (rulesFrom n done) := by
  induction done generalizing n with
  | nil =>
      cases action with
      | addInbound rule => simp [rulesFrom, onRules, lastFlag]
      | _ => rfl
  | cons first later ih =>
      cases first with
      | addInbound rule =>
          rw [List.cons_append, rulesFrom, rulesFrom, ih, lastFlag_concat]
          cases action with
          | addInbound added =>
              have number : n + 1 + ((rulesFrom (n + 1) later).length : Int) =
                  n + ((rulesFrom (n + 1) later).length + 1 : Nat) := by omega
              simp only [onRules, switched?, Option.getD_none, List.cons_append, List.length_cons,
                number]
          | setEnabled id enabled =>
              by_cases own : id = n
              · simp [onRules, switched?, own]
              · simp [onRules, switched?, own, Ne.symm own]
          | _ => rfl
      | _ => exact ih n

theorem foldl_onRules (done : List StoreAction) :
    done.foldl (onRules 1) [] = rulesFrom 1 done := by
  induction done using List.reverseRecOn with
  | nil => rfl
  | append_singleton done action ih =>
      rw [List.foldl_append, List.foldl_cons, List.foldl_nil, ih, rulesFrom_concat]

theorem eraseDups_concat (emails : List String) (email : String) :
    (emails ++ [email]).eraseDups =
      if email ∈ emails.eraseDups then emails.eraseDups else emails.eraseDups ++ [email] := by
  rw [List.eraseDups_append]
  by_cases known : email ∈ emails
  · have nothing : [email].removeAll emails = [] := by simp [List.removeAll, known]
    simp [known, nothing]
  · have whole : [email].removeAll emails = [email] := by simp [List.removeAll, known]
    have alone : [email].eraseDups = [email] := rfl
    simp [known, whole, alone]

theorem foldl_onEmails (done : List StoreAction) : done.foldl onEmails [] = emailsIn done := by
  induction done using List.reverseRecOn with
  | nil => rfl
  | append_singleton done action ih =>
      rw [List.foldl_append, List.foldl_cons, List.foldl_nil, ih]
      unfold emailsIn
      rw [List.filterMap_append]
      cases action with
      | addClient inbound email enabled => exact (eraseDups_concat _ email).symm
      | _ => exact congrArg List.eraseDups (List.append_nil _).symm

theorem foldl_saying? (email : String) (done : List StoreAction) :
    done.foldl (fun said action => (action.saying? email).or said) none =
      lastRecorded? email done := by
  induction done using List.reverseRecOn with
  | nil => rfl
  | append_singleton done action ih =>
      rw [List.foldl_append, List.foldl_cons, List.foldl_nil, ih, lastRecorded?, lastRecorded?,
        getLast?_filterMap_append]

namespace Store

/-! What a history leaves is said by its writes that succeeded. -/

variable (history : List StoreAction)

theorem after_rules : (after history).rules = rulesFrom 1 (succeeded {} history) := by
  rw [← foldl_onRules]
  exact performAll_eq_foldl rules attempt_rules {} history

theorem after_emails : (after history).emails = emailsIn (succeeded {} history) := by
  rw [← foldl_onEmails]
  exact performAll_eq_foldl emails attempt_emails {} history

theorem after_counters? (email : String) :
    (after history).counters? email = countersIn? email (succeeded {} history) :=
  performAll_eq_foldl (counters? · email) (fun attempted => attempt_counters? attempted email) {}
    history

theorem attempt_record? {s s' : Store} {action : StoreAction}
    (attempted : s.attempt action = .ok s') (email : String) :
    s'.record? email = (action.saying? email).or (s.record? email) := by
  have done : s.perform action = s' := by
    rw [perform, attempted]
    rfl
  have said : s.recording? email action = action.saying? email := by
    cases action with
    | addClient inbound recorded enabled =>
        simp [recording?, saying?, attempted, Except.isOk, Except.toBool]
    | _ => rfl
  rw [← done, perform_record?, said]

theorem after_lastRecorded? (email : String) :
    (after history).record? email = lastRecorded? email (succeeded {} history) := by
  rw [← foldl_saying?]
  exact performAll_eq_foldl (record? · email) (fun attempted => attempt_record? attempted email)
    {} history

theorem after_recordsOf (rule : Int) :
    (after history).recordsOf rule = recordsIn rule (succeeded {} history) := by
  have known : ∀ c ∈ (after history).clients,
      lastRecorded? c.email (succeeded {} history) = some (c.inbound, c.enabled) := by
    intro c member
    rw [← after_lastRecorded?, record?, lookup_eq_some_iff_mem (after_oneRowPerEmail history)]
    exact List.mem_map_of_mem member
  rw [recordsIn, ← after_emails, emails, List.filterMap_map, recordsOf, ← List.filterMap_eq_map,
    List.filterMap_filter]
  apply List.filterMap_congr
  intro c member
  simp [known c member]

theorem after_enabledRules :
    (after history).enabledRules = (do
      (after history).reach .inbounds
      (after history).reach .clients
      pure (listing (succeeded {} history))) := by
  have rows : listing (succeeded {} history) =
      ((after history).inbounds.filter (·.enabled)).map fun r =>
        { r.toRuleBody with id := r.id, records := (after history).recordsOf r.id } := by
    rw [listing, ← after_rules, rules, List.filter_map, List.map_map]
    apply List.map_congr_left
    intro r _
    rw [after_recordsOf]
    rfl
  rw [rows]
  rfl

theorem record?_eq_find? (s : Store) (email : String) :
    s.record? email = (s.clients.find? (·.email == email)).map fun c => (c.inbound, c.enabled) := by
  rw [record?, attachments]
  induction s.clients with
  | nil => rfl
  | cons c rest ih =>
      rw [lookup_attachment_cons, ih, List.find?_cons]
      by_cases own : c.email = email
      · simp [own]
      · have differs : (c.email == email) = false := by simpa using own
        rw [if_neg own, differs]

theorem after_clientUsage? (email : String) :
    (after history).clientUsage? email = during "Failed to get client traffic" (do
      (after history).reach .clients
      usageIn email (succeeded {} history)) := by
  unfold clientUsage? usageIn
  rw [← after_lastRecorded?, ← after_counters?, record?_eq_find?, counters?]
  cases found : (after history).clients.find? (·.email == email) with
  | none => rfl
  | some c =>
      have own : c.email = email := by simpa using List.find?_some found
      rw [← own]
      rfl

/-! Tags, and the writes that are refused. -/

theorem tags_onRules_setEnabled (id : Int) (enabled : Bool) (rules : List (Int × RuleBody)) :
    ((StoreAction.setEnabled id enabled).onRules 1 rules).map (·.2.tag) = rules.map (·.2.tag) := by
  rw [onRules, List.map_map]
  apply List.map_congr_left
  rintro ⟨number, rule⟩ _
  dsimp only [Function.comp]
  split <;> rfl

theorem attempt_distinctTags {s s' : Store} {action : StoreAction}
    (distinct : (s.rules.map (·.2.tag)).Nodup) (attempted : s.attempt action = .ok s') :
    (s'.rules.map (·.2.tag)).Nodup := by
  rw [attempt_rules attempted]
  cases action with
  | addInbound rule =>
      obtain ⟨⟨id, _⟩, added, rfl⟩ := map_eq_ok_iff.mp attempted
      obtain ⟨free, -, -⟩ := addInbound_eq_ok added
      have unused : rule.tag ∉ s.rules.map (·.2.tag) := by simpa [rules] using free
      rw [onRules, List.map_append]
      exact List.nodup_append.mpr ⟨distinct, List.nodup_singleton _, by
        intro old known added new same
        rw [List.map_singleton, List.mem_singleton] at new
        exact unused (new ▸ same ▸ known)⟩
  | setEnabled id enabled => rwa [tags_onRules_setEnabled]
  | _ => exact distinct

theorem after_distinctTags : ((rulesFrom 1 (succeeded {} history)).map (·.2.tag)).Nodup := by
  rw [← after_rules]
  exact performAll_keeps (motive := fun s => (s.rules.map (·.2.tag)).Nodup) (s := {})
    attempt_distinctTags List.nodup_nil history

theorem perform_of_error {s : Store} {action : StoreAction} {f : StoreFault}
    (failed : s.attempt action = .error f) : s.perform action = s := by
  rw [perform, failed]
  rfl

theorem addInbound_of_taken {s : Store} {rule : RuleBody}
    (taken : ∃ r ∈ s.rules, r.2.tag = rule.tag) : ∃ f, s.addInbound rule = .error f := by
  cases added : s.addInbound rule with
  | error f => exact ⟨f, rfl⟩
  | ok result =>
      obtain ⟨free, -, -⟩ := addInbound_eq_ok added
      obtain ⟨r, member, same⟩ := taken
      obtain ⟨row, inside, rfl⟩ := List.mem_map.mp member
      exact absurd same (free row inside)

theorem addClient_of_unknown {s : Store} {inbound : Int} (unknown : ∀ r ∈ s.rules, r.1 ≠ inbound)
    (email : String) (enabled : Bool) : ∃ f, s.addClient inbound email enabled = .error f := by
  have missing : s.inbounds.any (·.id == inbound) = false := by simpa [rules] using unknown
  unfold addClient
  rw [missing]
  cases s.reach .clients with
  | error f => exact ⟨f, rfl⟩
  | ok => exact ⟨_, rfl⟩

theorem addClient_of_known {s : Store} (reached : s.reach .clients = .ok ()) {r : Int × RuleBody}
    (known : r ∈ s.rules) (email : String) (enabled : Bool) :
    ∃ s', s.addClient r.1 email enabled = .ok s' := by
  obtain ⟨row, member, rfl⟩ := List.mem_map.mp known
  have there : s.inbounds.any (·.id == row.id) = true :=
    List.any_eq_true.mpr ⟨row, member, beq_self_eq_true _⟩
  unfold addClient
  rw [reached, there]
  exact ⟨_, rfl⟩

/-! Where the tables are reached, the other writes succeed. -/

variable {s : Store}

theorem setEnabled_of_reached (reached : s.reach .inbounds = .ok ()) (id : Int) (enabled : Bool) :
    ∃ s', s.setEnabled id enabled = .ok (s.rules.any (·.1 == id), s') := by
  unfold setEnabled
  rw [reached, rules, List.any_map]
  exact ⟨_, rfl⟩

theorem addTraffic_of_reached (inbounds : s.reach .inbounds = .ok ())
    (outbounds : s.reach .outbounds = .ok ()) (clients : s.reach .clients = .ok ())
    (tags : List TagTraffic) (counted : List ClientTraffic) :
    ∃ s', s.addTraffic tags counted = .ok s' := by
  have reaches : s.Reaches tags counted := by
    intro statement _
    cases statement with
    | inbound t => exact reach_eq_ok_iff.mp inbounds
    | outbound t => exact reach_eq_ok_iff.mp outbounds
    | client t => exact reach_eq_ok_iff.mp clients
  exact ⟨_, (addTraffic_eq s tags counted).trans (if_pos reaches)⟩

theorem resetOutbounds_of_reached (reached : s.reach .outbounds = .ok ()) (tag : String) :
    ∃ rows s', s.resetOutbounds tag = .ok (rows, s') := by
  unfold resetOutbounds
  rw [reached]
  exact ⟨_, _, rfl⟩

theorem setText_of_reached (reached : s.reach .settings = .ok ()) (key value : String) :
    ∃ s', s.setText key value = .ok s' := by
  unfold setText
  rw [reached]
  exact ⟨_, rfl⟩

/--
The store refines the writes that succeeded, whichever failed in between: it lists the enabled
rules with their records, each email is on record for the rule and with the flag of its last
recording, and counters stay with their email. A rule with a taken tag and a recording for an
unknown rule are refused without a trace, and where the tables can be reached nothing else is.
-/
structure Refines (s : Store) (done : List StoreAction) : Prop where
  listed : s.enabledRules = (do
    s.reach .inbounds
    s.reach .clients
    pure (listing done))
  distinctTags : ((listing done).map (·.tag)).Nodup
  recorded : ∀ rule email enabled, ⟨email, enabled⟩ ∈ s.recordsOf rule ↔
    lastRecorded? email done = some (rule, enabled)
  usage : ∀ email, s.clientUsage? email = during "Failed to get client traffic" (do
    s.reach .clients
    usageIn email done)
  taken : ∀ rule, (∃ r ∈ rulesFrom 1 done, r.2.tag = rule.tag) →
    (∃ f, s.addInbound rule = .error f) ∧ s.perform (.addInbound rule) = s
  free : s.reach .inbounds = .ok () → ∀ rule, (∀ r ∈ rulesFrom 1 done, r.2.tag ≠ rule.tag) →
    ∃ s', s.addInbound rule = .ok ((rulesFrom 1 done).length + 1, s')
  unknown : ∀ inbound, (∀ r ∈ rulesFrom 1 done, r.1 ≠ inbound) → ∀ email enabled,
    (∃ f, s.addClient inbound email enabled = .error f) ∧
      s.perform (.addClient inbound email enabled) = s
  known : s.reach .clients = .ok () → ∀ r ∈ rulesFrom 1 done, ∀ email enabled,
    ∃ s', s.addClient r.1 email enabled = .ok s'
  switched : s.reach .inbounds = .ok () → ∀ id enabled,
    ∃ s', s.setEnabled id enabled = .ok ((rulesFrom 1 done).any (·.1 == id), s')
  counted : s.reach .inbounds = .ok () → s.reach .outbounds = .ok () →
    s.reach .clients = .ok () → ∀ tags clients, ∃ s', s.addTraffic tags clients = .ok s'
  reset : s.reach .outbounds = .ok () → ∀ tag, ∃ rows s', s.resetOutbounds tag = .ok (rows, s')
  written : s.reach .settings = .ok () → ∀ key value, ∃ s', s.setText key value = .ok s'

theorem after_refines : (after history).Refines (succeeded {} history) where
  listed := after_enabledRules history
  distinctTags := by
    have all := after_distinctTags history
    have tags : (listing (succeeded {} history)).map (·.tag) =
        ((rulesFrom 1 (succeeded {} history)).filter (·.2.enabled)).map (·.2.tag) := by
      rw [listing, List.map_map]
      rfl
    rw [tags]
    exact all.sublist (List.filter_sublist.map _)
  recorded rule email enabled := by
    rw [mem_recordsOf_after, ← after_record?, after_lastRecorded?]
  usage := after_clientUsage? history
  taken rule taken := by
    rw [← after_rules] at taken
    obtain ⟨f, failed⟩ := addInbound_of_taken taken
    refine ⟨⟨f, failed⟩, perform_of_error (f := f) ?_⟩
    rw [attempt, failed]
    rfl
  free reached rule free := by
    rw [← after_rules] at free ⊢
    have unused : ∀ r ∈ (after history).inbounds, r.tag ≠ rule.tag := by simpa [rules] using free
    obtain ⟨s', added⟩ := addInbound_of_free reached unused
    exact ⟨s', by rw [added, nextId, rules, List.length_map]⟩
  unknown inbound unknown email enabled := by
    rw [← after_rules] at unknown
    obtain ⟨f, failed⟩ := addClient_of_unknown unknown email enabled
    exact ⟨⟨f, failed⟩, perform_of_error failed⟩
  known reached r member := by
    rw [← after_rules] at member
    exact addClient_of_known reached member
  switched reached id enabled := by
    rw [← after_rules]
    exact setEnabled_of_reached reached id enabled
  counted := addTraffic_of_reached
  reset := resetOutbounds_of_reached
  written := setText_of_reached

/-- An email that comes back to its rule stands where it stood at first. -/
example : listing
    [.addInbound { tag := "R1", port := 443, protocol := "vless" },
      .addInbound { tag := "R2", port := 444, protocol := "vless" },
      .addClient 1 "a@x" true, .addClient 1 "b@x" true, .addClient 2 "a@x" true,
      .setEnabled 2 false, .addClient 1 "a@x" false] =
    [{ id := 1, tag := "R1", port := 443, protocol := "vless"
       records := [⟨"a@x", false⟩, ⟨"b@x", true⟩] }] := by
  decide

end Store

end RelayControl
