import RelayControl.Proofs.Store.Counters
import RelayControl.Proofs.Store.History

/-!
What a write that succeeds makes of the rules, of the emails on record and of the counters of each
client. A write that fails is undone as a whole, so a history is known by its writes that succeeded.
-/

namespace RelayControl

namespace StoreAction

def onRules (n : Int) (rules : List (Int × RuleBody)) : StoreAction → List (Int × RuleBody)
  | .addInbound rule => rules ++ [(n + rules.length, rule)]
  | .setEnabled id enabled =>
      rules.map fun (number, rule) => (number, if number = id then { rule with enabled } else rule)
  | _ => rules

def onEmails (emails : List String) : StoreAction → List String
  | .addClient _ email _ => if email ∈ emails then emails else emails ++ [email]
  | _ => emails

def counting (email : String) (counters : Tally × Tally) (t : ClientTraffic) : Tally × Tally :=
  if t.email = email then (counters.1.plus (.whole t.up), counters.2.plus (.whole t.down))
  else counters

def onCounters (email : String) (counters : Option (Tally × Tally)) :
    StoreAction → Option (Tally × Tally)
  | .addClient _ recorded _ =>
      if recorded = email then some (counters.getD (.zero, .zero)) else counters
  | .addTraffic _ clients => counters.map fun counters => clients.foldl (counting email) counters
  | _ => counters

end StoreAction

namespace Store

def rules (s : Store) : List (Int × RuleBody) := s.inbounds.map fun r => (r.id, r.toRuleBody)

def emails (s : Store) : List String := s.clients.map (·.email)

def counters? (s : Store) (email : String) : Option (Tally × Tally) :=
  (s.clients.find? (·.email == email)).map fun c => (c.up, c.down)

def succeeded (s : Store) : List StoreAction → List StoreAction
  | [] => []
  | action :: rest =>
      if (s.attempt action).isOk then action :: succeeded (s.perform action) rest
      else succeeded (s.perform action) rest

variable {s s' : Store}

/-! What each write needs, and what it gives. -/

theorem during_eq_ok_iff {activity : String} {x : Except StoreFault α} {a : α} :
    during activity x = .ok a ↔ x = .ok a := by
  cases x <;> simp [during]

theorem addInbound_eq_ok {rule : RuleBody} {id : Int} (added : s.addInbound rule = .ok (id, s')) :
    (∀ r ∈ s.inbounds, r.tag ≠ rule.tag) ∧ id = s.nextId ∧
      s' = { s with inbounds := s.inbounds ++ [{ rule with id := s.nextId }] } := by
  obtain ⟨_, _, added⟩ := bind_eq_ok_iff.mp (during_eq_ok_iff.mp added)
  split at added
  · cases added
  · rename_i free
    cases added
    exact ⟨by simpa using free, rfl, rfl⟩

theorem addInbound_of_free {rule : RuleBody} (reached : s.reach .inbounds = .ok ())
    (free : ∀ r ∈ s.inbounds, r.tag ≠ rule.tag) : ∃ s', s.addInbound rule = .ok (s.nextId, s') := by
  have untaken : s.inbounds.any (·.tag == rule.tag) = false := by simpa using free
  simp [addInbound, reached, untaken, bind, Except.bind, pure, Except.pure]

theorem setEnabled_eq_ok {id : Int} {enabled known : Bool}
    (changed : s.setEnabled id enabled = .ok (known, s')) :
    s' = { s with
      inbounds := s.inbounds.map fun r => if r.id == id then { r with enabled } else r } := by
  obtain ⟨_, _, changed⟩ := bind_eq_ok_iff.mp changed
  cases changed
  rfl

theorem setText_inbounds {key value : String} (written : s.setText key value = .ok s') :
    s'.inbounds = s.inbounds := by
  obtain ⟨_, _, written⟩ := bind_eq_ok_iff.mp (during_eq_ok_iff.mp written)
  cases written
  rfl

theorem rules_uncounted (s : Store) : s.uncounted.rules = s.rules := by
  rw [rules, rules, uncounted, List.map_map]
  rfl

theorem rules_eq_of_uncounted (same : s'.uncounted = s.uncounted) : s'.rules = s.rules := by
  rw [← rules_uncounted, same, rules_uncounted]

theorem attempt_rules {action : StoreAction} (attempted : s.attempt action = .ok s') :
    s'.rules = action.onRules 1 s.rules := by
  cases action with
  | addInbound rule =>
      obtain ⟨⟨id, _⟩, added, rfl⟩ := map_eq_ok_iff.mp attempted
      obtain ⟨-, -, rfl⟩ := addInbound_eq_ok added
      simp [rules, StoreAction.onRules, nextId, Int.add_comm]
  | setEnabled id enabled =>
      obtain ⟨⟨known, _⟩, changed, rfl⟩ := map_eq_ok_iff.mp attempted
      rw [setEnabled_eq_ok changed]
      simp only [rules, StoreAction.onRules, List.map_map]
      apply List.map_congr_left
      intro r _
      by_cases own : r.id = id <;> simp [own]
  | addClient inbound email enabled =>
      rw [addClient_eq_ok attempted]
      rfl
  | addTraffic tags clients => exact rules_eq_of_uncounted (addTraffic_uncounted attempted)
  | setText key value => exact congrArg (List.map _) (setText_inbounds attempted)
  | resetOutbounds tag =>
      obtain ⟨⟨rows, _⟩, reset, rfl⟩ := map_eq_ok_iff.mp attempted
      exact rules_eq_of_uncounted (resetOutbounds_uncounted reset)
  | outage tables =>
      cases attempted
      rfl

theorem emails_eq_attachments (s : Store) : s.emails = s.attachments.map (·.1) := by
  rw [emails, attachments, List.map_map]
  rfl

theorem attempt_emails {action : StoreAction} (attempted : s.attempt action = .ok s') :
    s'.emails = action.onEmails s.emails := by
  by_cases recorder : ∃ inbound email enabled, action = .addClient inbound email enabled
  · obtain ⟨inbound, email, enabled, rfl⟩ := recorder
    rw [addClient_eq_ok attempted]
    exact emails_putClient inbound email enabled s.clients
  · have other : ∀ inbound email enabled, action ≠ .addClient inbound email enabled :=
      fun inbound email enabled same => recorder ⟨inbound, email, enabled, same⟩
    have same : action.onEmails s.emails = s.emails := by
      cases action <;> first | rfl | exact absurd rfl (other _ _ _)
    rw [same, emails_eq_attachments, emails_eq_attachments, attempt_attachments other attempted]

/-! Counters. -/

theorem find?_putClient (inbound : Int) (recorded email : String) (enabled : Bool)
    (rows : List ClientRow) :
    ((putClient inbound recorded enabled rows).find? (·.email == email)).map
        (fun c => (c.up, c.down)) =
      if recorded = email then
        some (((rows.find? (·.email == email)).map fun c => (c.up, c.down)).getD (.zero, .zero))
      else (rows.find? (·.email == email)).map fun c => (c.up, c.down) := by
  induction rows with
  | nil => by_cases own : recorded = email <;> simp [putClient, own]
  | cons c rest ih =>
      rw [putClient]
      by_cases sought : c.email = email
      · by_cases own : recorded = email
        · simp [sought, own]
        · have differs : email ≠ recorded := Ne.symm own
          simp [sought, own, differs]
      · by_cases own : c.email = recorded
        · have differs : recorded ≠ email := own ▸ sought
          simp [own, differs]
        · simp [sought, own, ih]

theorem find?_countClient (t : ClientTraffic) (email : String) (rows : List ClientRow) :
    ((countClient t rows).find? (·.email == email)).map (fun c => (c.up, c.down)) =
      ((rows.find? (·.email == email)).map fun c => (c.up, c.down)).map
        (StoreAction.counting email · t) := by
  induction rows with
  | nil => rfl
  | cons c rest ih =>
      have step : countClient t (c :: rest) =
          (if c.email == t.email then
            { c with up := c.up.plus (.whole t.up), down := c.down.plus (.whole t.down) }
          else c) :: countClient t rest := rfl
      rw [step]
      by_cases sought : c.email = email
      · by_cases own : t.email = email
        · simp [sought, own, StoreAction.counting]
        · have differs : email ≠ t.email := Ne.symm own
          simp [sought, own, differs, StoreAction.counting]
      · by_cases own : c.email = t.email <;> simp_all

theorem countEmail_counters? {t : ClientTraffic} (counted : s.countEmail t = .ok s')
    (email : String) :
    s'.counters? email = (s.counters? email).map (StoreAction.counting email · t) := by
  obtain ⟨_, _, counted⟩ := bind_eq_ok_iff.mp counted
  cases counted
  exact find?_countClient t email s.clients

theorem foldlM_countEmail_counters? {clients : List ClientTraffic}
    (counted : clients.foldlM countEmail s = .ok s') (email : String) :
    s'.counters? email =
      (s.counters? email).map fun counters =>
        clients.foldl (StoreAction.counting email) counters := by
  induction clients generalizing s with
  | nil =>
      cases counted
      simp
  | cons t rest ih =>
      rw [List.foldlM_cons] at counted
      obtain ⟨middle, first, counted⟩ := bind_eq_ok_iff.mp counted
      rw [ih counted, countEmail_counters? first, Option.map_map]
      rfl

theorem addTraffic_counters? {tags : List TagTraffic} {clients : List ClientTraffic}
    (counted : s.addTraffic tags clients = .ok s') (email : String) :
    s'.counters? email =
      (s.counters? email).map fun counters =>
        clients.foldl (StoreAction.counting email) counters := by
  obtain ⟨middle, tagged, counted⟩ := bind_eq_ok_iff.mp counted
  have same : middle.clients = s.clients :=
    foldlM_keeps (motive := fun t => t.clients = s.clients)
      (fun same step => (countTag_clients step).trans same) rfl tagged
  rw [foldlM_countEmail_counters? counted, counters?, counters?, same]

theorem attempt_counters? {action : StoreAction} (attempted : s.attempt action = .ok s')
    (email : String) : s'.counters? email = action.onCounters email (s.counters? email) := by
  have of_clients : s'.clients = s.clients → s'.counters? email = s.counters? email := by
    intro same
    rw [counters?, same, counters?]
  cases action with
  | addClient inbound recorded enabled =>
      rw [addClient_eq_ok attempted]
      exact find?_putClient inbound recorded email enabled s.clients
  | addTraffic tags clients => exact addTraffic_counters? attempted email
  | addInbound rule =>
      obtain ⟨⟨id, _⟩, added, rfl⟩ := map_eq_ok_iff.mp attempted
      exact of_clients (addInbound_clients added)
  | setEnabled id enabled =>
      obtain ⟨⟨known, _⟩, changed, rfl⟩ := map_eq_ok_iff.mp attempted
      exact of_clients (setEnabled_clients changed)
  | setText key value => exact of_clients (setText_clients attempted)
  | resetOutbounds tag =>
      obtain ⟨⟨rows, _⟩, reset, rfl⟩ := map_eq_ok_iff.mp attempted
      exact of_clients (resetOutbounds_clients reset)
  | outage tables =>
      cases attempted
      rfl

/-! Whole histories. -/

theorem performAll_keeps {motive : Store → Prop}
    (keeps : ∀ {s s' : Store} {action : StoreAction}, motive s → s.attempt action = .ok s' →
      motive s')
    {s : Store} (initial : motive s) (history : List StoreAction) :
    motive (s.performAll history) := by
  induction history generalizing s with
  | nil => exact initial
  | cons action rest ih => exact ih (perform_keeps initial fun _ => keeps initial)

theorem performAll_eq_foldl {α : Type} (view : Store → α) {step : α → StoreAction → α}
    (steps : ∀ {s s' : Store} {action : StoreAction}, s.attempt action = .ok s' →
      view s' = step (view s) action)
    (s : Store) (history : List StoreAction) :
    view (s.performAll history) = (s.succeeded history).foldl step (view s) := by
  induction history generalizing s with
  | nil => rfl
  | cons action rest ih =>
      rw [performAll, List.foldl_cons, ← performAll, ih, succeeded]
      cases attempted : s.attempt action with
      | error f =>
          have same : s.perform action = s := by rw [perform, attempted]; rfl
          rw [same]
          rfl
      | ok s' =>
          have done : s.perform action = s' := by rw [perform, attempted]; rfl
          rw [done, steps attempted]
          rfl

end Store

end RelayControl
