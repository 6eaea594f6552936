import RelayControl.Proofs.Basic
import RelayControl.Store

/-!
Histories of the store. A history is any list of writes, some of which may fail; what it leaves
behind of each client is what the last successful recording of that email said.
-/

namespace RelayControl

inductive StoreAction where
  | addInbound (rule : RuleBody)
  | setEnabled (id : Int) (enabled : Bool)
  | addClient (inbound : Int) (email : String) (enabled : Bool)
  | addTraffic (tags : List TagTraffic) (clients : List ClientTraffic)
  | setText (key value : String)
  | resetOutbounds (tag : String)
  /-- From now on every statement on these tables fails, and on no other. -/
  | outage (tables : List Table)

def ClientRow.attachment (c : ClientRow) : String × Int × Bool := (c.email, c.inbound, c.enabled)

namespace Store

def attempt (s : Store) : StoreAction → Except StoreFault Store
  | .addInbound rule => (s.addInbound rule).map (·.2)
  | .setEnabled id enabled => (s.setEnabled id enabled).map (·.2)
  | .addClient inbound email enabled => s.addClient inbound email enabled
  | .addTraffic tags clients => s.addTraffic tags clients
  | .setText key value => s.setText key value
  | .resetOutbounds tag => (s.resetOutbounds tag).map (·.2)
  | .outage tables => .ok { s with unavailable := tables }

def perform (s : Store) (action : StoreAction) : Store := (s.attempt action).toOption.getD s

def performAll (s : Store) (history : List StoreAction) : Store := history.foldl perform s

def after (history : List StoreAction) : Store := performAll {} history

def attachments (s : Store) : List (String × Int × Bool) := s.clients.map ClientRow.attachment

def record? (s : Store) (email : String) : Option (Int × Bool) := s.attachments.lookup email

def recording? (s : Store) (email : String) (action : StoreAction) : Option (Int × Bool) :=
  match action with
  | .addClient inbound recorded enabled =>
      if recorded = email ∧ (s.attempt action).isOk then some (inbound, enabled) else none
  | _ => none

def lastRecording? (s : Store) (email : String) : List StoreAction → Option (Int × Bool)
  | [] => none
  | action :: rest => (lastRecording? (s.perform action) email rest).or (s.recording? email action)

/-! What each write does to the rows of the clients. -/

theorem addClient_eq_ok {s s' : Store} {inbound : Int} {email : String} {enabled : Bool}
    (added : s.addClient inbound email enabled = .ok s') :
    s' = { s with clients := putClient inbound email enabled s.clients } := by
  unfold addClient at added
  obtain ⟨_, _, added⟩ := bind_eq_ok_iff.mp added
  split at added
  · exact (Except.ok.inj added).symm
  · cases added

theorem addInbound_clients {s s' : Store} {rule : RuleBody} {id : Int}
    (added : s.addInbound rule = .ok (id, s')) : s'.clients = s.clients := by
  unfold addInbound during at added
  split at added
  · rename_i outcome succeeded
    cases added
    obtain ⟨_, _, succeeded⟩ := bind_eq_ok_iff.mp succeeded
    split at succeeded
    · cases succeeded
    · cases succeeded
      rfl
  · cases added

theorem setEnabled_clients {s s' : Store} {id : Int} {enabled known : Bool}
    (changed : s.setEnabled id enabled = .ok (known, s')) : s'.clients = s.clients := by
  unfold setEnabled at changed
  obtain ⟨_, _, changed⟩ := bind_eq_ok_iff.mp changed
  cases changed
  rfl

theorem setText_clients {s s' : Store} {key value : String}
    (written : s.setText key value = .ok s') : s'.clients = s.clients := by
  unfold setText during at written
  split at written
  · rename_i outcome succeeded
    cases written
    obtain ⟨_, _, succeeded⟩ := bind_eq_ok_iff.mp succeeded
    cases succeeded
    rfl
  · cases written

theorem resetOutbounds_clients {s s' : Store} {tag : String} {rows : Nat}
    (reset : s.resetOutbounds tag = .ok (rows, s')) : s'.clients = s.clients := by
  unfold resetOutbounds at reset
  obtain ⟨_, _, reset⟩ := bind_eq_ok_iff.mp reset
  cases reset
  rfl

theorem countTag_clients {s s' : Store} {t : TagTraffic}
    (counted : s.countTag t = .ok s') : s'.clients = s.clients := by
  unfold countTag at counted
  split at counted
  · obtain ⟨_, _, counted⟩ := bind_eq_ok_iff.mp counted
    cases counted
    rfl
  · split at counted
    · obtain ⟨_, _, counted⟩ := bind_eq_ok_iff.mp counted
      cases counted
      rfl
    · cases counted
      rfl

theorem countEmail_attachments {s s' : Store} {t : ClientTraffic}
    (counted : s.countEmail t = .ok s') : s'.attachments = s.attachments := by
  unfold countEmail at counted
  obtain ⟨_, _, counted⟩ := bind_eq_ok_iff.mp counted
  cases counted
  simp only [attachments, countClient, List.map_map]
  apply List.map_congr_left
  intro c _
  simp only [Function.comp]
  split <;> rfl

theorem addTraffic_attachments {s s' : Store} {tags : List TagTraffic}
    {clients : List ClientTraffic} (counted : s.addTraffic tags clients = .ok s') :
    s'.attachments = s.attachments := by
  unfold addTraffic at counted
  obtain ⟨middle, tagged, counted⟩ := bind_eq_ok_iff.mp counted
  have untouched : middle.clients = s.clients :=
    foldlM_keeps (motive := fun t => t.clients = s.clients)
      (fun same step => (countTag_clients step).trans same) rfl tagged
  exact foldlM_keeps (motive := fun t => t.attachments = s.attachments)
    (fun same step => (countEmail_attachments step).trans same)
    (congrArg (List.map ClientRow.attachment) untouched) counted

theorem attempt_attachments {s s' : Store} {action : StoreAction}
    (other : ∀ inbound email enabled, action ≠ .addClient inbound email enabled)
    (attempted : s.attempt action = .ok s') : s'.attachments = s.attachments := by
  cases action with
  | addClient inbound email enabled => exact absurd rfl (other inbound email enabled)
  | addInbound rule =>
      obtain ⟨result, added, rfl⟩ := map_eq_ok_iff.mp attempted
      exact congrArg (List.map ClientRow.attachment) (addInbound_clients added)
  | setEnabled id enabled =>
      obtain ⟨result, changed, rfl⟩ := map_eq_ok_iff.mp attempted
      exact congrArg (List.map ClientRow.attachment) (setEnabled_clients changed)
  | addTraffic tags clients => exact addTraffic_attachments attempted
  | setText key value =>
      exact congrArg (List.map ClientRow.attachment) (setText_clients attempted)
  | resetOutbounds tag =>
      obtain ⟨result, reset, rfl⟩ := map_eq_ok_iff.mp attempted
      exact congrArg (List.map ClientRow.attachment) (resetOutbounds_clients reset)
  | outage tables =>
      cases attempted
      rfl

theorem perform_keeps {motive : Store → Prop} {s : Store} {action : StoreAction}
    (initial : motive s) (attempted : ∀ s', s.attempt action = .ok s' → motive s') :
    motive (s.perform action) := by
  unfold perform
  cases outcome : s.attempt action with
  | error f => exact initial
  | ok s' => exact attempted s' outcome

/-! What a history leaves of each client. -/

theorem lookup_attachment_cons (email : String) (c : ClientRow) (rest : List ClientRow) :
    ((c :: rest).map ClientRow.attachment).lookup email =
      if c.email = email then some (c.inbound, c.enabled)
      else (rest.map ClientRow.attachment).lookup email := by
  by_cases own : c.email = email
  · simp [ClientRow.attachment, own]
  · have differs : (email == c.email) = false := by simpa using fun e => own e.symm
    simp [ClientRow.attachment, List.lookup_cons, differs, own]

theorem lookup_putClient (inbound : Int) (recorded email : String) (enabled : Bool)
    (rows : List ClientRow) :
    ((putClient inbound recorded enabled rows).map ClientRow.attachment).lookup email =
      if recorded = email then some (inbound, enabled)
      else (rows.map ClientRow.attachment).lookup email := by
  induction rows with
  | nil => rw [putClient, lookup_attachment_cons]
  | cons c rest ih =>
      rw [putClient]
      split
      · rename_i own
        subst recorded
        rw [lookup_attachment_cons, lookup_attachment_cons]
        split <;> rfl
      · rename_i own
        rw [lookup_attachment_cons, lookup_attachment_cons, ih]
        split
        · rename_i first
          rw [if_neg fun sought => own (first.trans sought.symm)]
        · rfl

theorem perform_record? (s : Store) (email : String) (action : StoreAction) :
    (s.perform action).record? email = (s.recording? email action).or (s.record? email) := by
  by_cases recorder : ∃ inbound recorded enabled, action = .addClient inbound recorded enabled
  · obtain ⟨inbound, recorded, enabled, rfl⟩ := recorder
    cases outcome : s.addClient inbound recorded enabled with
    | error f => simp [perform, recording?, attempt, outcome, Except.toOption, Except.isOk, Except.toBool]
    | ok s' =>
        have rows := addClient_eq_ok outcome
        simp only [perform, recording?, attempt, outcome, Except.toOption, Except.isOk,
          Except.toBool, Option.getD_some, and_true, record?, rows, attachments, lookup_putClient]
        split <;> simp
  · have other : ∀ inbound recorded enabled, action ≠ .addClient inbound recorded enabled :=
      fun inbound recorded enabled same => recorder ⟨inbound, recorded, enabled, same⟩
    have silent : s.recording? email action = none := by
      cases action <;> first | rfl | exact absurd rfl (other _ _ _)
    have same : (s.perform action).attachments = s.attachments :=
      perform_keeps (motive := fun t => t.attachments = s.attachments) rfl
        fun _ => attempt_attachments other
    simp [silent, record?, same]

theorem performAll_record? (s : Store) (email : String) (history : List StoreAction) :
    (s.performAll history).record? email =
      (s.lastRecording? email history).or (s.record? email) := by
  induction history generalizing s with
  | nil => rfl
  | cons action rest ih =>
      rw [performAll, List.foldl_cons, ← performAll, ih, perform_record?, lastRecording?,
        Option.or_assoc]

theorem after_record? (email : String) (history : List StoreAction) :
    (after history).record? email = lastRecording? {} email history := by
  rw [after, performAll_record?]
  cases lastRecording? {} email history <;> rfl

/-! Each email has one row. -/

def OneRowPerEmail (s : Store) : Prop := (s.attachments.map (·.1)).Nodup

theorem emails_putClient (inbound : Int) (email : String) (enabled : Bool)
    (rows : List ClientRow) :
    (putClient inbound email enabled rows).map (·.email) =
      if email ∈ rows.map (·.email) then rows.map (·.email)
      else rows.map (·.email) ++ [email] := by
  induction rows with
  | nil => rfl
  | cons c rest ih =>
      rw [putClient]
      by_cases own : c.email = email
      · simp [own]
      · have differs : email ≠ c.email := fun e => own e.symm
        simp only [own, if_false, List.map_cons, ih, List.mem_cons, differs, false_or]
        split <;> rfl

theorem perform_oneRowPerEmail {s : Store} (unique : s.OneRowPerEmail) (action : StoreAction) :
    (s.perform action).OneRowPerEmail := by
  apply perform_keeps unique
  intro s' attempted
  by_cases recorder : ∃ inbound recorded enabled, action = .addClient inbound recorded enabled
  · obtain ⟨inbound, recorded, enabled, rfl⟩ := recorder
    have rows := addClient_eq_ok attempted
    have emails : s'.attachments.map (·.1) =
        (putClient inbound recorded enabled s.clients).map (·.email) := by
      simp [rows, attachments, ClientRow.attachment]
    have before : (s.clients.map (·.email)).Nodup := by
      simpa [OneRowPerEmail, attachments, ClientRow.attachment, Function.comp_def] using unique
    rw [OneRowPerEmail, emails, emails_putClient]
    split
    · exact before
    · rename_i fresh
      exact List.nodup_append.mpr ⟨before, List.nodup_singleton _, by
        intro old known added new same
        rw [List.mem_singleton] at new
        exact fresh (new ▸ same ▸ known)⟩
  · have other : ∀ inbound recorded enabled, action ≠ .addClient inbound recorded enabled :=
      fun inbound recorded enabled same => recorder ⟨inbound, recorded, enabled, same⟩
    rw [OneRowPerEmail, attempt_attachments other attempted]
    exact unique

theorem performAll_oneRowPerEmail {s : Store} (unique : s.OneRowPerEmail)
    (history : List StoreAction) : (s.performAll history).OneRowPerEmail := by
  induction history generalizing s with
  | nil => exact unique
  | cons action rest ih => exact ih (perform_oneRowPerEmail unique action)

theorem after_oneRowPerEmail (history : List StoreAction) : (after history).OneRowPerEmail :=
  performAll_oneRowPerEmail (s := {}) List.nodup_nil history

theorem mem_recordsOf_after {history : List StoreAction} {inbound : Int} {r : ClientRecord} :
    r ∈ (after history).recordsOf inbound ↔
      lastRecording? {} r.email history = some (inbound, r.enabled) := by
  rw [← after_record?, record?, lookup_eq_some_iff_mem (after_oneRowPerEmail history)]
  obtain ⟨email, enabled⟩ := r
  simp only [recordsOf, attachments, List.mem_map, List.mem_filter, beq_iff_eq,
    ClientRow.attachment, ClientRecord.mk.injEq, Prod.mk.injEq]
  constructor
  · rintro ⟨c, ⟨member, attached⟩, same, state⟩
    exact ⟨c, member, same, attached, state⟩
  · rintro ⟨c, member, same, attached, state⟩
    exact ⟨c, ⟨member, attached⟩, same, state⟩

end Store

end RelayControl
