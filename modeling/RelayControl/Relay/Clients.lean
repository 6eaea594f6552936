import RelayControl.Relay.Config.Decode
import RelayControl.Relay.Rule
import RelayControl.Settings

/-!
Which clients of a rule reach the relay. A raw entry is a candidate when it is an object that is not
switched off and has a client's shape; candidates pass when their records entitle them, and of
those with one email the first stays.
-/

namespace RelayControl

/-- What the records say of an email; one disabled record is enough to disable it. -/
def entitlement? (records : List ClientRecord) (email : String) : Option Bool :=
  match records.filter (·.email == email) with
  | [] => none
  | found => some (found.all (·.enabled))

def entitles (records : List ClientRecord) (policy : MissingRecordPolicy) (email : Option String) :
    Bool :=
  match email.bind (entitlement? records), policy with
  | some enabled, _ => enabled
  | none, .keep => true
  | none, .drop => false

namespace Client

def visionFlow : String := "xtls-rprx-vision"

def withPlainFlow (c : Client) : Client :=
  if c.flow = some "xtls-rprx-vision-udp443" then { c with flow := some visionFlow } else c

@[simp] theorem withPlainFlow_email (c : Client) : c.withPlainFlow.email = c.email := by
  unfold withPlainFlow
  split <;> rfl

@[simp] theorem withPlainFlow_idem (c : Client) :
    c.withPlainFlow.withPlainFlow = c.withPlainFlow := by
  unfold withPlainFlow
  by_cases h : c.flow = some "xtls-rprx-vision-udp443" <;> simp [h, visionFlow]

/-- The client of a raw entry, unless it is switched off or has another shape. -/
def ofRaw? : Json → Option Client
  | .object ms =>
      if ms.lookup "enable" == some (.bool false) then none
      else (Json.fromJson decoder (.object ms)).toOption
  | _ => none

/-- Leaves out a client whose email an earlier one has. -/
def distinct (seen : List String) : List Client → List Client
  | [] => []
  | c :: rest =>
      match c.email with
      | none => c :: distinct seen rest
      | some email =>
          if seen.contains email then distinct seen rest
          else c :: distinct (email :: seen) rest

@[simp] theorem distinct_nil (seen : List String) : distinct seen [] = [] := rfl

theorem distinct_sublist (seen : List String) (cs : List Client) :
    (distinct seen cs).Sublist cs := by
  induction cs generalizing seen with
  | nil => simp
  | cons c rest ih =>
      unfold distinct
      split
      · exact (ih seen).cons_cons c
      · split
        · exact (ih seen).cons c
        · exact (ih _).cons_cons c

end Client

def admittedClients (records : List ClientRecord) (policy : MissingRecordPolicy)
    (entries : List Json) : List Client :=
  let entitled := (entries.filterMap Client.ofRaw?).filter (entitles records policy ·.email)
  (Client.distinct [] entitled).map Client.withPlainFlow

end RelayControl
