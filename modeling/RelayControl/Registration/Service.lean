import RelayControl.Registration.Exchange
import RelayControl.Store

/-!
Registration calls carried out on the stored texts: the credential is read, the endpoint is asked,
and what it answered is stored.
-/

namespace RelayControl

/-- The other side of a call: the reply to each attempt, and the jitter drawn before each retry. -/
structure Endpoint where
  reply : Nat → Http.Reply
  draw : Nat → Nat := fun _ => 0

structure StoreAccess where
  reading : Option StoreFault := none
  writing : String → Option StoreFault := fun _ => none

def StoreAccess.stored (access : StoreAccess) (texts : List (String × String)) :
    Except StoreFault (Option String) :=
  match access.reading with
  | some f => .error f
  | none => .ok (texts.lookup StoreKey.credential)

/-- The accesses that fail for either of two reasons; where both hold, the first one is told. -/
def StoreAccess.or (first second : StoreAccess) : StoreAccess where
  reading := first.reading <|> second.reading
  writing key := first.writing key <|> second.writing key

structure RegistrationDone where
  result : Except Fault RegistrationOutcome
  requests : List RegistrationRequest
  texts : List (String × String)

def writeAll (access : StoreAccess) (texts : List (String × String)) :
    List (String × String) → Except Fault Unit × List (String × String)
  | [] => (.ok (), texts)
  | (key, value) :: rest =>
      match access.writing key with
      | some f => (.error (.store f), texts)
      | none => writeAll access (Store.putText key value texts) rest

namespace RegistrationCall

def perform (r : Registrar) (now : String) (e : Endpoint) (access : StoreAccess)
    (texts : List (String × String)) (call : RegistrationCall) : RegistrationDone :=
  match call.prepare (access.stored texts) with
  | .error f => ⟨.error f, [], texts⟩
  | .ok credential =>
      let request := call.request r now credential
      let sent := r.policy.call (fun n => request.attempt (e.reply n)) e.draw
      let received := (List.range sent.attempts).filterMap fun n =>
        if request.received (e.reply n) then some request else none
      match sent.result >>= fun content => call.conclude credential content with
      | .error f => ⟨.error f, received, texts⟩
      | .ok outcome =>
          let (written, texts) := writeAll access texts outcome.writes
          ⟨written.map fun _ => outcome, received, texts⟩

end RegistrationCall

namespace Store

def access (s : Store) : StoreAccess :=
  let fault (activities : List String) : Option StoreFault :=
    if s.unavailable.contains .settings then some ⟨activities, .unavailable⟩ else none
  { reading := fault ["Failed to read setting '" ++ StoreKey.credential ++ "'"]
    writing := fun key =>
      fault (["Failed to write setting '" ++ key ++ "'"] ++
        if key = StoreKey.remoteConfig then ["Failed to cache remote registration config"]
        else []) }

end Store

end RelayControl
