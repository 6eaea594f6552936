import RelayControl.Store

/-!
The transaction in which traffic is stored. Its statements work on a draft of the store, which takes
the place of the store when it is committed; whatever goes wrong before, the draft is given up.
-/

namespace RelayControl

inductive Statement where
  | inbound (t : TagTraffic)
  | outbound (t : TagTraffic)
  | client (t : ClientTraffic)
  deriving DecidableEq, Repr

namespace Statement

def ofTag? (t : TagTraffic) : Option Statement :=
  if t.inbound then some (.inbound t) else if t.outbound then some (.outbound t) else none

def ofTraffic (tags : List TagTraffic) (clients : List ClientTraffic) : List Statement :=
  tags.filterMap ofTag? ++ clients.map .client

def table : Statement → Table
  | .inbound _ => .inbounds
  | .outbound _ => .outbounds
  | .client _ => .clients

def effect (s : Store) : Statement → Store
  | .inbound t => { s with inbounds := Store.countInbound t s.inbounds }
  | .outbound t => { s with outbounds := Store.countOutbound t s.outbounds }
  | .client t => { s with clients := Store.countClient t s.clients }

def run (s : Store) (statement : Statement) : Except StoreFault Store := do
  s.reach statement.table
  pure (statement.effect s)

end Statement

/-- What goes wrong with a transaction besides what its statements come upon in the store. -/
structure Incidents where
  opening : Option StoreFault := none
  /-- By the number of the statement. -/
  statement : Nat → Option StoreFault := fun _ => none
  commit : Option StoreFault := none

structure Connection where
  stored : Store
  /-- What the open transaction, if there is one, has made of the store. -/
  draft? : Option Store := none
  deriving DecidableEq

namespace Connection

def begin (c : Connection) (incident : Option StoreFault) : Except StoreFault Connection :=
  match incident with
  | some f => .error f
  | none => .ok { c with draft? := some c.stored }

/-- A statement works on the draft, or at once on the store where no transaction is open. -/
def execute (c : Connection) (incident : Option StoreFault) (statement : Statement) :
    Except StoreFault Connection :=
  match incident, c.draft? with
  | some f, _ => .error f
  | none, some draft => (statement.run draft).map fun draft => { c with draft? := some draft }
  | none, none => (statement.run c.stored).map fun stored => { c with stored }

/-- Statements in their order, up to the first that fails; that one changes nothing. -/
def proceed (incident : Nat → Option StoreFault) (c : Connection) :
    List Statement → Except StoreFault Unit × Connection
  | [] => (.ok (), c)
  | statement :: rest =>
      match c.execute (incident 0) statement with
      | .error f => (.error f, c)
      | .ok c => proceed (fun n => incident (n + 1)) c rest

def commit (c : Connection) (incident : Option StoreFault) : Except StoreFault Connection :=
  match incident with
  | some f => .error (f.during "Failed to persist traffic")
  | none => .ok { stored := c.draft?.getD c.stored }

def rollback (c : Connection) : Connection := { c with draft? := none }

def addTraffic (c : Connection) (i : Incidents) (tags : List TagTraffic)
    (clients : List ClientTraffic) : Except StoreFault Unit × Connection :=
  if tags.isEmpty && clients.isEmpty then (.ok (), c)
  else
    match c.begin i.opening with
    | .error f => (.error f, c)
    | .ok opened =>
        match opened.proceed i.statement (Statement.ofTraffic tags clients) with
        | (.error f, failed) => (.error f, failed.rollback)
        | (.ok (), done) =>
            match done.commit i.commit with
            | .error f => (.error f, done.rollback)
            | .ok committed => (.ok (), committed)

end Connection

end RelayControl
