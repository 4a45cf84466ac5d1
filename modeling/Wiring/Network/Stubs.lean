import Wiring.Network.Links
import Wiring.Network.Registries

/-!
# Stubs

A stub parks the requests of its category while its link is wired up. Signals do not wait: they go
over the auxiliary link, and over the next link once both sides have connected. The switchover
waits for both sides and for the gate, which counts the signals that are not finished; it takes
the next link out of the stub, puts it into the slots that hold the stub, and replays what was
parked through it in order.
-/
namespace Wiring.Network

def gate (s : Network) (id : GateId) : Nat := (s.gates.get? id).getD 0

/-- The worker of an endpoint, if both live. -/
def workerOf? (s : Network) (endpoint : EndpointId) : Option WorkerId :=
  match s.endpoints.get? endpoint with
  | none => none
  | some e => if s.workers.contains e.worker then some e.worker else none

def markRemoteConnected (s : Network) (id : StubId) : Network :=
  note { s with stubs := s.stubs.modify id fun t => { t with remoteConnected := true } }
    (.marked id)

/-- The address that a peer connects a carrier to. -/
def carrierAddress (s : Network) : Carrier → Except Refusal Bytes
  | .link id => s.linkAddress id
  | .stub id =>
    match (s.stubs.get? id).bind Stub.next with
    | some next => s.linkAddress next
    | none => .error .closed

/-- Pairs a carrier with a remote link; a stub pairs its next link and is then locally
connected. -/
def connect (s : Network) (c : Carrier) (device address : Bytes) : Network × Outcome :=
  match c with
  | .link id => s.connectLink id device address
  | .stub id =>
    match (s.stubs.get? id).bind Stub.next with
    | none => (s, .error .closed)
    | some next =>
      match s.connectLink next device address with
      | (s, .ok ()) =>
        let s := { s with stubs := s.stubs.modify id fun t => { t with localConnected := true } }
        (s.note (.connected id), .ok ())
      | (s, .error why) => (s, .error why)

/-- Sends a packed payload over a carrier. None means that a stub holds it off: it may try to
switch over, and the sender has to come back. -/
def sendOver (s : Network) (c : Carrier) (messageId : UInt8) (payload : Bytes)
    (source : Option HandleId) : Network × Option Outcome :=
  match c with
  | .link id =>
    let (s, o) := s.sendBulk id messageId payload source
    (s, some o)
  | .stub id =>
    if messageId ≠ Signal.messageId then (s, none)
    else match (s.stubs.get? id).bind Stub.signalLink with
      | none => (s, some (.error .notConnected))
      | some l =>
        let (s, o) := s.sendBulk l messageId payload source
        (s, some o)

/-- Parks a request: it is counted by the worker, and the stub registered, once for each. -/
def park (s : Network) (id : StubId) (t : Stub) (worker : WorkerId) (r : Request) : Network :=
  let s := { s with
    stubs := s.stubs.set id { t with parked := t.parked ++ [r] }
    workers := s.workers.modify worker fun w => { w with parkedCount := w.parkedCount + 1 } }
  let s := s.note (.parked id r)
  match s.workers.get? worker with
  | some w => (s.register w.registry (.stub id)).1
  | none => s

/-- Gives a request to a carrier, which queues it or hands it back. A stub gives signals to the
link that carries them, counted by its gate, and parks the rest; once it has switched over, the
promoted link queues what it is given. -/
def offer (s : Network) (c : Carrier) (r : Request) : Network × Option Request :=
  match c with
  | .link id => s.enqueue id r
  | .stub id =>
    match s.stubs.get? id with
    | none => (s, some r)
    | some t =>
      if r.isSignal then
        match t.signalLink with
        | none => (s, some r)
        | some l => (s.enterGate t.gate).enqueue l (.counted t.gate r)
      else
        match s.workerOf? t.endpoint, t.next, t.promoted with
        | none, _, _ => (s, some r)
        | some worker, some _, _ => (s.park id t worker r, none)
        | some _, none, some l => s.enqueue l r
        | some _, none, none => (s, some r)

/-- Marks the stub in a slot, if it holds one. -/
def markSlot (s : Network) : Slot → Network
  | some (.stub t) => s.markRemoteConnected t
  | _ => s

/-- Applies an event. One for an unknown peer or a category without a stub does nothing. -/
def applyEvent (directory : List (UInt64 × EndpointId)) (s : Network) (event : RemoteConnected) :
    Network :=
  match (directory.lookup event.peer).bind s.endpoints.get? with
  | some e => s.markSlot (e.slots.get event.category)
  | none => s

/-- Applies the posted events of a worker, in the order of posting. -/
def applyPosted (s : Network) (id : WorkerId) : Network × Nat :=
  match s.workers.get? id with
  | none => (s, 0)
  | some w =>
    let s := { s with workers := s.workers.set id { w with posted := [] } }
    (w.posted.foldl (applyEvent w.directory) s, w.posted.length)

/-- Puts the promoted link into every slot of the category that holds the stub. -/
def promoteSlots (e : Endpoint) (stub : StubId) (category : Category) (l : LinkId) : Endpoint :=
  { e with slots := e.slots.mapWith fun c slot =>
      if e.plan.shares category c ∧ slot = some (.stub stub) then some (.link l) else slot }

/-- Exchanges a stub for its next link and leaves the replay of what it had parked to do. -/
def switch (s : Network) (id : StubId) (t : Stub) (worker : WorkerId) (next : LinkId) : Network :=
  let s := { s with
    stubs := s.stubs.set id
      { t with next := none, auxiliary := none, parked := [], promoted := some next }
    tally := s.tally + 1 }
  let s := s.note (.switched id next)
  let registry := ((s.workers.get? worker).map Worker.registry).getD 0
  let s := t.parked.foldl (fun s _ => (s.unregister registry (.stub id)).1) s
  let s := { s with
    endpoints := s.endpoints.modify t.endpoint fun e => promoteSlots e id t.category next }
  s.push (releaseLink? t.auxiliary
    ++ t.parked.flatMap (fun r => [.add (.link next) r, .replayed worker])
    ++ [.release (.link next), .release (.worker worker), .release (.endpoint t.endpoint)])

/-- Whether a stub waits for nothing but its switchover. -/
def isSwitchable (s : Network) (t : Stub) : Bool := t.isConnected && s.gate t.gate == 0

/-- Switches a stub over if it can be, after the posted events of its worker were applied. -/
def switchover (s : Network) (id : StubId) : Network :=
  match (s.stubs.get? id).bind fun t => s.workerOf? t.endpoint with
  | none => s
  | some worker =>
    let s := (s.applyPosted worker).1
    match s.stubs.get? id with
    | none => s
    | some t =>
      match t.next with
      | some next => if s.isSwitchable t then s.switch id t worker next else s
      | none => s

end Wiring.Network
