import Wiring.Network.Stubs

/-!
# Endpoints and workers

A worker keeps its endpoints in a directory under the uuids of their peers. Opening an endpoint
gives it one carrier for each lane of its plan, shared by the aliases of the lane: a stub, if the
lane's resource can pair links, else a link that is connected at once.
-/
namespace Wiring.Network

/-- What serves a category of an endpoint right now. -/
def slot (s : Network) (endpoint : EndpointId) (c : Category) : Slot :=
  (s.endpoints.get? endpoint).bind fun e => e.slots.get c

def setSlots (s : Network) (endpoint : EndpointId) (slots : PerCategory Slot) : Network :=
  { s with endpoints := s.endpoints.modify endpoint fun e => { e with slots } }

/-- Every lane has a link of its own. -/
def isWiredUp (e : Endpoint) : Bool :=
  e.plan.lanes.all fun lane =>
    match e.slots.get lane with
    | some (.link _) => true
    | _ => false

/-- The endpoint of a worker to a peer. -/
def findEndpoint? (s : Network) (worker : WorkerId) (peer : UInt64) : Option EndpointId :=
  (s.workers.get? worker).bind fun w => w.directory.lookup peer

/-- The address that peers of a worker use. -/
def workerAddress (s : Network) (w : Worker) : WorkerAddress where
  uuid := w.uuid
  name := w.settings.name
  entries := w.resources.filterMap fun r =>
    (s.interfaces.get? r.interface).map fun i =>
      { transport := r.name.transport
        device := r.name.device
        deviceAddress := s.deviceAddress i
        interfaceAddress := interfaceAddress i }

/-- Puts an endpoint with empty slots into the directory of a worker. -/
def openEndpoint (s : Network) (worker : WorkerId) (dest : UInt64) (peer : String) :
    Network × EndpointId :=
  let id := s.endpoints.next
  match s.workers.get? worker with
  | none => (s, id)
  | some w =>
    let others := w.directory.filter fun entry => entry.1 != dest
    let s := { s with
      endpoints := s.endpoints.push
        { worker, dest, peer, plan := w.plan, flushAttempts := w.settings.flushAttempts }
      workers := s.workers.set worker { w with directory := others ++ [(dest, id)] } }
    (s.note (.opened id worker), id)

/-! ## Auxiliary links -/

/-- The pairs of a resource and a reachable entry of the same transport, in order. -/
def candidates (s : Network) (w : Worker) (entries : List AddressEntry) : List Candidate :=
  w.resources.zipIdx.flatMap fun (r, n) =>
    match s.interfaces.get? r.interface with
    | none => []
    | some i =>
      entries.zipIdx.filterMap fun (entry, k) =>
        if entry.transport == r.name.transport && s.reaches i entry.deviceAddress then
          some ⟨UInt8.ofNat n, k, r.name, i.settings.attributes⟩
        else none

def select (s : Network) (w : Worker) (peer : String) (entries : List AddressEntry)
    (scorer : Scorer) : Except WireupError Selection :=
  scorer.select peer (s.candidates w entries)

/-- Opens a link to the best entry. -/
def openAuxiliary (s : Network) (w : Worker) (peer : String) (entries : List AddressEntry)
    (scorer : Scorer) : Network × Except WireupError (ResourceIndex × LinkId) :=
  match s.select w peer entries scorer with
  | .error why => (s, .error why)
  | .ok best =>
    match w.resources[best.resource.toNat]?, entries[best.entry]? with
    | some r, some entry =>
      match s.openConnectedLink r.interface entry.deviceAddress entry.interfaceAddress with
      | (s, .ok l) => (s, .ok (best.resource, l))
      | (s, .error why) => (s, .error (.refused why))
    | _, _ => (s, .error (.refused .unreachable))

/-! ## Lanes -/

def newStub (s : Network) (endpoint : EndpointId) (lane : Category) (next : LinkId)
    (auxiliary : Option (ResourceIndex × LinkId)) : Network × StubId :=
  ({ s with
      gates := s.gates.push 0
      stubs := s.stubs.push
        { endpoint, category := lane, auxiliaryResource := auxiliary.map Prod.fst,
          gate := s.gates.next, next := some next, auxiliary := auxiliary.map Prod.snd } },
    s.stubs.next)

/-- A stub for a lane, with its next link on an interface and, for messages, an auxiliary link to
the best entry. If that fails nothing is left open. -/
def openStub (s : Network) (endpoint : EndpointId) (e : Endpoint) (w : Worker) (lane : Category)
    (interface : InterfaceId) (entries : List AddressEntry) :
    Network × Except WireupError StubId :=
  match s.openLink interface with
  | (s, .error why) => (s, .error (.refused why))
  | (s, .ok next) =>
    if lane = .messages then
      match s.openAuxiliary w e.peer entries .auxiliary with
      | (s, .error why) => (s.retireLink next, .error why)
      | (s, .ok auxiliary) =>
        let (s, t) := s.newStub endpoint lane next (some auxiliary)
        (s, .ok t)
    else
      let (s, t) := s.newStub endpoint lane next none
      (s, .ok t)

/-- The carrier of a lane to the peer with the given entries. A resource that cannot pair links
uses the first entry of its transport that it reaches. -/
def openLane (s : Network) (endpoint : EndpointId) (e : Endpoint) (w : Worker) (lane : Category)
    (entries : List AddressEntry) : Network × Except WireupError Carrier :=
  match (e.plan.resource lane).bind fun index => w.resources[index.toNat]? with
  | none => (s, .error (.notConfigured lane))
  | some r =>
    match s.interfaces.get? r.interface with
    | none => (s, .error (.refused .closed))
    | some i =>
      if i.settings.capabilities.contains .connectToLink then
        match s.openStub endpoint e w lane r.interface entries with
        | (s, .ok t) => (s, .ok (.stub t))
        | (s, .error why) => (s, .error why)
      else
        let fits (entry : AddressEntry) :=
          entry.transport == r.name.transport && s.reaches i entry.deviceAddress
        match entries.find? fits with
        | none => (s, .error (.refused .unreachable))
        | some entry =>
          match s.openConnectedLink r.interface entry.deviceAddress entry.interfaceAddress with
          | (s, .ok l) => (s, .ok (.link l))
          | (s, .error why) => (s, .error (.refused why))

/-- Puts a carrier into the slots of a lane and its aliases. -/
def installLane (e : Endpoint) (lane : Category) (c : Carrier) : PerCategory Slot :=
  e.slots.mapWith fun category old => if e.plan.shares lane category then some c else old

/-- Opens the lanes of an endpoint one after another; the first failure ends it. -/
def openLanes (s : Network) (endpoint : EndpointId) (entries : List AddressEntry) :
    List Category → Network × Except WireupError Unit
  | [] => (s, .ok ())
  | lane :: lanes =>
    match s.endpoints.get? endpoint with
    | none => (s, .error (.refused .closed))
    | some e =>
      match s.workers.get? e.worker with
      | none => (s, .error (.refused .closed))
      | some w =>
        match s.openLane endpoint e w lane entries with
        | (s, .error why) => (s, .error why)
        | (s, .ok c) =>
          openLanes (s.setSlots endpoint (installLane e lane c)) endpoint entries lanes

/-! ## Sending -/

/-- A send of an endpoint, with a new handle and its first attempt to make. -/
def newSend (s : Network) (endpoint : EndpointId) (messageId : UInt8) (payload : Bytes) :
    Network × HandleId × Job :=
  let handle := s.handles.next
  let s := { s with handles := s.handles.push none }
  (s.note (.sent handle endpoint messageId payload), handle,
    .attempt (.send { endpoint, messageId, payload, handle }) (.endpoint endpoint))

end Wiring.Network
