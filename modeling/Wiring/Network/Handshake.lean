import Wiring.Codec.Signal
import Wiring.Network.Endpoints

/-!
# The handshake

The initiator opens its lanes and sends a request with its address and the addresses of its stubs.
The receiver opens an endpoint if it has none, connects its stubs to the sender's and replies with
their addresses. The initiator connects its stubs, marks them remote-connected and acknowledges,
which makes the receiver mark its own. Signals for another worker and signals that do not decode
are dropped.
-/
namespace Wiring.Network

/-- The addresses of the stubs of an endpoint, for the peer to connect to. -/
def localLanes (s : Network) (e : Endpoint) : List Category →
    Except WireupError (List LaneAddress)
  | [] => .ok []
  | lane :: lanes => do
    match e.slots.get lane with
    | some (.stub t) =>
      let some w := s.workers.get? e.worker | throw (.refused .closed)
      let some r := (e.plan.resource lane).bind fun index => w.resources[index.toNat]?
        | throw (.notConfigured lane)
      let some i := s.interfaces.get? r.interface | throw (.refused .closed)
      let address ← (s.carrierAddress (.stub t)).mapError .refused
      return ⟨lane, s.deviceAddress i, address⟩ :: (← s.localLanes e lanes)
    | _ => s.localLanes e lanes

/-- The signal of a kind that an endpoint sends. -/
def signal (s : Network) (endpoint : EndpointId) (kind : Signal.Kind) :
    Except WireupError Signal := do
  let some e := s.endpoints.get? endpoint | throw (.refused .closed)
  let some w := s.workers.get? e.worker | throw (.refused .closed)
  let lanes ← if kind = .ack then pure [] else s.localLanes e e.plan.lanes
  return { kind, source := w.uuid, dest := e.dest,
           address := if kind = .request then some (s.workerAddress w) else none, lanes }

/-- A send of a signal, with its first attempt to make. -/
def newSignal (s : Network) (endpoint : EndpointId) (kind : Signal.Kind) :
    Network × Except WireupError (HandleId × Job) :=
  match s.signal endpoint kind with
  | .error why => (s, .error why)
  | .ok m =>
    let (s, sent) := s.newSend endpoint Signal.messageId m.encode
    (s, .ok sent)

/-- Sends a signal; one that cannot be made is not sent. -/
def answer (s : Network) (endpoint : EndpointId) (kind : Signal.Kind) : Network :=
  match s.newSignal endpoint kind with
  | (s, .error _) => s
  | (s, .ok (_, job)) => s.push [job]

/-- Connects the stubs of an endpoint to the lanes of the peer, up to the first refusal. -/
def connectLanes (s : Network) (endpoint : EndpointId) : List LaneAddress → Network × Outcome
  | [] => (s, .ok ())
  | lane :: lanes =>
    match s.slot endpoint lane.lane with
    | some (.stub t) =>
      match s.connect (.stub t) lane.deviceAddress lane.linkAddress with
      | (s, .ok ()) => s.connectLanes endpoint lanes
      | (s, .error why) => (s, .error why)
    | _ => s.connectLanes endpoint lanes

/-- Marks every stub of an endpoint's lanes. -/
def markLanes (s : Network) (endpoint : EndpointId) : Network :=
  match s.endpoints.get? endpoint with
  | none => s
  | some e => e.plan.lanes.foldl (fun s lane => s.markSlot (e.slots.get lane)) s

/-- Connects to the lanes of a request and replies. -/
def replyTo (s : Network) (endpoint : EndpointId) (lanes : List LaneAddress) : Network :=
  match s.connectLanes endpoint lanes with
  | (s, .error _) => s
  | (s, .ok ()) => s.answer endpoint .reply

/-- Handles a request of a peer without an endpoint: one is opened, and destroyed again if its
lanes cannot be opened. -/
def welcome (s : Network) (worker : WorkerId) (m : Signal) (address : WorkerAddress) : Network :=
  let (s, endpoint) := s.openEndpoint worker m.source address.name
  let s := s.push [.release (.endpoint endpoint), .release (.worker worker)]
  let lanes := ((s.workers.get? worker).map fun w => w.plan.lanes).getD []
  match s.openLanes endpoint address.entries lanes with
  | (s, .error _) => s.push [.destroy endpoint]
  | (s, .ok ()) => s.replyTo endpoint m.lanes

/-- Handles a signal that is meant for the worker. -/
def receive (s : Network) (worker : WorkerId) (m : Signal) : Network :=
  match s.findEndpoint? worker m.source with
  | none =>
    match m.kind, m.address with
    | .request, some address => s.welcome worker m address
    | _, _ => s
  | some endpoint =>
    let s := s.push [.release (.endpoint endpoint), .release (.worker worker)]
    match m.kind with
    | .request => s.replyTo endpoint m.lanes
    | .reply =>
      match s.connectLanes endpoint m.lanes with
      | (s, .error _) => s
      | (s, .ok ()) => (s.markLanes endpoint).answer endpoint .ack
    | .ack => s.markLanes endpoint

/-- Handles bytes as a signal to a worker. -/
def handleSignal (s : Network) (worker : WorkerId) (payload : Bytes) : Network :=
  match s.workers.get? worker, Signal.decode payload with
  | some w, .ok m => if m.dest = w.uuid then s.receive worker m else s
  | _, _ => s

end Wiring.Network
