import Wiring.Network.Extent
import Wiring.Network.Shown
import Wiring.Network.Work

/-!
# Operations

What an application can do with a network. An operation that sets work off puts it on the agenda
and works until nothing is left; it answers with its result or with the violation that stopped it.
What an operation opens or finds for the application is held by it until the application drops
it.
-/
namespace Wiring.Network

/-- Works off what was put on the agenda and answers with what `result` finds afterwards. -/
def settle {α : Type} (s : Network) (result : Network → α) : Network × Except Violation α :=
  let s := work s.fuel s
  match s.violation with
  | some v => ({ s with violation := none }, .error v)
  | none =>
    if s.agenda.isEmpty then (s, .ok (result s))
    else ({ s with agenda := [] }, .error .endless)

/-- Works off the given jobs. -/
def carryOut {α : Type} (s : Network) (jobs : List Job) (result : Network → α) :
    Network × Except Violation α :=
  settle (push { s with tally := 0 } jobs) result

/-- How a send ended, if it did. -/
def status (s : Network) (handle : HandleId) : Option Outcome := (s.handles.get? handle).join

/-! ## Holds of the application -/

/-- Holds a thing once more, if it lives. -/
def keep (s : Network) (ref : Ref) : Network :=
  if s.isLive ref then { s with holds := ref :: s.holds } else s

/-- Takes back one hold. -/
def drop (s : Network) (ref : Ref) : Network × Except Violation Unit :=
  settle (s.letGo ref) fun _ => ()

/-! ## Fabrics and interfaces -/

def openFabric (s : Network) : Network × FabricId :=
  let id := s.fabrics.next
  ({ s with fabrics := s.fabrics.push { number := UInt64.ofNat (id + 1) } }, id)

def openInterface (s : Network) (fabric : FabricId) (settings : InterfaceSettings) :
    Network × InterfaceId :=
  let id := s.interfaces.next
  let number := ((s.fabrics.get? fabric).map Fabric.opened).getD 0 + 1
  let s := { s with
    fabrics := s.fabrics.modify fabric fun f => { f with opened := number }
    interfaces := s.interfaces.push { fabric, number := UInt64.ofNat number, settings } }
  (s.keep (.interface id), id)

/-- Installs a handler for the messages of an id. -/
def setHandler (s : Network) (interface : InterfaceId) (messageId : UInt8) (h : Handler) :
    Network :=
  { s with interfaces := s.interfaces.modify interface fun i =>
      { i with handlers := (messageId, h) :: i.handlers.filter fun entry => entry.1 != messageId } }

/-- Installs a handler on every resource of a worker. -/
def setWorkerHandler (s : Network) (worker : WorkerId) (messageId : UInt8) (h : Handler) :
    Network :=
  match s.workers.get? worker with
  | none => s
  | some w => w.resources.foldl (fun s r => s.setHandler r.interface messageId h) s

/-- The number of messages delivered and requests finished. -/
def progress (s : Network) (interface : InterfaceId) : Network × Except Violation Nat :=
  s.carryOut [.progressInterface interface] tally

/-! ## Links and carriers -/

/-- The application holds what it has opened. -/
def keepLink (opened : Network × Except Refusal LinkId) : Network × Except Refusal LinkId :=
  match opened with
  | (s, .ok l) => (s.keep (.link l), .ok l)
  | (s, .error why) => (s, .error why)

def createLink (s : Network) (interface : InterfaceId) : Network × Except Refusal LinkId :=
  keepLink (s.openLink interface)

def createConnectedLink (s : Network) (interface : InterfaceId) (device address : Bytes) :
    Network × Except Refusal LinkId :=
  keepLink (s.openConnectedLink interface device address)

/-- A send operation of a carrier. Only active messages with short or packed payloads are carried
by links; the others are known by name. -/
inductive Operation where
  | short (messageId : UInt8) (header : UInt64) (payload : Bytes)
  | bulk (messageId : UInt8) (payload : Bytes)
  | other (name : String)
  deriving DecidableEq, Repr

/-- Performs an operation on a carrier. Packed payloads answer with their length. A stub refuses
everything but signals for lack of resources, after it has tried to switch over. -/
def operate (s : Network) (c : Carrier) (op : Operation) :
    Network × Except Violation (Except Refusal (Option Nat)) :=
  let sized (payload : Bytes) (o : Outcome) : Except Refusal (Option Nat) :=
    o.map fun _ => some payload.length
  match c, op with
  | .link l, .short messageId header payload =>
    let (s, o) := s.sendShort l messageId header payload
    (s, .ok (o.map fun _ => none))
  | .link _, .other name => (s, .ok (.error (.unsupported name)))
  | c, .bulk messageId payload =>
    match s.sendOver c messageId payload none, c with
    | (s, some o), _ => (s, .ok (sized payload o))
    | (s, none), .stub t => s.carryOut [.switchover t] fun _ => .error .noResource
    | (s, none), .link _ => (s, .ok (.error .noResource))
  | .stub t, _ => s.carryOut [.switchover t] fun _ => .error .noResource

/-- Whether nothing of a carrier is in flight; a stub never says so. -/
def isFlushed (s : Network) : Carrier → Bool
  | .link l => s.linkIsIdle l
  | .stub _ => false

/-! ## Requests of the application -/

/-- Where a request of the application comes from. -/
inductive Source where
  | fresh (script : Script)
  | held (id : HeldId)
  deriving DecidableEq, Repr

/-- Takes the request out of its source. -/
def takeRequest (s : Network) : Source → Network × Option Request
  | .fresh c => (s, some (.scripted c))
  | .held id => ({ s with held := s.held.erase id }, s.held.get? id)

/-- Keeps a request for the application. -/
def keepRequest (s : Network) (r : Request) : Network × HeldId :=
  ({ s with held := s.held.push r }, s.held.next)

def hold (s : Network) (source : Source) : Network × Option HeldId :=
  match s.takeRequest source with
  | (s, none) => (s, none)
  | (s, some r) =>
    let (s, id) := s.keepRequest r
    (s, some id)

/-- What became of a request offered to a carrier. -/
inductive Offered where
  | queued
  | back (wireup : Bool) (held : Option HeldId)
  deriving DecidableEq, Repr

/-- Offers a request to a carrier once. What is handed back is kept or let go. -/
def offerOnce (s : Network) (c : Carrier) (source : Source) (keep : Bool) : Network × Offered :=
  match s.takeRequest source with
  | (s, none) => (s, .queued)
  | (s, some r) =>
    match s.offer c r with
    | (s, none) => (s, .queued)
    | (s, some back) =>
      if keep then
        let (s, id) := s.keepRequest back
        (s, .back back.isSignal (some id))
      else (s.discard back, .back back.isSignal none)

/-- Keeps requests one after another. -/
def keepRequests (s : Network) : List Request → Network × List HeldId
  | [] => (s, [])
  | r :: rs =>
    let (s, id) := s.keepRequest r
    let (s, ids) := s.keepRequests rs
    (s, id :: ids)

/-- Takes every request from the queue of a carrier and keeps or cancels it. Answers with their
number and with those kept. -/
def purgeQueue (s : Network) (c : Carrier) (keep : Bool) :
    Network × Except Violation (Nat × List HeldId) :=
  match c with
  | .stub _ => s.carryOut [.purge c] fun _ => (0, [])
  | .link l =>
    let (s, requests) := s.drain l
    if keep then
      let (s, ids) := s.keepRequests requests
      (s, .ok (requests.length, ids))
    else (requests.foldl cancel s, .ok (requests.length, []))

/-- Attempts a request that the application keeps. -/
def attemptHeld (s : Network) (id : HeldId) : Network × Except Violation Outcome :=
  match s.held.get? id with
  | none => (s, .ok (.ok ()))
  | some r =>
    let s := { s with held := s.held.erase id }
    s.carryOut [.attempt r (.application id)] verdict

def cancelHeld (s : Network) (id : HeldId) : Network :=
  match s.held.get? id with
  | none => s
  | some r => cancel { s with held := s.held.erase id } r

def discardHeld (s : Network) (id : HeldId) : Network :=
  match s.held.get? id with
  | none => s
  | some r => discard { s with held := s.held.erase id } r

/-! ## Registries -/

def openRegistry (s : Network) : Network × RegistryId :=
  ({ s with registries := s.registries.push [] }, s.registries.next)

/-- A new callback under a label. -/
def openCallback (s : Network) (label : String) (registry : RegistryId)
    (script : List (List Action)) : Network × CallbackId :=
  let id := s.callbacks.next
  let s := { s with
    callbacks := s.callbacks.push { name := label, registry, script }
    labels := (label, id) :: s.labels.filter fun entry => entry.1 != label }
  (s.keep (.callback id), id)

def dispatchRegistry (s : Network) (id : RegistryId) : Network × Except Violation Nat :=
  s.carryOut [.runRegistry id] tally

/-! ## Workers -/

/-- Resources that a worker can address. -/
def maxResources : Nat := 256

/-- The `n`th uuid that a process generates: the number of the process, then that of the uuid. -/
def generatedUuid (process : UInt32) (n : Nat) : UInt64 :=
  process.toUInt64 <<< 32 ||| UInt64.ofNat n

/-- Whether a uuid was generated. -/
def isGenerated (s : Network) (uuid : UInt64) : Bool :=
  (List.range s.generated).any fun n => generatedUuid s.process n == uuid

/-- A worker over resources, of which it keeps as many as it can address. Its handler for signals
is installed on each of them. -/
def openWorker (s : Network) (settings : WorkerSettings) (plan : Plan)
    (resources : List Resource) : Network × WorkerId :=
  let id := s.workers.next
  let uuid := settings.uuid.getD (generatedUuid s.process s.generated)
  let worker : Worker :=
    { uuid, settings, plan, resources := resources.take maxResources,
      registry := s.registries.next }
  let s := { s with
    generated := if settings.uuid.isNone then s.generated + 1 else s.generated
    registries := s.registries.push []
    workers := s.workers.push worker }
  ((s.setWorkerHandler id Signal.messageId (.signals id)).keep (.worker id), id)

def progressOf (s : Network) (worker : WorkerId) : Network × Except Violation Nat :=
  s.carryOut [.progressWorker worker] tally

/-- Posts an event to a worker; false if the worker is gone. -/
def post (s : Network) (worker : WorkerId) (event : RemoteConnected) : Network × Bool :=
  ({ s with workers := s.workers.modify worker fun w =>
      { w with posted := w.posted ++ [event] } }, s.workers.contains worker)

/-- The endpoint of a worker to an address: the one it has, or a new one that has sent its
request. If that fails the new one is destroyed. -/
def createEndpoint (s : Network) (worker : WorkerId) (address : WorkerAddress) :
    Network × Except Violation (Except WireupError EndpointId) :=
  match s.findEndpoint? worker address.uuid with
  | some e => (s.keep (.endpoint e), .ok (.ok e))
  | none =>
    let (s, e) := s.openEndpoint worker address.uuid address.name
    let failed (s : Network) (why : WireupError) :=
      s.carryOut [.destroy e, .release (.endpoint e)] fun _ => .error why
    let lanes := ((s.workers.get? worker).map fun w => w.plan.lanes).getD []
    match s.openLanes e address.entries lanes with
    | (s, .error why) => failed s why
    | (s, .ok ()) =>
      match s.newSignal e .request with
      | (s, .error why) => failed s why
      | (s, .ok (handle, job)) =>
        match s.carryOut [job, .confirm e handle, .release (.endpoint e)] (status · handle) with
        | (s, .error v) => (s, .error v)
        | (s, .ok (some (.error why))) => (s, .ok (.error (.refused why)))
        | (s, .ok _) => (s.keep (.endpoint e), .ok (.ok e))

/-- The endpoint that a worker has to a peer. -/
def lookUp (s : Network) (worker : WorkerId) (peer : UInt64) : Network × Option EndpointId :=
  match s.findEndpoint? worker peer with
  | some e => (s.keep (.endpoint e), some e)
  | none => (s, none)

/-- Destroys every endpoint of a worker. -/
def close (s : Network) (worker : WorkerId) : Network × Except Violation Unit :=
  let endpoints := ((s.workers.get? worker).map fun w => w.directory.map Prod.snd).getD []
  s.carryOut (endpoints.flatMap fun e => [.destroy e, .release (.endpoint e)]) fun _ => ()

def selectFor (s : Network) (worker : WorkerId) (peer : String) (entries : List AddressEntry)
    (scorer : Scorer) : Except WireupError Selection :=
  match s.workers.get? worker with
  | some w => s.select w peer entries scorer
  | none => .error (.refused .closed)

/-- An auxiliary link that the application holds. -/
def createAuxiliary (s : Network) (worker : WorkerId) (peer : String)
    (entries : List AddressEntry) (scorer : Scorer) :
    Network × Except WireupError (ResourceIndex × LinkId) :=
  match s.workers.get? worker with
  | none => (s, .error (.refused .closed))
  | some w =>
    match s.openAuxiliary w peer entries scorer with
    | (s, .ok (r, l)) => (s.keep (.link l), .ok (r, l))
    | (s, .error why) => (s, .error why)

/-! ## Endpoints and stubs -/

/-- Sends an active message; a send without resources waits on the carrier. -/
def sendMessage (s : Network) (endpoint : EndpointId) (messageId : UInt8) (payload : Bytes) :
    Network × Except Violation HandleId :=
  let (s, handle, job) := s.newSend endpoint messageId payload
  s.carryOut [job] fun _ => handle

/-- Queues a request on a carrier, attempting it as often as it is handed back. -/
def addPending (s : Network) (c : Carrier) (source : Source) : Network × Except Violation Unit :=
  match s.takeRequest source with
  | (s, none) => (s, .ok ())
  | (s, some r) => s.carryOut [.add c r] fun _ => ()

/-- Marks the stub of a slot as connected from the remote side; the slot has to hold one. -/
def remoteConnected (s : Network) : Slot → Network × Except Violation Unit
  | some (.stub t) => (s.markRemoteConnected t, .ok ())
  | other => (s, .error (.notAStub (s.slotShown other)))

/-- The resource of the auxiliary link of the stub in a slot; a stub has to have one. -/
def auxiliaryIndex (s : Network) : Slot → Except Violation (Option ResourceIndex)
  | some (.stub id) =>
    match s.stubs.get? id with
    | some t =>
      if t.auxiliary.isSome then .ok t.auxiliaryResource else .error (.noAuxiliary t.category)
    | none => .ok none
  | _ => .ok none

/-- Tries to switch every stub of an endpoint over, and answers with the number that did. -/
def progressEndpoint (s : Network) (endpoint : EndpointId) : Network × Except Violation Nat :=
  match s.endpoints.get? endpoint with
  | none => (s, .ok 0)
  | some e =>
    let stubs := (e.slots.toList.filterMap fun
      | some (.stub t) => some t
      | _ => none).eraseDups
    s.carryOut (stubs.flatMap (fun t => [.switchover t])
      ++ stubs.map fun t => .release (.stub t)) tally

def destroyEndpoint (s : Network) (endpoint : EndpointId) : Network × Except Violation Unit :=
  s.carryOut [.destroy endpoint] fun _ => ()

/-- Tries to switch a stub over. -/
def progressStub (s : Network) (stub : StubId) : Network × Except Violation Bool :=
  s.carryOut [.switchover stub] fun s => s.tally != 0

end Wiring.Network
