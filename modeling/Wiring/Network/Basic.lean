import Wiring.Address
import Wiring.Failure
import Wiring.Plan
import Wiring.Selection
import Wiring.Settings.Basic
import Wiring.Signal
import Wiring.Table

/-!
# The things of a network

A network holds fabrics and what is opened on them: interfaces, the links that carry messages from
one interface to another, stubs that stand in for links while they are wired up, endpoints that
give each category of traffic its carrier, and workers that own resources and endpoints. Things
refer to each other by number. A thing that is gone is no longer in its table, so a number whose
thing is gone means nothing.

Requests and handlers are data: what they will do is written down in them.
-/
namespace Wiring

abbrev FabricId := Nat
abbrev InterfaceId := Nat
abbrev LinkId := Nat
abbrev StubId := Nat
abbrev EndpointId := Nat
abbrev WorkerId := Nat
abbrev RegistryId := Nat
abbrev CallbackId := Nat
abbrev GateId := Nat
abbrev HandleId := Nat
abbrev HeldId := Nat

/-- What can carry the traffic of a category: a link, or the stub that stands in for it. -/
inductive Carrier where
  | link (id : LinkId)
  | stub (id : StubId)
  deriving DecidableEq, Repr, Inhabited

/-- The carrier of a category, if the category is served. -/
abbrev Slot := Option Carrier

/-- Something that lives as long as it is held. -/
inductive Ref where
  | interface (id : InterfaceId)
  | link (id : LinkId)
  | stub (id : StubId)
  | endpoint (id : EndpointId)
  | worker (id : WorkerId)
  | callback (id : CallbackId)
  deriving DecidableEq, Repr, Inhabited

def Carrier.ref : Carrier → Ref
  | .link id => .link id
  | .stub id => .stub id

/-! ## Requests -/

/-- A send to try once the answers of a script are used up. -/
structure ScriptedSend where
  carrier : Carrier
  messageId : UInt8
  payload : Bytes
  deriving DecidableEq, Repr

/-- A request of the application that answers its attempts from a script: each answer the given
number of times, and then by its send, or with success. -/
structure Script where
  name : String
  answers : List (Nat × Outcome) := []
  wireup : Bool := false
  sending : Option ScriptedSend := none
  finished : Bool := false
  deriving DecidableEq, Repr

/-- An active message that an endpoint sends over whatever carries its messages. -/
structure Send where
  endpoint : EndpointId
  messageId : UInt8
  payload : Bytes
  handle : HandleId
  deriving DecidableEq, Repr

/-- A deferred operation. A signal that waits on a link is counted by the gate of its stub until it
is finished; after that only the empty cover is left. -/
inductive Request where
  | scripted (script : Script)
  | send (send : Send)
  | counted (gate : GateId) (inner : Request)
  | spent (gate : GateId)
  deriving DecidableEq, Repr

namespace Request

/-- Whether the request is control traffic of wire-up. -/
def isSignal : Request → Bool
  | .scripted s => s.wireup
  | .send s => s.messageId == Signal.messageId
  | .counted _ _ => true
  | .spent _ => true

/-- The gates that count the request. -/
def gates : Request → List GateId
  | .counted gate inner => gate :: inner.gates
  | _ => []

end Request

/-! ## Messages and handlers -/

/-- A message on its way; the credit it took goes back to its sender. -/
structure Message where
  id : UInt8
  payload : Bytes
  sender : LinkId
  deriving DecidableEq, Repr

/-- What receives the messages of one id. -/
inductive Handler where
  /-- Logs the payload, as bytes or as the signal it is, and may send it on. -/
  | record (log : String) (forward : Option Carrier) (decode : Bool)
  /-- Handles the signals of a worker. -/
  | signals (worker : WorkerId)
  deriving DecidableEq, Repr

/-! ## Things -/

structure Fabric where
  number : UInt64
  opened : Nat := 0
  deriving DecidableEq, Repr

structure Interface where
  fabric : FabricId
  number : UInt64
  settings : InterfaceSettings
  inbox : List Message := []
  handlers : List (UInt8 × Handler) := []
  linksOpened : Nat := 0

structure Link where
  owner : InterfaceId
  number : UInt64
  settings : InterfaceSettings
  credits : Nat
  dest : Option InterfaceId := none
  queue : List Request := []

structure Stub where
  endpoint : EndpointId
  category : Category
  auxiliaryResource : Option ResourceIndex
  gate : GateId
  /-- The link being wired up; the switchover takes it. -/
  next : Option LinkId
  /-- The link that carries signals until then. -/
  auxiliary : Option LinkId
  localConnected : Bool := false
  remoteConnected : Bool := false
  parked : List Request := []
  /-- The link that the switchover installed. -/
  promoted : Option LinkId := none
  deriving Repr

/-- Both sides have connected. -/
def Stub.isConnected (s : Stub) : Bool := s.localConnected && s.remoteConnected

/-- The link that carries signals right now. -/
def Stub.signalLink (s : Stub) : Option LinkId := if s.isConnected then s.next else s.auxiliary

structure Endpoint where
  worker : WorkerId
  dest : UInt64
  peer : String
  plan : Plan
  flushAttempts : Nat
  slots : PerCategory Slot := .const none
  deriving Repr

structure Resource where
  name : ResourceName
  interface : InterfaceId
  deriving DecidableEq, Repr

/-- A peer is reported to have connected to the endpoint for a category. -/
structure RemoteConnected where
  peer : UInt64
  category : Category
  deriving DecidableEq, Repr

structure Worker where
  uuid : UInt64
  settings : WorkerSettings
  plan : Plan
  resources : List Resource
  registry : RegistryId
  posted : List RemoteConnected := []
  parkedCount : Nat := 0
  directory : List (UInt64 × EndpointId) := []
  deriving Repr

/-- Something that a registry runs. -/
inductive Runner where
  | stub (id : StubId)
  | callback (id : CallbackId)
  deriving DecidableEq, Repr

def Runner.ref : Runner → Ref
  | .stub id => .stub id
  | .callback id => .callback id

/-- The registrations of runners, in the order of each one's first. -/
abbrev Registry := List (Runner × Nat)

/-- What a callback of the application does to its registry when it runs; callbacks are named by
their labels. -/
inductive Action where
  | register (label : String)
  | unregister (label : String)
  | drop (label : String)
  deriving DecidableEq, Repr

/-- A callback of the application. Each run takes the next list of actions. -/
structure Callback where
  name : String
  registry : RegistryId
  script : List (List Action)
  deriving Repr

/-! ## What is seen -/

/-- The content of a delivered message as its recorder reads it. -/
inductive Content where
  | bytes (payload : Bytes)
  | signal (decoded : Except MalformedBytes Signal)

/-- What happens in a network, in the order of happening. -/
inductive Happening where
  /-- A worker opened an endpoint. -/
  | opened (endpoint : EndpointId) (worker : WorkerId)
  /-- An endpoint made a send. -/
  | sent (handle : HandleId) (endpoint : EndpointId) (messageId : UInt8) (payload : Bytes)
  /-- A stub was connected to a remote link. -/
  | connected (stub : StubId)
  /-- A stub was marked as connected from the remote side. -/
  | marked (stub : StubId)
  /-- A request was parked on a stub. -/
  | parked (stub : StubId) (request : Request)
  /-- A stub was switched over to its link. -/
  | switched (stub : StubId) (link : LinkId)
  /-- A link put a message into an inbox; `source` is the handle of the send, if it was one. -/
  | accepted (link : LinkId) (dest : InterfaceId) (messageId : UInt8) (payload : Bytes)
      (source : Option HandleId)
  /-- A message was taken out of an inbox for its handler. -/
  | delivered (dest : InterfaceId) (message : Message)
  /-- A message went down with the interface that had not delivered it. -/
  | lost (dest : InterfaceId) (message : Message)
  | recorded (log : String) (messageId : UInt8) (content : Content)
  | forwarded (log : String) (outcome : Outcome)
  | attempted (request : String) (outcome : Outcome)
  | cancelled (request : String)
  | dropped (request : String)
  | called (callback : String)

/-! ## Work to do -/

/-- Who waits for the outcome of an attempt. -/
inductive Waiter where
  /-- The queue of a link, from whose front the request was taken. -/
  | queue (link : LinkId)
  /-- Somebody who adds the request to a carrier and was given it back. -/
  | retry (carrier : Carrier)
  /-- An endpoint that has just made the request. -/
  | endpoint (id : EndpointId)
  /-- The application, which keeps the request. -/
  | application (held : HeldId)
  deriving DecidableEq, Repr

/-- One piece of work. A `release` in the agenda is the hold that somebody at work has on a thing
until the work before it is done. -/
inductive Job where
  | release (ref : Ref)
  | discard (request : Request)
  | attempt (request : Request) (waiter : Waiter)
  | conclude (request : Request) (outcome : Outcome) (waiter : Waiter)
  | add (carrier : Carrier) (request : Request)
  | replayed (worker : WorkerId)
  | switchover (stub : StubId)
  | run (runner : Runner)
  | runRegistry (registry : RegistryId)
  | deliver (interface : InterfaceId) (left : Nat)
  | giveBack (link : LinkId)
  | dispatchLinks (interface : InterfaceId)
  | dispatch (link : LinkId)
  | progressInterface (interface : InterfaceId)
  | progressWorker (worker : WorkerId)
  | handle (handler : Handler) (message : Message)
  | noteForward (log : String) (outcome : Outcome)
  | recount (tally : Nat)
  | destroy (endpoint : EndpointId)
  | purge (carrier : Carrier)
  | flush (link : LinkId) (worker : Option WorkerId) (rounds : Nat)
  | confirm (endpoint : EndpointId) (handle : HandleId)
  deriving Repr

/-- What the agenda holds on to. -/
def Job.hold? : Job → Option Ref
  | .release ref => some ref
  | _ => none

/-- The request that a job has in hand. -/
def Job.request? : Job → Option Request
  | .discard r | .attempt r _ | .conclude r _ _ | .add _ r => some r
  | _ => none

/-- The whole state. Between operations the agenda is empty. -/
structure Network where
  fabrics : Table Fabric := {}
  interfaces : Table Interface := {}
  links : Table Link := {}
  stubs : Table Stub := {}
  endpoints : Table Endpoint := {}
  workers : Table Worker := {}
  registries : Table Registry := {}
  callbacks : Table Callback := {}
  /-- Unfinished signals of each stub. -/
  gates : Table Nat := {}
  /-- How each send ended, if it did. -/
  handles : Table (Option Outcome) := {}
  /-- Requests that the application keeps. -/
  held : Table Request := {}
  /-- The callback that each label was last bound to. -/
  labels : List (String × CallbackId) := []
  /-- What the application holds, as often as it does. -/
  holds : List Ref := []
  /-- The number of the process that the network lives in; generated uuids begin with it. -/
  process : UInt32 := 1
  /-- Uuids generated so far. -/
  generated : Nat := 0
  trace : Array Happening := #[]
  agenda : List Job := []
  /-- Events counted by the work under way. -/
  tally : Nat := 0
  /-- How the application's own last attempt ended. -/
  verdict : Outcome := .ok ()
  violation : Option Violation := none

instance : Inhabited Network := ⟨{}⟩

end Wiring
