import Wiring.Network.Holding

/-!
# Links and interfaces

An interface is reached through the number of its fabric and its own number there. A link belongs
to the interface that created it and carries messages into the inbox of another. Each message
takes one of the link's credits, which comes back when the message has been handled.
-/
namespace Wiring.Network

/-! ## Addresses -/

/-- The interfaces of a fabric keep its number even when nobody else knows the fabric. -/
def fabricNumber (s : Network) (i : Interface) : UInt64 :=
  ((s.fabrics.get? i.fabric).map Fabric.number).getD 0

def deviceAddress (s : Network) (i : Interface) : Bytes := Bytes.word (s.fabricNumber i)

def interfaceAddress (i : Interface) : Bytes := Bytes.word i.number

/-- A device is reachable exactly on the interface's own fabric. -/
def reaches (s : Network) (i : Interface) (device : Bytes) : Bool :=
  device.word? == some (s.fabricNumber i)

/-- The open interface with a number on a fabric. -/
def findInterface? (s : Network) (fabric : FabricId) (number : UInt64) : Option InterfaceId :=
  (s.interfaces.keysWhere fun i => i.fabric == fabric && i.number == number).head?

/-- Whether the settings have a capability; the refusal names the operation that needs it. -/
def require (settings : InterfaceSettings) (needed : Capabilities) (operation : String) :
    Outcome :=
  if settings.capabilities.contains needed then .ok () else .error (.unsupported operation)

/-- A link's own address is that of its interface and its number there. -/
def linkAddress (s : Network) (id : LinkId) : Except Refusal Bytes := do
  let some l := s.links.get? id | throw .closed
  require l.settings .connectToLink "connect_to_ep"
  let some i := s.interfaces.get? l.owner | throw .closed
  return Bytes.word i.number ++ Bytes.word l.number

/-- The interface that a link to the given addresses leads to. -/
def destination (s : Network) (id : LinkId) (device address : Bytes) :
    Except Refusal InterfaceId := do
  let some l := s.links.get? id | throw .closed
  require l.settings .connectToLink "connect_to_ep"
  let some i := s.interfaces.get? l.owner | throw .closed
  if !s.reaches i device then throw .unreachable
  if address.length ≠ 16 then
    throw (.invalidAddress ("endpoint address of " ++ toString address.length ++ " bytes"))
  let some number := address.word? | throw (.invalidAddress "short endpoint address")
  let some dest := s.findInterface? i.fabric number | throw .unreachable
  return dest

/-- Pairs a link with a remote one. A refusal changes nothing. -/
def connectLink (s : Network) (id : LinkId) (device address : Bytes) : Network × Outcome :=
  match s.destination id device address with
  | .error why => (s, .error why)
  | .ok dest =>
    ({ s with links := s.links.modify id fun l => { l with dest := some dest } }, .ok ())

/-! ## Opening -/

/-- A new link of an interface, with all its credits. Nothing holds it yet. -/
def newLink (s : Network) (owner : InterfaceId) (i : Interface) (dest : Option InterfaceId) :
    Network × LinkId :=
  let number := i.linksOpened + 1
  ({ s with
      interfaces := s.interfaces.set owner { i with linksOpened := number }
      links := s.links.push
        { owner, number := UInt64.ofNat number, settings := i.settings,
          credits := i.settings.credits, dest } },
    s.links.next)

/-- A link without a destination, to be paired later. -/
def openLink (s : Network) (owner : InterfaceId) : Network × Except Refusal LinkId :=
  match s.interfaces.get? owner with
  | none => (s, .error .closed)
  | some i =>
    match require i.settings .connectToLink "connect_to_ep" with
    | .error why => (s, .error why)
    | .ok () =>
      let (s, l) := s.newLink owner i none
      (s, .ok l)

/-- The interface that a connected link leads to. -/
def remoteInterface (s : Network) (i : Interface) (device address : Bytes) :
    Except Refusal InterfaceId := do
  require i.settings .connectToInterface "connect_to_iface"
  if !s.reaches i device then throw .unreachable
  let some number := address.word? | throw (.invalidAddress "short interface address")
  let some dest := s.findInterface? i.fabric number | throw .unreachable
  return dest

/-- A link that is connected to a remote interface from the start. -/
def openConnectedLink (s : Network) (owner : InterfaceId) (device address : Bytes) :
    Network × Except Refusal LinkId :=
  match s.interfaces.get? owner with
  | none => (s, .error .closed)
  | some i =>
    match s.remoteInterface i device address with
    | .error why => (s, .error why)
    | .ok dest =>
      let (s, l) := s.newLink owner i (some dest)
      (s, .ok l)

/-- The links of an interface that live, in order of opening. -/
def linksOf (s : Network) (owner : InterfaceId) : List LinkId :=
  s.links.keysWhere fun l => l.owner == owner

/-! ## Sending -/

/-- Puts a message into the destination's inbox for one credit. The destination is looked at
before the credits. -/
def transmit (s : Network) (id : LinkId) (messageId : UInt8) (payload : Bytes)
    (source : Option HandleId) : Network × Outcome :=
  match s.links.get? id with
  | none => (s, .error .closed)
  | some l =>
    match l.dest with
    | none => (s, .error .notConnected)
    | some dest =>
      match s.interfaces.get? dest, l.credits with
      | none, _ => (s, .error .unreachable)
      | some _, 0 => (s, .error .noResource)
      | some i, credits + 1 =>
        let message : Message := ⟨messageId, payload, id⟩
        let s := { s with
          links := s.links.set id { l with credits }
          interfaces := s.interfaces.set dest { i with inbox := i.inbox ++ [message] } }
        (s.note (.accepted id dest messageId payload source), .ok ())

/-- Sends a payload of limited length, if the link can. -/
def sendWithin (s : Network) (id : LinkId) (check : Outcome) (limit : Nat) (messageId : UInt8)
    (payload : Bytes) (source : Option HandleId) : Network × Outcome :=
  match check with
  | .error why => (s, .error why)
  | .ok () =>
    if limit < payload.length then (s, .error (.messageTooLarge payload.length limit))
    else s.transmit id messageId payload source

/-- Sends an active message with a payload packed into the send buffer. -/
def sendBulk (s : Network) (id : LinkId) (messageId : UInt8) (payload : Bytes)
    (source : Option HandleId) : Network × Outcome :=
  match s.links.get? id with
  | none => (s, .error .closed)
  | some l =>
    s.sendWithin id (require l.settings .bulkMessages "am_bcopy") l.settings.maxBulk messageId
      payload source

/-- Sends an active message that is a header word and a payload. -/
def sendShort (s : Network) (id : LinkId) (messageId : UInt8) (header : UInt64)
    (payload : Bytes) : Network × Outcome :=
  match s.links.get? id with
  | none => (s, .error .closed)
  | some l =>
    s.sendWithin id (require l.settings .shortMessages "am_short") l.settings.maxShort messageId
      (Bytes.word header ++ payload) none

/-- A credit comes back to a link that still lives. -/
def returnCredit (s : Network) (id : LinkId) : Network :=
  { s with links := s.links.modify id fun l => { l with credits := l.credits + 1 } }

/-- Whether nothing of the link is in flight or waiting. -/
def linkIsIdle (s : Network) (id : LinkId) : Bool :=
  match s.links.get? id with
  | none => true
  | some l => l.credits == l.settings.credits && l.queue.isEmpty

/-! ## The queue -/

/-- Queues a request; it is handed back when the queue is empty and a credit is free. -/
def enqueue (s : Network) (id : LinkId) (r : Request) : Network × Option Request :=
  match s.links.get? id with
  | none => (s, some r)
  | some l =>
    if l.queue.isEmpty && l.credits != 0 then (s, some r)
    else ({ s with links := s.links.set id { l with queue := l.queue ++ [r] } }, none)

/-- The request at the front of the queue, if there is one and a credit is free. -/
def dequeue (s : Network) (id : LinkId) : Network × Option Request :=
  match s.links.get? id with
  | none => (s, none)
  | some l =>
    match l.credits, l.queue with
    | _ + 1, r :: rest =>
      ({ s with links := s.links.set id { l with queue := rest } }, some r)
    | _, _ => (s, none)

/-- Puts a request back to the front of the queue. -/
def requeue (s : Network) (id : LinkId) (r : Request) : Network :=
  { s with links := s.links.modify id fun l => { l with queue := r :: l.queue } }

/-- Takes every queued request. -/
def drain (s : Network) (id : LinkId) : Network × List Request :=
  match s.links.get? id with
  | none => (s, [])
  | some l => ({ s with links := s.links.set id { l with queue := [] } }, l.queue)

end Wiring.Network
