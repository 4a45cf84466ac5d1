import Wiring.Network.Endpoints
import Wiring.Text.Literal

/-!
# Shown things

How the things of a network are shown: by the name of their kind and the fields that tell them
apart. What is gone is shown by the name of its kind alone.
-/
namespace Wiring

open Text

inductive StubState where
  | initial
  | localConnected
  | remoteConnected
  | connected
  deriving DecidableEq, Repr

def StubState.name : StubState → String
  | .initial => "Init"
  | .localConnected => "LocalConnected"
  | .remoteConnected => "RemoteConnected"
  | .connected => "Connected"

/-- The two sides connect independently. -/
def Stub.state (t : Stub) : StubState :=
  match t.localConnected, t.remoteConnected with
  | true, true => .connected
  | true, false => .localConnected
  | false, true => .remoteConnected
  | false, false => .initial

def Capabilities.shown (a : Capabilities) : String :=
  shownCase "CapFlags" (if a.isEmpty then "0x0" else a.text)

def ResourceIndex.shown (i : ResourceIndex) : String :=
  shownCase "ResourceIndex" (toString i.toNat)

namespace Network

def linkShown (s : Network) (id : LinkId) : String :=
  match s.links.get? id with
  | none => "LoopbackEp"
  | some l =>
    shownRecord "LoopbackEp"
      [ ("id", toString l.number.toNat), ("credits", toString l.credits),
        ("pending", toString l.queue.length) ]

def stubShown (s : Network) (id : StubId) : String :=
  match s.stubs.get? id with
  | none => "StubEp"
  | some t =>
    shownRecord "StubEp"
      [ ("op", t.category.code), ("state", t.state.name),
        ("pending_count", toString (s.gate t.gate)),
        ("aux_rsc_index", shownOption (t.auxiliaryResource.map ResourceIndex.shown)),
        ("parked", toString t.parked.length) ]

def slotShown (s : Network) : Slot → String
  | none => "Empty"
  | some (.link id) => shownCase "Transport" (s.linkShown id)
  | some (.stub id) => shownCase "Stub" (s.stubShown id)

def endpointShown (s : Network) (id : EndpointId) : String :=
  match s.endpoints.get? id with
  | none => "Endpoint"
  | some e =>
    shownRecord "Endpoint"
      [ ("peer", literal e.peer), ("dest_uuid", hexWord e.dest),
        ("uct_eps", shownList (e.slots.toList.map s.slotShown)) ]

def resourceShown (s : Network) (r : Resource) : String :=
  let name := shownRecord "TlResource"
    [("tl_name", literal r.name.transport), ("dev_name", literal r.name.device)]
  let capabilities :=
    ((s.interfaces.get? r.interface).map fun i => i.settings.capabilities).getD ⟨0⟩
  shownRecord "Resource" [("desc", name), ("flags", capabilities.shown)]

def workerShown (s : Network) (id : WorkerId) : String :=
  match s.workers.get? id with
  | none => "Worker"
  | some w =>
    shownRecord "Worker"
      [ ("name", literal w.settings.name), ("uuid", hexWord w.uuid),
        ("resources", shownList (w.resources.map s.resourceShown)),
        ("endpoints", toString w.directory.length),
        ("stub_pend_count", toString w.parkedCount) ]

def requestShown (s : Network) : Request → String
  | .scripted c => shownCase "Req" c.name
  | .send m =>
    shownRecord "AmSendRequest"
      [("id", toString m.messageId.toNat), ("len", toString m.payload.length)]
  | .counted g inner =>
    shownRecord "WireupMsgProxy"
      [ ("req", shownOption (some (s.requestShown inner))),
        ("pending_count", toString (s.gate g)) ]
  | .spent g =>
    shownRecord "WireupMsgProxy"
      [("req", shownOption none), ("pending_count", toString (s.gate g))]

end Network

end Wiring
