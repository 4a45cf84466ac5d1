import Wiring.Codec.Basic
import Wiring.Signal
import Wiring.Plan

/-!
# Written form of addresses and signals

Fields are written in a fixed order: of an address its uuid, its name and its entries; of a signal
its kind, the uuids of sender and receiver, the optional address and the lanes.
-/
namespace Wiring

open Codec

namespace AddressEntry

def encode (e : AddressEntry) : Bytes :=
  putText e.transport ++ putText e.device ++ putBytes e.deviceAddress
    ++ putBytes e.interfaceAddress

def decoder : Decoder AddressEntry := do
  return ⟨← getText, ← getText, ← getBytes, ← getBytes⟩

end AddressEntry

namespace WorkerAddress

def encode (a : WorkerAddress) : Bytes :=
  putWord a.uuid ++ putText a.name ++ putList AddressEntry.encode a.entries

def decoder : Decoder WorkerAddress := do
  return ⟨← getWord, ← getText, ← getList AddressEntry.decoder⟩

/-- The address written at the front of the bytes. -/
def decode (bs : Bytes) : Except MalformedBytes WorkerAddress := (decoder bs).map Prod.fst

end WorkerAddress

namespace Category

def encode (c : Category) : Bytes := putVariant c.index

def decoder : Decoder Category := getVariant all

end Category

namespace LaneAddress

def encode (l : LaneAddress) : Bytes :=
  l.lane.encode ++ putBytes l.deviceAddress ++ putBytes l.linkAddress

def decoder : Decoder LaneAddress := do
  return ⟨← Category.decoder, ← getBytes, ← getBytes⟩

end LaneAddress

namespace Signal

/-- Every kind, in the order of their numbers. -/
def Kind.all : List Kind := [.request, .reply, .ack]

def Kind.number : Kind → Nat
  | .request => 0
  | .reply => 1
  | .ack => 2

def encode (m : Signal) : Bytes :=
  putVariant m.kind.number ++ putWord m.source ++ putWord m.dest
    ++ putOption WorkerAddress.encode m.address ++ putList LaneAddress.encode m.lanes

def decoder : Decoder Signal := do
  return ⟨← getVariant Kind.all, ← getWord, ← getWord, ← getOption WorkerAddress.decoder,
    ← getList LaneAddress.decoder⟩

/-- The signal written at the front of the bytes. -/
def decode (bs : Bytes) : Except MalformedBytes Signal := (decoder bs).map Prod.fst

end Signal

/-- A plan is written as its three resources and its three aliases, without lengths. -/
def Plan.encode (p : Plan) : Bytes :=
  p.resources.toList.flatMap (putOption putByte)
    ++ p.aliases.toList.flatMap (putOption Category.encode)

end Wiring
