import Wiring.Bytes
import Wiring.Category

/-!
# Addresses

What a peer has to know to reach a worker. The addresses of devices, interfaces and links are
byte strings whose meaning belongs to the transport: the loopback transport writes the numbers of
the fabric, of the interface, and of interface and link as little-endian words.
-/
namespace Wiring

/-- How to reach one resource of a remote worker. -/
structure AddressEntry where
  transport : String
  device : String
  deviceAddress : Bytes
  interfaceAddress : Bytes
  deriving DecidableEq, Repr, Inhabited

/-- Everything a peer needs to start wire-up with a worker. -/
structure WorkerAddress where
  uuid : UInt64
  name : String
  entries : List AddressEntry
  deriving DecidableEq, Repr, Inhabited

/-- The address of the endpoint that serves one lane. -/
structure LaneAddress where
  lane : Category
  deviceAddress : Bytes
  linkAddress : Bytes
  deriving DecidableEq, Repr, Inhabited

/-- A byte address is shown as its kind around its hexadecimal digits. -/
def addressText (kind : String) (address : Bytes) : String := kind ++ "(" ++ address.hex ++ ")"

end Wiring
