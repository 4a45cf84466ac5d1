import Wiring.Address

/-!
# Signals

The control messages of wire-up, sent as active messages with the id 0. A request carries the
sender's address and the addresses of its lanes; a reply carries the lanes of the answering side;
an acknowledgement carries neither.
-/
namespace Wiring

inductive Signal.Kind where
  | request
  | reply
  | ack
  deriving DecidableEq, Repr, Inhabited

structure Signal where
  kind : Signal.Kind
  source : UInt64
  dest : UInt64
  address : Option WorkerAddress := none
  lanes : List LaneAddress := []
  deriving DecidableEq, Repr, Inhabited

/-- The active-message id of signals. -/
def Signal.messageId : UInt8 := 0

end Wiring
