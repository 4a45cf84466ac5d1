import Wiring.Capability

/-!
# Settings

The tunables of an interface and of a worker, with their defaults, and the attributes that an
interface advertises because of its settings.
-/
namespace Wiring

structure InterfaceSettings where
  capabilities : Capabilities := .loopback
  /-- In seconds. -/
  latency : Float := 5e-7
  /-- In bytes per second. -/
  bandwidth : Float := 6911.0 * 1024.0 * 1024.0
  maxShort : Nat := 256
  maxBulk : Nat := 8192
  /-- Messages that a link may have in flight before it runs out of resources. -/
  credits : Nat := 64
  deriving BEq, Repr, Inhabited

/-- Size limits of one family of operations. -/
structure Limits where
  short : Nat := 0
  bulk : Nat := 0
  zeroCopy : Nat := 0
  deriving DecidableEq, Repr, Inhabited

/-- What an interface tells about itself. -/
structure Attributes where
  capabilities : Capabilities
  messages : Limits
  put : Limits
  get : Limits
  latency : Float
  bandwidth : Float
  overhead : Float
  deriving BEq, Repr, Inhabited

/-- Only active messages have limits, none of them for zero copies; there is no overhead. -/
def InterfaceSettings.attributes (s : InterfaceSettings) : Attributes where
  capabilities := s.capabilities
  messages := ⟨s.maxShort, s.maxBulk, 0⟩
  put := {}
  get := {}
  latency := s.latency
  bandwidth := s.bandwidth
  overhead := 0.0

structure WorkerSettings where
  name : String := "worker"
  /-- Generated when absent. -/
  uuid : Option UInt64 := none
  /-- Retries of a request before its replay yields. -/
  replayYieldAfter : Nat := 64
  /-- Rounds of progress for which a destroyed endpoint waits for its messages in flight. -/
  flushAttempts : Nat := 1024
  deriving DecidableEq, Repr, Inhabited

end Wiring
